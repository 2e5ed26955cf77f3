import Tuga.Proofs.Tree.Recovery

namespace Tuga

open Grammar

-- The tokens of the source are a program, its integer literals in range.
def Grammatical (source : Text) : Prop :=
  (∃ trees, IsProgram (sourceTokens source) trees) ∧ ∀ t ∈ sourceTokens source, t.InRange

namespace Parser

theorem WellFormed.unique {seg : List Token} {e e' : Expr} (h : WellFormed seg e)
    (h' : WellFormed seg e') : e = e' :=
  Option.some.inj ((tree?_eq_some_iff.mpr h).symm.trans (tree?_eq_some_iff.mpr h'))

section Recovered

variable {finish : Token} {segs : List (List Token)} {stmts : List Statement}
  {errors : List SyntaxError} {trees : List Expr}

theorem Recovered.forall₂_wellFormed_iff (h : Recovered finish segs stmts errors) :
    List.Forall₂ WellFormed segs trees ↔
      errors = [] ∧ trees = stmts.map fun stmt => stmt.value.bare := by
  induction h generalizing trees with
  | done => simp
  | read wellFormed _ _ ih =>
      rw [List.forall₂_cons_left_iff]
      constructor
      · rintro ⟨e, es, he, hes, rfl⟩
        obtain ⟨herrors, rfl⟩ := ih.mp hes
        rw [he.unique wellFormed]
        exact ⟨herrors, rfl⟩
      · rintro ⟨herrors, rfl⟩
        exact ⟨_, _, wellFormed, ih.mpr ⟨herrors, rfl⟩, rfl⟩
  | failed illFormed _ _ _ =>
      rw [List.forall₂_cons_left_iff]
      constructor
      · rintro ⟨e, _, he, -⟩
        exact absurd he (illFormed e)
      · rintro ⟨herrors, -⟩
        cases herrors

theorem Recovered.integers (h : Recovered finish segs stmts errors) (hnil : errors = []) :
    stmts.flatMap (fun stmt => stmt.value.integers) = segs.flatten.filterMap Token.integer? := by
  induction h with
  | done => rfl
  | read _ integers _ ih =>
      rw [List.flatMap_cons, integers, ih hnil, List.flatten_cons, List.filterMap_append]
  | failed => cases hnil

end Recovered

section Program

variable {tokens : List Token} {trees : List Expr}

theorem forall₂_segments_of_isProgram (h : IsProgram tokens trees)
    (hrange : ∀ t ∈ tokens, t.InRange) : List.Forall₂ WellFormed (segments tokens) trees := by
  induction h with
  | @one ts e h =>
      have hwell : WellFormed ts e := ⟨h, hrange⟩
      have hsegment : IsSegment ts [] := hwell.isSegment
      rw [← List.append_nil ts, hsegment.segments_append]
      exact .cons hwell .nil
  | @cons ts us e es h _ ih =>
      rw [List.forall_mem_append] at hrange
      have hwell : WellFormed ts e := ⟨h, hrange.1⟩
      have hsegment : IsSegment ts us := hwell.isSegment
      rw [hsegment.segments_append]
      exact .cons hwell (ih hrange.2)

theorem isProgram_flatten {segs : List (List Token)} (h : List.Forall₂ WellFormed segs trees)
    (hne : segs ≠ []) : IsProgram segs.flatten trees ∧ ∀ t ∈ segs.flatten, t.InRange := by
  induction h with
  | nil => exact absurd rfl hne
  | @cons seg e segs trees wellFormed rest ih =>
      rw [List.flatten_cons]
      cases rest with
      | nil =>
          rw [List.flatten_nil, List.append_nil]
          exact ⟨.one wellFormed.isStatement, wellFormed.inRange⟩
      | cons _ _ =>
          obtain ⟨hprogram, hrange⟩ := ih (List.cons_ne_nil _ _)
          exact ⟨.cons wellFormed.isStatement hprogram,
            List.forall_mem_append.mpr ⟨wellFormed.inRange, hrange⟩⟩

theorem isProgram_iff : IsProgram tokens trees ∧ (∀ t ∈ tokens, t.InRange) ↔
    tokens ≠ [] ∧ List.Forall₂ WellFormed (segments tokens) trees := by
  constructor
  · rintro ⟨h, hrange⟩
    have hsegments := forall₂_segments_of_isProgram h hrange
    have htrees : trees ≠ [] := by cases h <;> simp
    refine ⟨?_, hsegments⟩
    rintro rfl
    exact htrees (List.forall₂_nil_left_iff.mp hsegments)
  · rintro ⟨hne, h⟩
    have hflatten := isProgram_flatten h (List.splitBy_ne_nil.mpr hne)
    rwa [segments, List.flatten_splitBy] at hflatten

end Program

-- The trees that the grammar gives to the tokens of a source are those read from it.
theorem isProgram_tokens_iff (source : Text) (trees : List Expr) :
    IsProgram (sourceTokens source) trees ∧
        (∀ t ∈ sourceTokens source, t.InRange) ↔
      (Program.parse source).2.syntactic = [] ∧
        trees = (Program.parse source).1.statements.map fun stmt => stmt.value.bare := by
  obtain ⟨errors, -, hrecovered, hsyntactic⟩ := parse_recovered source
  rw [isProgram_iff, hrecovered.forall₂_wellFormed_iff, hsyntactic, List.append_eq_nil_iff,
    and_assoc]
  simp

theorem syntactic_eq_nil_iff {source : Text} :
    (Program.parse source).2.syntactic = [] ↔ Grammatical source := by
  constructor
  · intro h
    obtain ⟨hprogram, hrange⟩ := (isProgram_tokens_iff source _).mpr ⟨h, rfl⟩
    exact ⟨⟨_, hprogram⟩, hrange⟩
  · rintro ⟨⟨trees, hprogram⟩, hrange⟩
    exact ((isProgram_tokens_iff source trees).mp ⟨hprogram, hrange⟩).1

theorem integers_eq_of_syntactic_eq_nil {source : Text}
    (h : (Program.parse source).2.syntactic = []) :
    (Program.parse source).1.statements.flatMap (fun stmt => stmt.value.integers) =
      (sourceTokens source).filterMap Token.integer? := by
  obtain ⟨errors, -, hrecovered, hsyntactic⟩ := parse_recovered source
  rw [hsyntactic, List.append_eq_nil_iff] at h
  rw [hrecovered.integers h.2, segments, List.flatten_splitBy]

-- A source is read without an error exactly if the grammar derives its tokens and its integer
-- literals are in range; and then the tree read is the only one that the grammar gives them.
theorem parse_accepts_grammar (source : Text) :
    let tokens := sourceTokens source
    let tree := (Program.parse source).1
    let errors := (Program.parse source).2.syntactic
    (errors = [] ↔ (∃ trees, IsProgram tokens trees) ∧ ∀ t ∈ tokens, t.InRange) ∧
      (errors = [] → ∀ trees, IsProgram tokens trees ↔
        trees = tree.statements.map fun stmt => stmt.value.bare) := by
  intro tokens tree errors
  refine ⟨syntactic_eq_nil_iff, fun h trees => ⟨fun htrees => ?_, ?_⟩⟩
  · have hrange := (syntactic_eq_nil_iff.mp h).2
    exact ((isProgram_tokens_iff source trees).mp ⟨htrees, hrange⟩).2
  · rintro rfl
    exact ((isProgram_tokens_iff source _).mpr ⟨h, rfl⟩).1

example : (Program.parse "escreve 1 - -2 * 3 - 4;").1.statements.map (fun stmt => stmt.value.bare) =
    [.binary default .additive .minus (.binary default .additive .minus (.int default 1)
      (.binary default .multiplicative .mul (.neg default (.int default 2)) (.int default 3)))
      (.int default 4)] := by
  decide +kernel

end Parser

end Tuga
