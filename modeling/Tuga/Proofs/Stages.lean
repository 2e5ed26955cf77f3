import Tuga.Proofs.Codegen.Literals
import Tuga.Proofs.Compile
import Tuga.Proofs.Tree.Programs
import Tuga.Proofs.Typing.Rules

namespace Tuga

-- An integer literal that exceeds the greatest integer of an instruction.
def Token.TooWide (t : Token) : Prop :=
  t.kind = .integer ∧ 2 ^ 31 - 1 < Text.toNat t.literal

-- Every stretch of the source is a token.
def Lexable (source : Text) : Prop :=
  ∀ e, Lexeme.error e ∉ Lexer.lexemes source

-- Every expression in the source has a type.
def WellTyped (source : Text) : Prop :=
  ∀ e ∈ (Program.parse source).1.expressions, ∃ t, e.HasType t

-- Every integer literal in the source fits into an instruction.
def Narrow (source : Text) : Prop :=
  ∀ t ∈ sourceTokens source, ¬t.TooWide

-- When a stage rejects a source: it violates the condition of the stage and none before. No stage
-- rejects it if it violates none.
def RejectedBy (source : Text) : Option Stage → Prop
  | some .lexical => ¬Lexable source
  | some .parsing => Lexable source ∧ ¬Grammatical source
  | some .typing => Lexable source ∧ Grammatical source ∧ ¬WellTyped source
  | some .generation => Lexable source ∧ Grammatical source ∧ WellTyped source ∧ ¬Narrow source
  | none => Lexable source ∧ Grammatical source ∧ WellTyped source ∧ Narrow source

theorem RejectedBy.unique {source : Text} {stage? other? : Option Stage}
    (h : RejectedBy source stage?) (h' : RejectedBy source other?) : stage? = other? := by
  rcases stage? with _ | _ | _ | _ | _ <;> rcases other? with _ | _ | _ | _ | _ <;>
    simp_all [RejectedBy]

section Conditions

variable {source : Text}

theorem lexicalErrors_eq (source : Text) :
    (Program.parse source).2.lexicalErrors = Lexer.errors (Lexer.lexemes source) := by
  obtain ⟨-, hend, -⟩ := Parser.parse_recovered source
  rw [Parser.lexicalErrors, hend]
  rfl

theorem lexicalErrors_eq_nil_iff :
    (Program.parse source).2.lexicalErrors = [] ↔ Lexable source := by
  rw [lexicalErrors_eq, Lexer.errors, List.filterMap_eq_nil_iff]
  constructor
  · intro h e he
    cases h _ he
  · intro h lexeme hlexeme
    cases lexeme with
    | token t => rfl
    | error e => exact absurd hlexeme (h e)

theorem Token.integer?_eq_some_iff {t : Token} {literal : Span × Int} :
    t.integer? = some literal ↔
      t.kind = .integer ∧ (t.span, (Text.toNat t.literal : Int)) = literal := by
  simp [integer?]

theorem fitsOperand_natCast (n : Nat) : Codegen.fitsOperand n = true ↔ n ≤ 2 ^ 31 - 1 := by
  simp only [Codegen.fitsOperand, Bool.and_eq_true, decide_eq_true_eq]
  omega

theorem Token.any_integer?_iff (t : Token) :
    (t.integer?.any fun literal => !Codegen.fitsOperand literal.2) = true ↔ t.TooWide := by
  rw [Option.any_eq_true, TooWide]
  constructor
  · rintro ⟨literal, ht, hwide⟩
    obtain ⟨hkind, rfl⟩ := integer?_eq_some_iff.mp ht
    rw [Bool.not_eq_true', ← Bool.not_eq_true, fitsOperand_natCast] at hwide
    exact ⟨hkind, Nat.lt_of_not_le hwide⟩
  · rintro ⟨hkind, hwide⟩
    refine ⟨_, integer?_eq_some_iff.mpr ⟨hkind, rfl⟩, ?_⟩
    rw [Bool.not_eq_true', ← Bool.not_eq_true, fitsOperand_natCast]
    exact Nat.not_le_of_lt hwide

theorem tooWide?_cases (tokens : List Token) :
    (Codegen.tooWide? (tokens.filterMap Token.integer?) = none ∧ ∀ t ∈ tokens, ¬t.TooWide) ∨
      ∃ before t after, tokens = before ++ t :: after ∧ (∀ u ∈ before, ¬u.TooWide) ∧ t.TooWide ∧
        Codegen.tooWide? (tokens.filterMap Token.integer?) =
          some ⟨t.span, .literalTooWide (Text.toNat t.literal)⟩ := by
  rw [Codegen.tooWide?, List.find?_filterMap]
  cases hfind : tokens.find? fun t => t.integer?.any fun literal =>
      !Codegen.fitsOperand literal.2 with
  | none =>
      refine .inl ⟨rfl, fun t ht => ?_⟩
      rw [← t.any_integer?_iff]
      exact List.find?_eq_none.mp hfind t ht
  | some t =>
      obtain ⟨hwide, before, after, htokens, hbefore⟩ := List.find?_eq_some_iff_append.mp hfind
      rw [t.any_integer?_iff] at hwide
      refine .inr ⟨before, t, after, htokens, fun u hu => ?_, hwide, ?_⟩
      · have hu := hbefore u hu
        rwa [Bool.not_eq_true', ← Bool.not_eq_true, u.any_integer?_iff] at hu
      · rw [Option.bind_some, Token.integer?_eq_some_iff.mpr ⟨hwide.1, rfl⟩]
        rfl

end Conditions

-- How compilation ends, and when: the stages in order, each with its condition, and success.
inductive Compilation.Outcome (source : Text) : Compilation → Prop
  | lexical {tree : Program} {errors : List LexicalError} (violated : ¬Lexable source)
      (errors_ne_nil : errors ≠ []) :
      Outcome source { tree, rejection := some (.lexical errors) }
  | parsing {tree : Program} {errors : List SyntaxError} (lexable : Lexable source)
      (violated : ¬Grammatical source) (errors_ne_nil : errors ≠ []) :
      Outcome source { tree, rejection := some (.parsing errors) }
  | typing {tree : Program} {types : TypeMap} {errors : List TypeError} (lexable : Lexable source)
      (grammatical : Grammatical source) (violated : ¬WellTyped source)
      (errors_ne_nil : errors ≠ []) :
      Outcome source { tree, types := some types, rejection := some (.typing errors) }
  | generation {tree : Program} {types : TypeMap} {before after : List Token} {t : Token}
      (lexable : Lexable source) (grammatical : Grammatical source) (wellTyped : WellTyped source)
      (tokens : sourceTokens source = before ++ t :: after) (narrow : ∀ u ∈ before, ¬u.TooWide)
      (violated : t.TooWide) :
      Outcome source { tree, types := some types, rejection := some (.generation
        ⟨t.span, .literalTooWide (Text.toNat t.literal)⟩) }
  | accepted {tree : Program} {types : TypeMap} {bytecode : Bytecode} (lexable : Lexable source)
      (grammatical : Grammatical source) (wellTyped : WellTyped source) (narrow : Narrow source) :
      Outcome source { tree, types := some types, bytecode := some bytecode }

theorem compile_outcome (source : Text) : (compile source).Outcome source := by
  rw [compile_eq, check_eq]
  dsimp only
  split
  · rename_i h
    have hne : (Program.parse source).2.lexicalErrors ≠ [] := by simpa using h
    exact .lexical (mt lexicalErrors_eq_nil_iff.mpr hne) hne
  · rename_i h
    have hlexable : Lexable source := lexicalErrors_eq_nil_iff.mp (by simpa using h)
    split
    · rename_i h
      have hne : (Program.parse source).2.syntactic ≠ [] := by simpa using h
      exact .parsing hlexable (mt Parser.syntactic_eq_nil_iff.mpr hne) hne
    · rename_i h
      have hsyntactic : (Program.parse source).2.syntactic = [] := by simpa using h
      have hgrammatical : Grammatical source := Parser.syntactic_eq_nil_iff.mp hsyntactic
      have htyped := (Program.parse source).1.check_errors_eq_nil_iff
      split
      · rename_i h
        have hne : (Program.parse source).1.check.errors ≠ [] := by simpa using h
        exact .typing hlexable hgrammatical (mt htyped.mpr hne) hne
      · rename_i h
        have herrors : (Program.parse source).1.check.errors = [] := by simpa using h
        have hgenerate := (Parser.built_parse source).generate_eq herrors
        rw [Parser.integers_eq_of_syntactic_eq_nil hsyntactic] at hgenerate
        rcases tooWide?_cases (sourceTokens source) with
          ⟨hnone, hnarrow⟩ | ⟨before, t, after, htokens, hbefore, hwide, hsome⟩
        · rw [hnone] at hgenerate
          obtain ⟨b, hb⟩ := hgenerate
          simp only [Compilation.generate, hb]
          exact .accepted hlexable hgrammatical (htyped.mp herrors) hnarrow
        · rw [hsome] at hgenerate
          simp only [Compilation.generate, hgenerate]
          exact .generation hlexable hgrammatical (htyped.mp herrors) htokens hbefore hwide

theorem run_showErrors_bind {α : Type} (shows : Bool) (errors : List Text) (out : Text)
    (f : StateM Text α) :
    Id.run ((showErrors shows errors >>= fun _ => f).run out) =
      Id.run (f.run (out ++ if shows then Text.lines errors else [])) := by
  cases shows with
  | false => rw [if_neg Bool.false_ne_true, List.append_nil]; rfl
  | true => rfl

-- What is shown goes to the output and nowhere else.
theorem run_checkShowing (detail : Detail) (source out : Text) :
    Id.run ((checkShowing detail source).run out) =
      (check source, out ++ (check source).shown detail) := by
  rw [check_eq, checkShowing]
  dsimp only
  split
  · rw [run_showErrors_bind]
    rfl
  · split
    · rw [run_showErrors_bind]
      rfl
    · rw [run_showErrors_bind]
      split
      · rfl
      · rename_i h
        have herrors : (Program.parse source).1.check.errors = [] := by simpa using h
        rw [herrors, List.map_nil, show Text.lines [] = [] from rfl, ite_self]
        rfl

theorem Compilation.shown_generate (c : Compilation) (detail : Detail) :
    c.generate.shown detail = c.shown detail := by
  rw [generate]
  split
  · rename_i h _
    split
    · rfl
    · simp [shown, h, Rejection.shown]
  · rfl

theorem run_compileShowing (detail : Detail) (source out : Text) :
    Id.run ((compileShowing detail source).run out) =
      (compile source, out ++ (compile source).shown detail) := by
  have hrun : Id.run ((compileShowing detail source).run out) =
      ((Id.run ((checkShowing detail source).run out)).1.generate,
        (Id.run ((checkShowing detail source).run out)).2) := rfl
  rw [hrun, run_checkShowing, compile_eq, Compilation.shown_generate]

section Outcome

variable {source : Text} {c : Compilation}

namespace Compilation.Outcome

theorem rejectedBy (h : c.Outcome source) :
    RejectedBy source (c.rejection.map Rejection.stage) := by
  cases h with
  | lexical violated => exact violated
  | parsing lexable violated => exact ⟨lexable, violated⟩
  | typing lexable grammatical violated => exact ⟨lexable, grammatical, violated⟩
  | generation lexable grammatical wellTyped tokens _ violated =>
      refine ⟨lexable, grammatical, wellTyped, fun narrow => ?_⟩
      exact narrow _ (by simp [tokens]) violated
  | accepted lexable grammatical wellTyped narrow =>
      exact ⟨lexable, grammatical, wellTyped, narrow⟩

theorem isSome_bytecode_iff (h : c.Outcome source) :
    c.bytecode.isSome ↔ c.rejection = none := by
  cases h <;> simp

end Compilation.Outcome

end Outcome

end Tuga
