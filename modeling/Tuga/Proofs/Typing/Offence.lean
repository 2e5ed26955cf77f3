import Mathlib.Data.List.Forall2
import Tuga.Proofs.Tree.Parsed
import Tuga.Proofs.Typing.Rules

namespace Tuga

namespace Expr

-- No rule gives the expression a type.
def IllTyped (e : Expr) : Prop :=
  ∀ t, ¬e.HasType t

-- An expression that is ill-typed by itself, and not because of an operand.
structure Offends (e : Expr) : Prop where
  operands : ∀ part ∈ e.children, ∃ t, part.HasType t
  illTyped : e.IllTyped

-- The operator of a node that has one.
def operator? : Expr → Option Operator
  | neg _ _ => some .neg
  | not _ _ => some .not
  | binary _ _ op _ _ => some op
  | _ => none

end Expr

-- The error is about the node: its place, its operator, and the types of its operands in order.
structure TypeError.Describes (error : TypeError) (e : Expr) : Prop where
  span : error.span = e.span
  op : e.operator? = some error.op
  types : List.Forall₂ Expr.HasType e.children error.types

namespace Expr

variable {e : Expr} {t : ValueType}

theorem type?_eq_none_iff : e.type? = none ↔ e.IllTyped := by
  rw [Option.eq_none_iff_forall_ne_some]
  exact forall_congr' fun t => not_congr type?_eq_some_iff

theorem HasType.nodes (h : e.HasType t) : ∀ n ∈ e.nodes, ∃ t, n.HasType t := by
  induction h with
  | int | real | bool | text =>
      simp only [Expr.nodes, List.forall_mem_singleton]
      exact ⟨_, by constructor⟩
  | paren h ih => exact List.forall_mem_cons.mpr ⟨⟨_, .paren h⟩, ih⟩
  | neg h numeric ih => exact List.forall_mem_cons.mpr ⟨⟨_, .neg h numeric⟩, ih⟩
  | not h ih => exact List.forall_mem_cons.mpr ⟨⟨_, .not h⟩, ih⟩
  | binary hleft hright rule ihl ihr =>
      exact List.forall_mem_cons.mpr
        ⟨⟨_, .binary hleft hright rule⟩, List.forall_mem_append.mpr ⟨ihl, ihr⟩⟩

theorem offends_iff :
    e.Offends ↔ (∀ part ∈ e.children, ∃ t, part.type? = some t) ∧ e.type? = none := by
  simp only [type?_eq_none_iff, type?_eq_some_iff]
  exact ⟨fun h => ⟨h.operands, h.illTyped⟩, fun h => ⟨h.1, h.2⟩⟩

theorem violation?_eq_some_iff {error : TypeError} :
    e.violation? = some error ↔ e.Offends ∧ error.Describes e := by
  rw [offends_iff]
  constructor
  · intro h
    cases e with
    | int | real | bool | text | paren => cases h
    | neg info operand | not info operand =>
        obtain ⟨t, ht, h⟩ := Option.bind_eq_some_iff.mp h
        obtain ⟨hnone, ⟨⟩⟩ := Option.ite_none_right_eq_some.mp h
        refine ⟨⟨by simp [children, ht], by simpa [type?, ht] using hnone⟩, rfl, rfl, ?_⟩
        exact .cons (type?_eq_some_iff.mp ht) .nil
    | binary info level op left right =>
        obtain ⟨l, hl, h⟩ := Option.bind_eq_some_iff.mp h
        obtain ⟨r, hr, h⟩ := Option.bind_eq_some_iff.mp h
        obtain ⟨hnone, ⟨⟩⟩ := Option.ite_none_right_eq_some.mp h
        refine ⟨⟨by simp [children, hl, hr], by simpa [type?, hl, hr] using hnone⟩, rfl, rfl, ?_⟩
        exact .cons (type?_eq_some_iff.mp hl) (.cons (type?_eq_some_iff.mp hr) .nil)
  · rintro ⟨⟨-, hnone⟩, hspan, hop, htypes⟩
    obtain ⟨span, op, types⟩ := error
    simp only at hspan hop htypes
    subst hspan
    cases e with
    | int | real | bool | text | paren => cases hop
    | neg info operand | not info operand =>
        cases hop
        obtain ⟨t, _, ht, hnil, rfl⟩ := List.forall₂_cons_left_iff.mp htypes
        rw [List.forall₂_nil_left_iff.mp hnil]
        rw [← type?_eq_some_iff] at ht
        simp only [type?, ht, Option.bind_some] at hnone
        simp [violation?, ht, hnone]
    | binary info level op left right =>
        cases hop
        obtain ⟨l, _, hl, hrest, rfl⟩ := List.forall₂_cons_left_iff.mp htypes
        obtain ⟨r, _, hr, hnil, rfl⟩ := List.forall₂_cons_left_iff.mp hrest
        rw [List.forall₂_nil_left_iff.mp hnil]
        rw [← type?_eq_some_iff] at hl hr
        simp only [type?, hl, hr, Option.bind_some] at hnone
        simp [violation?, hl, hr, hnone]

theorem IllTyped.exists_violation (h : e.IllTyped) : ∃ n ∈ e.nodes, n.violation?.isSome := by
  by_contra hnot
  have hnone : ∀ n ∈ e.nodes, n.violation? = none := by
    intro n hn
    rw [← Option.not_isSome_iff_eq_none]
    exact fun hsome => hnot ⟨n, hn, hsome⟩
  have htyped := type?_isSome_of_violation?_eq_none hnone e (self_mem_nodes e)
  rw [type?_eq_none_iff.mpr h] at htyped
  cases htyped

-- A node is reported exactly if it offends: nothing in its operands is.
theorem isSome_violation?_iff : e.violation?.isSome ↔ e.Offends := by
  constructor
  · intro h
    obtain ⟨error, herror⟩ := Option.isSome_iff_exists.mp h
    exact (violation?_eq_some_iff.mp herror).1
  · rintro ⟨hoperands, hillTyped⟩
    obtain ⟨n, hn, hviolation⟩ := hillTyped.exists_violation
    rw [nodes_eq, List.mem_cons] at hn
    rcases hn with rfl | hn
    · exact hviolation
    · obtain ⟨part, hpart, hn⟩ := List.mem_flatMap.mp hn
      obtain ⟨t, ht⟩ := hoperands part hpart
      obtain ⟨t, ht⟩ := ht.nodes n hn
      rw [ht.violation?_eq_none] at hviolation
      cases hviolation

instance : DecidablePred Offends := fun _ => decidable_of_iff _ isSome_violation?_iff

-- What is ill-typed contains an offending node, and conversely.
theorem illTyped_iff_exists_offends : e.IllTyped ↔ ∃ n ∈ e.nodes, n.Offends := by
  constructor
  · intro h
    obtain ⟨n, hn, hviolation⟩ := h.exists_violation
    exact ⟨n, hn, isSome_violation?_iff.mp hviolation⟩
  · rintro ⟨n, hn, hoffends⟩ t ht
    obtain ⟨t, ht⟩ := ht.nodes n hn
    exact hoffends.illTyped t ht

theorem illTyped_iff_exists_illTyped : e.IllTyped ↔ ∃ n ∈ e.nodes, n.IllTyped := by
  constructor
  · exact fun h => ⟨e, self_mem_nodes e, h⟩
  · rintro ⟨n, hn, hillTyped⟩ t ht
    obtain ⟨t, ht⟩ := ht.nodes n hn
    exact hillTyped t ht

theorem forall₂_describes (es : List Expr) :
    List.Forall₂ (fun e error => TypeError.Describes error e) (es.filter Offends)
      (es.filterMap violation?) := by
  induction es with
  | nil => exact .nil
  | cons e es ih =>
      cases h : e.violation? with
      | none =>
          have hnot : ¬e.Offends := by
            rw [← isSome_violation?_iff, h]
            simp
          rwa [List.filter_cons_of_neg (by simpa using hnot), List.filterMap_cons_none h]
      | some error =>
          obtain ⟨hoffends, hdescribes⟩ := violation?_eq_some_iff.mp h
          rw [List.filter_cons_of_pos (by simpa using hoffends), List.filterMap_cons_some h]
          exact .cons hdescribes ih

end Expr

namespace Program

variable {p : Program}

theorem value_mem_expressions {s : Statement} (hs : s ∈ p.statements) :
    s.value ∈ p.expressions :=
  List.mem_flatMap.mpr ⟨s, hs, Expr.self_mem_nodes s.value⟩

theorem Built.of_recheck (hp : p.Built) (earlier : Report) {e : Expr} (he : e ∈ p.expressions) :
    (Id.run (p.recheck.run earlier)).1.of e.id = .ofType? e.type? := by
  rw [run_recheck]
  exact (hp.of_table he).2

theorem Built.of_recheck_eq_typed_iff (hp : p.Built) (earlier : Report) {e : Expr}
    (he : e ∈ p.expressions) (t : ValueType) :
    (Id.run (p.recheck.run earlier)).1.of e.id = .typed t ↔ e.HasType t := by
  rw [hp.of_recheck earlier he, ← Expr.type?_eq_some_iff]
  cases e.type? <;> simp [NodeType.ofType?]

theorem Built.of_recheck_eq_error_iff (hp : p.Built) (earlier : Report) {e : Expr}
    (he : e ∈ p.expressions) :
    (Id.run (p.recheck.run earlier)).1.of e.id = .error ↔ e.IllTyped := by
  rw [hp.of_recheck earlier he, ← Expr.type?_eq_none_iff]
  cases e.type? <;> simp [NodeType.ofType?]

theorem hasErrors_recheck_iff (earlier : Report) :
    (Id.run (p.recheck.run earlier)).2.hasErrors ↔ ∃ s ∈ p.statements, s.value.IllTyped := by
  rw [run_recheck]
  simp only [Report.hasErrors, List.isEmpty_reverse, Bool.not_eq_true', List.isEmpty_eq_false_iff,
    ne_eq, List.filterMap_eq_nil_iff]
  constructor
  · intro h
    by_contra hnot
    refine h fun e he => ?_
    obtain ⟨s, hs, he⟩ := List.mem_flatMap.mp he
    rw [← Option.not_isSome_iff_eq_none, Expr.isSome_violation?_iff]
    intro hoffends
    exact hnot ⟨s, hs, Expr.illTyped_iff_exists_offends.mpr
      ⟨e, Expr.mem_postorder_iff.mp he, hoffends⟩⟩
  · rintro ⟨s, hs, hillTyped⟩ hnone
    obtain ⟨n, hn, hoffends⟩ := Expr.illTyped_iff_exists_offends.mp hillTyped
    rw [← Expr.isSome_violation?_iff,
      hnone n (List.mem_flatMap.mpr ⟨s, hs, Expr.mem_postorder_iff.mpr hn⟩)] at hoffends
    cases hoffends

-- Whatever was checked before, checking a built program marks each expression with the type that
-- the rules give it, or as ill-typed if it is or contains an ill-typed node; it reports the
-- offending nodes in post-order, and finds errors exactly if a statement is marked as ill-typed.
theorem recheck_follows_rules (hp : p.Built) (earlier : Report) :
    let types := (Id.run (p.recheck.run earlier)).1
    let report := (Id.run (p.recheck.run earlier)).2
    (∀ e ∈ p.expressions,
      (∀ t, types.of e.id = .typed t ↔ e.HasType t) ∧
      (types.of e.id = .error ↔ ∃ n ∈ e.nodes, n.IllTyped) ∧
      (types.of e.id = .error ↔ ∃ n ∈ e.nodes, n.Offends)) ∧
    List.Forall₂ (fun e error => TypeError.Describes error e) (p.postorder.filter Expr.Offends)
      report.errors ∧
    (report.hasErrors ↔ ∃ s ∈ p.statements, types.of s.value.id = .error) ∧
    report.types = types ∧ p.check = ⟨types, report.errors⟩ := by
  intro types report
  refine ⟨fun e he => ⟨hp.of_recheck_eq_typed_iff earlier he, ?_, ?_⟩, ?_, ?_, ?_, ?_⟩
  · rw [hp.of_recheck_eq_error_iff earlier he, Expr.illTyped_iff_exists_illTyped]
  · rw [hp.of_recheck_eq_error_iff earlier he, Expr.illTyped_iff_exists_offends]
  · have herrors : report.errors = p.postorder.filterMap Expr.violation? := by
      simp [report, run_recheck, Report.errors]
    rw [herrors]
    exact Expr.forall₂_describes p.postorder
  · rw [hasErrors_recheck_iff]
    refine exists_congr fun s => and_congr_right fun hs => ?_
    rw [hp.of_recheck_eq_error_iff earlier (value_mem_expressions hs)]
  · simp only [report, types, run_recheck]
  · simp only [report, types, check, run_recheck]

-- Two independent errors in one statement, none for what contains them, and nothing left of an
-- error that was reported before.
theorem recheck_follows_rules_poisoned :
    ∃ (p : Program) (earlier : Report), p.Built ∧ earlier.hasErrors ∧
      let report := (Id.run (p.recheck.run earlier)).2
      List.Forall₂ (fun e error => TypeError.Describes error e) (p.postorder.filter Expr.Offends)
        report.errors ∧
      report.errors.map (fun error => (error.op, error.types)) =
        [(.not, [.integer]), (.minus, [.text, .integer])] ∧
      ∃ s ∈ p.statements, (Id.run (p.recheck.run earlier)).1.of s.value.id = .error := by
  have hbuilt := Parser.built_parse "escreve nao (3) e (\"a\" - 1) < 2.5; escreve 1 + \"a\";"
  generalize hp :
    (Program.parse "escreve nao (3) e (\"a\" - 1) < 2.5; escreve 1 + \"a\";").1 = p at hbuilt
  let earlier : Report := ⟨#[], [⟨default, .neg, [.boolean]⟩]⟩
  obtain ⟨-, hdescribes, hhas, -⟩ := recheck_follows_rules hbuilt earlier
  refine ⟨p, earlier, hbuilt, rfl, hdescribes, ?_, hhas.mp ?_⟩
  · subst hp
    decide +kernel
  · subst hp
    decide +kernel

end Program

end Tuga
