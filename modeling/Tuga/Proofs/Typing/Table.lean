import Tuga.Proofs.Tree.Made
import Tuga.Typing.Check

namespace Tuga

namespace Expr

-- An expression and all its parts, each after its own parts.
def postorder : Expr → List Expr
  | e@(paren _ inner) => postorder inner ++ [e]
  | e@(neg _ operand) => postorder operand ++ [e]
  | e@(not _ operand) => postorder operand ++ [e]
  | e@(binary _ _ _ left right) => postorder left ++ postorder right ++ [e]
  | e => [e]

theorem mem_postorder_iff {e n : Expr} : n ∈ e.postorder ↔ n ∈ e.nodes := by
  induction e with
  | int | real | bool | text => simp [postorder, nodes]
  | paren _ _ ih | neg _ _ ih | not _ _ ih => simp [postorder, nodes, ih, or_comm]
  | binary _ _ _ _ _ ihl ihr => simp [postorder, nodes, ihl, ihr, or_comm, or_left_comm]

-- The rule that a node violates, if its parts have types and it has none.
def violation? : Expr → Option TypeError
  | e@(neg _ operand) =>
    operand.type?.bind fun t => if t.neg?.isNone then some ⟨e.span, .neg, [t]⟩ else none
  | e@(not _ operand) =>
    operand.type?.bind fun t => if t.not?.isNone then some ⟨e.span, .not, [t]⟩ else none
  | e@(binary _ level op left right) =>
    left.type?.bind fun l => right.type?.bind fun r =>
      if (level.type? op l r).isNone then some ⟨e.span, op, [l, r]⟩ else none
  | _ => none

end Expr

-- Writes the type of a node into a table.
def TypeMap.mark (types : TypeMap) (e : Expr) : TypeMap :=
  types.setIfInBounds e.id (.ofType? e.type?)

namespace Expr

-- Checking is a walk over the nodes in post-order.
theorem check_eq (e : Expr) (report : Report) :
    e.check report = (e.type?, ⟨e.postorder.foldl TypeMap.mark report.types,
      (e.postorder.filterMap violation?).reverse ++ report.found⟩) := by
  induction e generalizing report with
  | int | real | bool | text => rfl
  | paren info inner ih =>
      simp [check, ih, postorder, Report.record, TypeMap.mark, type?, violation?]
  | neg info operand ih =>
      simp only [check, ih, postorder, List.foldl_append, List.filterMap_append, type?]
      cases ht : operand.type? with
      | none => simp [Report.poisoned, Report.record, TypeMap.mark, type?, violation?, ht]
      | some t =>
          cases hneg : t.neg? <;>
            simp [Report.conclude, Report.record, Report.violation, TypeMap.mark, type?,
              violation?, ht, hneg]
  | not info operand ih =>
      simp only [check, ih, postorder, List.foldl_append, List.filterMap_append, type?]
      cases ht : operand.type? with
      | none => simp [Report.poisoned, Report.record, TypeMap.mark, type?, violation?, ht]
      | some t =>
          cases hnot : t.not? <;>
            simp [Report.conclude, Report.record, Report.violation, TypeMap.mark, type?,
              violation?, ht, hnot]
  | binary info level op left right ihl ihr =>
      simp only [check, ihl, ihr, postorder, List.foldl_append, List.filterMap_append, type?]
      cases hl : left.type? with
      | none => simp [Report.poisoned, Report.record, TypeMap.mark, type?, violation?, hl]
      | some l =>
          cases hr : right.type? with
          | none => simp [Report.poisoned, Report.record, TypeMap.mark, type?, violation?, hl, hr]
          | some r =>
              cases ht : level.type? op l r <;>
                simp [Report.conclude, Report.record, Report.violation, TypeMap.mark, type?,
                  violation?, hl, hr, ht]

theorem type?_isSome_of_violation?_eq_none {e : Expr} (h : ∀ n ∈ e.nodes, n.violation? = none) :
    ∀ n ∈ e.nodes, n.type?.isSome = true := by
  induction e with
  | int | real | bool | text => simp [nodes, type?]
  | paren info inner ih =>
      simp only [nodes, List.forall_mem_cons] at h ⊢
      have hinner := ih h.2
      exact ⟨hinner inner (self_mem_nodes inner), hinner⟩
  | neg info operand ih =>
      simp only [nodes, List.forall_mem_cons] at h ⊢
      have hoperand := ih h.2
      obtain ⟨t, ht⟩ := Option.isSome_iff_exists.mp (hoperand operand (self_mem_nodes operand))
      refine ⟨?_, hoperand⟩
      simpa [violation?, type?, ht, Option.isSome_iff_ne_none] using h.1
  | not info operand ih =>
      simp only [nodes, List.forall_mem_cons] at h ⊢
      have hoperand := ih h.2
      obtain ⟨t, ht⟩ := Option.isSome_iff_exists.mp (hoperand operand (self_mem_nodes operand))
      refine ⟨?_, hoperand⟩
      simpa [violation?, type?, ht, Option.isSome_iff_ne_none] using h.1
  | binary info level op left right ihl ihr =>
      simp only [nodes, List.forall_mem_cons, List.forall_mem_append] at h ⊢
      have hleft := ihl h.2.1
      have hright := ihr h.2.2
      obtain ⟨l, hl⟩ := Option.isSome_iff_exists.mp (hleft left (self_mem_nodes left))
      obtain ⟨r, hr⟩ := Option.isSome_iff_exists.mp (hright right (self_mem_nodes right))
      refine ⟨?_, hleft, hright⟩
      simpa [violation?, type?, hl, hr, Option.isSome_iff_ne_none] using h.1

end Expr

namespace TypeMap

@[simp] theorem size_mark (types : TypeMap) (e : Expr) : (types.mark e).size = types.size := by
  simp [mark]

theorem of_mark {types : TypeMap} {e n : Expr} (hlt : n.id < types.size)
    (hunique : e.id = n.id → e = n) :
    (types.mark e).of n.id = if e = n then .ofType? n.type? else types.of n.id := by
  by_cases heq : e = n
  · subst heq
    simp [mark, of, Array.getD, hlt]
  · have hid : e.id ≠ n.id := fun hid => heq (hunique hid)
    simp [mark, of, Array.getD, hlt, heq, hid]

-- Marking nodes one after the other keeps what was marked before: equal numbers mean equal nodes.
theorem of_foldl_mark {types : TypeMap} {ns : List Expr} {n : Expr} (hlt : n.id < types.size)
    (hunique : ∀ e ∈ ns, e.id = n.id → e = n) :
    (ns.foldl mark types).of n.id = if n ∈ ns then .ofType? n.type? else types.of n.id := by
  induction ns generalizing types with
  | nil => simp
  | cons e ns ih =>
      rw [List.forall_mem_cons] at hunique
      rw [List.foldl_cons, ih (by simpa using hlt) hunique.2, of_mark hlt hunique.1]
      by_cases hmem : n ∈ ns
      · simp [hmem]
      · by_cases heq : e = n
        · simp [heq]
        · simp [hmem, heq, Ne.symm heq]

end TypeMap

namespace Program

-- The nodes of a program in the order in which they are checked.
def postorder (p : Program) : List Expr :=
  p.statements.flatMap fun s => s.value.postorder

theorem run_forM_check (statements : List Statement) (report : Report) :
    Id.run ((statements.forM fun s =>
      modify fun report => (s.value.check report).2 : StateM Report Unit).run report) =
      ((), ⟨(statements.flatMap fun s => s.value.postorder).foldl TypeMap.mark report.types,
        ((statements.flatMap fun s => s.value.postorder).filterMap Expr.violation?).reverse ++
          report.found⟩) := by
  induction statements generalizing report with
  | nil => rfl
  | cons s statements ih =>
      refine (ih (s.value.check report).2).trans ?_
      rw [Expr.check_eq]
      simp

theorem run_recheck (p : Program) (report : Report) :
    Id.run (p.recheck.run report) =
      let types := p.postorder.foldl TypeMap.mark (TypeMap.blank p.nodeCount)
      (types, ⟨types, (p.postorder.filterMap Expr.violation?).reverse⟩) := by
  have hrun : Id.run (p.recheck.run report) =
      let report := (Id.run ((p.statements.forM fun s =>
        modify fun report => (s.value.check report).2 : StateM Report Unit).run
          (.blank p.nodeCount))).2
      (report.types, report) := rfl
  rw [hrun, run_forM_check]
  simp [Report.blank, postorder]

theorem check_eq (p : Program) :
    p.check = ⟨p.postorder.foldl TypeMap.mark (TypeMap.blank p.nodeCount),
      p.postorder.filterMap Expr.violation?⟩ := by
  rw [check, run_recheck]
  simp [Report.errors]

end Program

-- An expression whose nodes all have a type, which the table knows, and a fitting level.
def Expr.Annotated (types : TypeMap) (e : Expr) : Prop :=
  ∀ n ∈ e.nodes, n.Leveled ∧ ∃ t, n.type? = some t ∧ types.of n.id = .typed t

namespace Expr.Annotated

variable {types : TypeMap} {e : Expr}

theorem part (h : e.Annotated types) {part : Expr} (hpart : part ∈ e.children) :
    part.Annotated types := by
  intro n hn
  refine h n ?_
  rw [nodes_eq]
  exact List.mem_cons_of_mem _ (List.mem_flatMap.mpr ⟨part, hpart, hn⟩)

theorem leveled (h : e.Annotated types) : e.Leveled :=
  (h e (self_mem_nodes e)).1

theorem exists_type (h : e.Annotated types) :
    ∃ t, e.type? = some t ∧ types.of e.id = .typed t :=
  (h e (self_mem_nodes e)).2

end Expr.Annotated

namespace Program

variable {p : Program}

theorem mem_postorder_iff {e : Expr} : e ∈ p.postorder ↔ e ∈ p.expressions := by
  simp only [postorder, expressions, List.mem_flatMap, Expr.mem_postorder_iff]

-- The nodes of a program are numbered below its node count, and equal numbers mean equal nodes.
structure Numbered (p : Program) : Prop where
  lt : ∀ e ∈ p.expressions, e.id < p.nodeCount
  unique : ∀ e ∈ p.expressions, ∀ n ∈ p.expressions, e.id = n.id → e = n

theorem Built.leveled_numbered (hp : p.Built) : (∀ e ∈ p.expressions, e.Leveled) ∧ p.Numbered := by
  obtain ⟨es, hes, hvalues⟩ := hp.exists_numbered
  have hmem : ∀ e ∈ p.expressions, e ∈ es := by
    intro e he
    obtain ⟨s, hs, he⟩ := List.mem_flatMap.mp he
    exact hes.nodes _ (hvalues s hs) e he
  exact ⟨fun e he => hes.leveled e (hmem e he), fun e he => hes.lt e (hmem e he),
    fun e he n hn => hes.unique e (hmem e he) n (hmem n hn)⟩

-- The table which checking fills has the type of each node.
theorem Numbered.of_table (hp : p.Numbered) {e : Expr} (he : e ∈ p.expressions) :
    (p.postorder.foldl TypeMap.mark (TypeMap.blank p.nodeCount)).of e.id = .ofType? e.type? := by
  have hlt : e.id < (TypeMap.blank p.nodeCount).size := by
    simpa [TypeMap.blank] using hp.lt e he
  rw [TypeMap.of_foldl_mark hlt fun n hn hid => hp.unique n (mem_postorder_iff.mp hn) e he hid,
    if_pos (mem_postorder_iff.mpr he)]

theorem Built.of_table (hp : p.Built) {e : Expr} (he : e ∈ p.expressions) :
    e.Leveled ∧
      (p.postorder.foldl TypeMap.mark (TypeMap.blank p.nodeCount)).of e.id = .ofType? e.type? :=
  ⟨hp.leveled_numbered.1 e he, hp.leveled_numbered.2.of_table he⟩

-- Checking without errors gives every node a type, which the table knows.
theorem Numbered.exists_type (hp : p.Numbered) (hc : p.check.errors = []) {e : Expr}
    (he : e ∈ p.expressions) : ∃ t, e.type? = some t ∧ p.check.types.of e.id = .typed t := by
  rw [Program.check_eq] at hc ⊢
  obtain ⟨s, hs, hn⟩ := List.mem_flatMap.mp he
  have hnone : ∀ n ∈ s.value.nodes, n.violation? = none := by
    intro n hn
    exact List.filterMap_eq_nil_iff.mp hc n
      (List.mem_flatMap.mpr ⟨s, hs, Expr.mem_postorder_iff.mpr hn⟩)
  obtain ⟨t, ht⟩ := Option.isSome_iff_exists.mp
    (Expr.type?_isSome_of_violation?_eq_none hnone e hn)
  exact ⟨t, ht, by rw [hp.of_table he, ht]; rfl⟩

theorem Built.annotated (hp : p.Built) (hc : p.check.errors = []) :
    ∀ s ∈ p.statements, s.value.Annotated p.check.types := by
  obtain ⟨hleveled, hnumbered⟩ := hp.leveled_numbered
  intro s hs n hn
  have he : n ∈ p.expressions := List.mem_flatMap.mpr ⟨s, hs, hn⟩
  exact ⟨hleveled n he, hnumbered.exists_type hc he⟩

end Program

end Tuga
