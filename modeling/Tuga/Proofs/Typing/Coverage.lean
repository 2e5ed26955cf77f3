import Tuga.Proofs.Tree.Numbering
import Tuga.Proofs.Typing.Offence

namespace Tuga

namespace Report

-- Writes into the table. There is no outcome if the number of the node is beyond its end.
def record? (report : Report) (e : Expr) (type : Option ValueType) : Option Report :=
  if e.id < report.types.size then some (report.record e type) else none

def conclude? (report : Report) (e : Expr) (op : Operator) (types : List ValueType)
    (type : Option ValueType) : Option (Option ValueType × Report) := do
  let report := if type.isNone then report.violation e op types else report
  return (type, ← report.record? e type)

def poisoned? (report : Report) (e : Expr) : Option (Option ValueType × Report) := do
  return (none, ← report.record? e none)

end Report

-- Checks an expression, and has no outcome if it would write outside the table.
def Expr.check? (report : Report) : Expr → Option (Option ValueType × Report)
  | e@(.paren _ inner) => do
    let (type, report) ← inner.check? report
    return (type, ← report.record? e type)
  | e@(.neg _ operand) => do
    match ← operand.check? report with
    | (some t, report) => report.conclude? e .neg [t] t.neg?
    | (none, report) => report.poisoned? e
  | e@(.not _ operand) => do
    match ← operand.check? report with
    | (some t, report) => report.conclude? e .not [t] t.not?
    | (none, report) => report.poisoned? e
  | e@(.binary _ level op left right) => do
    let (leftType, report) ← left.check? report
    match leftType, ← right.check? report with
    | some l, (some r, report) => report.conclude? e op [l, r] (level.type? op l r)
    | _, (_, report) => report.poisoned? e
  | e => do return (e.type?, ← report.record? e e.type?)

-- Checks a whole program afresh, and has no outcome if that would write outside the table.
def Program.recheck? (p : Program) : Option Report :=
  p.statements.foldlM (fun report s => (s.value.check? report).map Prod.snd)
    (Report.blank p.nodeCount)

namespace Report

variable {report : Report} {e : Expr} {type : Option ValueType}

theorem record?_eq_some (h : e.id < report.types.size) :
    report.record? e type = some (report.record e type) :=
  if_pos h

theorem conclude?_eq_some {op : Operator} {types : List ValueType}
    (h : e.id < report.types.size) :
    report.conclude? e op types type = some (report.conclude e op types type) := by
  have hviolation : e.id <
      (if type.isNone then report.violation e op types else report).types.size := by
    split
    · exact h
    · exact h
  rw [conclude?, record?_eq_some hviolation]
  rfl

theorem poisoned?_eq_some (h : e.id < report.types.size) :
    report.poisoned? e = some (report.poisoned e) := by
  rw [poisoned?, record?_eq_some h]
  rfl

end Report

namespace TypeMap

theorem size_foldl_mark (ns : List Expr) (types : TypeMap) :
    (ns.foldl mark types).size = types.size := by
  induction ns generalizing types with
  | nil => rfl
  | cons n ns ih => rw [List.foldl_cons, ih, size_mark]

theorem of_foldl_mark_of_ne {ns : List Expr} {id : Nat} (h : ∀ n ∈ ns, n.id ≠ id)
    (types : TypeMap) : (ns.foldl mark types).of id = types.of id := by
  induction ns generalizing types with
  | nil => rfl
  | cons n ns ih =>
      rw [List.forall_mem_cons] at h
      have hmark : (types.mark n).of id = types.of id := by
        simp [mark, of, Array.getElem?_setIfInBounds_ne h.1]
      rw [List.foldl_cons, ih h.2, hmark]

@[simp] theorem of_blank (n id : Nat) : (blank n).of id = .missing := by
  by_cases h : id < n
  · simp [blank, of, Array.getD, h]
  · simp [blank, of, Array.getD, h]

end TypeMap

namespace Expr

theorem size_types_check (e : Expr) (report : Report) :
    (e.check report).2.types.size = report.types.size := by
  rw [check_eq]
  exact TypeMap.size_foldl_mark _ _

-- Checking writes at the numbers of an expression and its parts, and nowhere else.
theorem check?_eq_some {e : Expr} {report : Report}
    (h : ∀ n ∈ e.nodes, n.id < report.types.size) : e.check? report = some (e.check report) := by
  induction e generalizing report with
  | int | real | bool | text =>
      simp only [check?, check, Report.record?_eq_some (h _ (self_mem_nodes _))]
      rfl
  | paren info inner ih =>
      have hself := h _ (self_mem_nodes _)
      rw [← inner.size_types_check report] at hself
      rw [check?, check, ih fun n hn => h n (List.mem_cons_of_mem _ hn), Option.bind_eq_bind,
        Option.bind_some]
      simp only [Report.record?_eq_some hself]
      rfl
  | neg info operand ih | not info operand ih =>
      have hself := h _ (self_mem_nodes _)
      rw [← operand.size_types_check report] at hself
      rw [check?, check, ih fun n hn => h n (List.mem_cons_of_mem _ hn), Option.bind_eq_bind,
        Option.bind_some]
      generalize operand.check report = checked at hself ⊢
      obtain ⟨_ | t, report'⟩ := checked
      · exact Report.poisoned?_eq_some hself
      · exact Report.conclude?_eq_some hself
  | binary info level op left right ihl ihr =>
      have hself := h _ (self_mem_nodes _)
      rw [← left.size_types_check report] at hself
      have hright : ∀ n ∈ right.nodes, n.id < (left.check report).2.types.size := by
        intro n hn
        rw [left.size_types_check]
        exact h n (List.mem_cons_of_mem _ (List.mem_append_right _ hn))
      rw [check?, check,
        ihl fun n hn => h n (List.mem_cons_of_mem _ (List.mem_append_left _ hn)),
        Option.bind_eq_bind, Option.bind_some]
      generalize left.check report = checked at hself hright ⊢
      obtain ⟨leftType, report'⟩ := checked
      rw [← right.size_types_check report'] at hself
      simp only [ihr hright, Option.bind_some]
      generalize right.check report' = checked at hself ⊢
      obtain ⟨rightType, report''⟩ := checked
      cases leftType with
      | none => exact Report.poisoned?_eq_some hself
      | some l =>
          cases rightType with
          | none => exact Report.poisoned?_eq_some hself
          | some r => exact Report.conclude?_eq_some hself

end Expr

namespace Program

variable {p : Program}

theorem foldlM_check?_eq_some (statements : List Statement) (report : Report)
    (h : ∀ s ∈ statements, ∀ n ∈ s.value.nodes, n.id < report.types.size) :
    statements.foldlM (fun report s => (s.value.check? report).map Prod.snd) report =
      some (Id.run ((statements.forM fun s =>
        modify fun report => (s.value.check report).2 : StateM Report Unit).run report)).2 := by
  induction statements generalizing report with
  | nil => rfl
  | cons s statements ih =>
      rw [List.forall_mem_cons] at h
      have hrest : ∀ s' ∈ statements, ∀ n ∈ s'.value.nodes,
          n.id < (s.value.check report).2.types.size := by
        intro s' hs' n hn
        rw [s.value.size_types_check]
        exact h.2 s' hs' n hn
      rw [List.foldlM_cons, Expr.check?_eq_some h.1]
      exact ih _ hrest

-- A program whose numbers are below its count of nodes is checked inside its table.
theorem recheck?_eq_some (h : ∀ e ∈ p.expressions, e.id < p.nodeCount) (report : Report) :
    p.recheck? = some (Id.run (p.recheck.run report)).2 := by
  refine foldlM_check?_eq_some p.statements (.blank p.nodeCount) fun s hs n hn => ?_
  simpa [Report.blank, TypeMap.blank] using h n (List.mem_flatMap.mpr ⟨s, hs, hn⟩)

theorem size_recheck (p : Program) (report : Report) :
    (Id.run (p.recheck.run report)).1.size = p.nodeCount := by
  rw [run_recheck]
  simp [TypeMap.size_foldl_mark, TypeMap.blank]

theorem Built.of_recheck_ne_missing (hp : p.Built) (report : Report) {e : Expr}
    (he : e ∈ p.expressions) : (Id.run (p.recheck.run report)).1.of e.id ≠ .missing := by
  rw [hp.of_recheck report he]
  cases e.type? with
  | none => exact NodeType.noConfusion
  | some t => exact NodeType.noConfusion

theorem of_recheck_eq_missing (p : Program) (report : Report) {id : Nat}
    (h : ∀ e ∈ p.expressions, e.id ≠ id) :
    (Id.run (p.recheck.run report)).1.of id = .missing := by
  rw [run_recheck]
  refine (TypeMap.of_foldl_mark_of_ne (fun n hn => h n (mem_postorder_iff.mp hn)) _).trans ?_
  exact TypeMap.of_blank p.nodeCount id

theorem id_mem_ids {e : Expr} (he : e ∈ p.expressions) : e.id ∈ p.ids := by
  obtain ⟨s, hs, he⟩ := List.mem_flatMap.mp he
  refine List.mem_append_left _ (List.mem_flatMap.mpr ⟨s, hs, List.mem_append_left _ ?_⟩)
  exact List.mem_map_of_mem (Expr.mem_postorder_iff.mpr he)

-- Whatever the source, no two nodes of the tree read from it have the same number, numbers are
-- below the count of nodes, and a node has a greater number than its parts. Without syntax errors
-- all numbers are used, in post-order. Checking the tree, with any report left from before, stays
-- inside the table, says something about each expression, and nothing about other numbers.
theorem parse_numbers_nodes (source : Text) :
    let p := (Program.parse source).1
    p.ids.Nodup ∧ (∀ id ∈ p.ids, id < p.nodeCount) ∧
      (∀ e ∈ p.expressions, ∀ part ∈ e.children, part.id < e.id) ∧
      (∀ s ∈ p.statements, s.value.id < s.info.id ∧ s.info.id < p.info.id) ∧
      ((Program.parse source).2.syntactic = [] → p.ids = List.range p.nodeCount) ∧
      ∀ report : Report,
        let types := (Id.run (p.recheck.run report)).1
        let checked := (Id.run (p.recheck.run report)).2
        p.recheck? = some checked ∧ checked.types = types ∧ types.size = p.nodeCount ∧
          types.missing p = [] ∧ (∀ e ∈ p.expressions, types.of e.id ≠ .missing) ∧
          ∀ id, (∀ e ∈ p.expressions, e.id ≠ id) → types.of id = .missing := by
  intro p
  obtain ⟨hsublist, hdense⟩ := Parser.ids_parse source
  have hbuilt : p.Built := Parser.built_parse source
  have hincreasing : p.ids.Pairwise (· < ·) := List.pairwise_lt_range.sublist hsublist
  have hlt : ∀ id ∈ p.ids, id < p.nodeCount := fun id hid =>
    List.mem_range.mp (hsublist.subset hid)
  obtain ⟨hparts, hstatements⟩ := ids_lt_of_pairwise hincreasing
  refine ⟨hincreasing.imp Nat.ne_of_lt, hlt, hparts, hstatements, hdense, fun report => ?_⟩
  have hsome := fun e he => hbuilt.of_recheck_ne_missing (e := e) report he
  refine ⟨recheck?_eq_some (fun e he => hlt e.id (id_mem_ids he)) report, rfl,
    p.size_recheck report, ?_, hsome, fun id hid => p.of_recheck_eq_missing report hid⟩
  rw [TypeMap.missing, List.filter_eq_nil_iff]
  exact fun e he hmissing => hsome e he (of_decide_eq_true hmissing)

-- The number of a literal is lost with the statement in which it was read.
example : (Program.parse "escreve 1 + ; escreve 2;").1.ids = [1, 2, 3] := by
  decide +kernel

end Program

end Tuga
