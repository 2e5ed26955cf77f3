import Tuga.Proofs.Tree.Places

namespace Tuga

section Offset

variable {span inner outer first second : Span} {offset : Int}

theorem Span.contains_iff :
    span.contains offset = true ↔ span.start.offset ≤ offset ∧ offset < span.stop.offset := by
  rw [contains, Bool.and_eq_true, decide_eq_true_eq, decide_eq_true_eq]

theorem Span.Within.contains (h : inner.Within outer) (hinner : inner.contains offset = true) :
    outer.contains offset = true := by
  rw [contains_iff] at hinner ⊢
  obtain ⟨hstart, hstop⟩ := h
  omega

theorem Span.Within.rfl : span.Within span := ⟨Int.le_refl _, Int.le_refl _⟩

theorem Span.Within.trans (h : first.Within second) (h' : second.Within outer) :
    first.Within outer := by
  obtain ⟨hstart, hstop⟩ := h
  obtain ⟨hstart', hstop'⟩ := h'
  constructor <;> omega

theorem Span.Before.disjoint (h : first.Before second) (hinner : inner.Within first)
    (houter : outer.Within second) (hcontains : inner.contains offset = true) :
    outer.contains offset = false := by
  rw [← Bool.not_eq_true, contains_iff]
  rw [contains_iff] at hcontains
  unfold Before at h
  obtain ⟨-, hstop⟩ := hinner
  obtain ⟨hstart, -⟩ := houter
  omega

end Offset

namespace Expr

-- The innermost of some expressions at an offset: none of its proper parts is there, and each of
-- the expressions there is it or has it as a part.
structure Innermost (offset : Int) (es : List Expr) (found : Expr) : Prop where
  mem : found ∈ es
  contains : found.span.contains offset = true
  parts : ∀ n ∈ found.children.flatMap nodes, n.span.contains offset = false
  around : ∀ e ∈ es, e.span.contains offset = true → found ∈ e.nodes

-- What a search among some expressions should come to.
def Finds (offset : Int) (es : List Expr) : Option Expr → Prop
  | none => ∀ e ∈ es, e.span.contains offset = false
  | some found => Innermost offset es found

-- At most one of two groups of expressions is at the offset.
def Apart (offset : Int) (es es' : List Expr) : Prop :=
  ∀ e ∈ es, ∀ e' ∈ es', e.span.contains offset = true → e'.span.contains offset = false

theorem nodes_subset {e part : Expr} (h : part ∈ e.children) : part.nodes ⊆ e.nodes := by
  intro n hn
  rw [nodes_eq]
  exact List.mem_cons_of_mem _ (List.mem_flatMap.mpr ⟨part, h, hn⟩)

theorem at?_eq (offset : Int) (e : Expr) :
    e.at? offset = if e.span.contains offset then
      (e.children.reverse.findSome? (at? offset)).or (some e) else none := by
  have hone (part : Expr) : [part].reverse.findSome? (at? offset) = part.at? offset := by
    rw [List.reverse_singleton, List.findSome?_singleton]
  have htwo (left right : Expr) : [left, right].reverse.findSome? (at? offset) =
      (right.at? offset).or (left.at? offset) := by
    rw [List.reverse_cons, List.findSome?_append, List.findSome?_singleton, hone]
  cases e with
  | int | real | bool | text => rfl
  | paren | neg | not =>
      rw [children, hone]
      rfl
  | binary =>
      rw [children, htwo]
      rfl

section Search

variable {offset : Int} {es es' : List Expr} {found? found?' : Option Expr}

theorem Finds.append (h : Finds offset es found?) (h' : Finds offset es' found?')
    (hapart : Apart offset es es') : Finds offset (es ++ es') (found?'.or found?) := by
  cases found?' with
  | some found =>
      refine ⟨List.mem_append_right es h'.mem, h'.contains, h'.parts, fun e he hcontains => ?_⟩
      rcases List.mem_append.mp he with he | he
      · have hnot := hapart e he found h'.mem hcontains
        rw [h'.contains] at hnot
        cases hnot
      · exact h'.around e he hcontains
  | none =>
      rw [Option.none_or]
      cases found? with
      | some found =>
          refine ⟨List.mem_append_left es' h.mem, h.contains, h.parts, fun e he hcontains => ?_⟩
          rcases List.mem_append.mp he with he | he
          · exact h.around e he hcontains
          · rw [h' e he] at hcontains
            cases hcontains
      | none => exact List.forall_mem_append.mpr ⟨h, h'⟩

-- A search through groups, the last one first.
theorem finds_findSome? {α : Type} {items : List α} {group : α → List Expr}
    {search : α → Option Expr} (hsearch : ∀ item ∈ items, Finds offset (group item) (search item))
    (hapart : items.Pairwise fun item item' => Apart offset (group item) (group item')) :
    Finds offset (items.flatMap group) (items.reverse.findSome? search) := by
  induction items with
  | nil => simp [Finds]
  | cons item items ih =>
      obtain ⟨hfirst, hrest⟩ := List.pairwise_cons.mp hapart
      rw [List.forall_mem_cons] at hsearch
      rw [List.flatMap_cons, List.reverse_cons, List.findSome?_append, List.findSome?_singleton]
      refine hsearch.1.append (ih hsearch.2 hrest) fun e he e' he' => ?_
      obtain ⟨item', hitem', he'⟩ := List.mem_flatMap.mp he'
      exact hfirst item' hitem' e he e' he'

theorem within_of_mem_nodes {e n : Expr} (h : ∀ m ∈ e.nodes, m.Encloses) (hn : n ∈ e.nodes) :
    n.span.Within e.span := by
  induction e using children_induction with
  | h e ih =>
      have hself := h e e.self_mem_nodes
      rw [nodes_eq, List.mem_cons] at hn
      rcases hn with rfl | hn
      · exact .rfl
      · obtain ⟨part, hpart, hn⟩ := List.mem_flatMap.mp hn
        have hparts : ∀ m ∈ part.nodes, m.Encloses := fun m hm => h m (nodes_subset hpart hm)
        exact (ih part hpart hparts hn).trans (hself.within part hpart)

theorem apart_of_before {e e' : Expr} {first second : Span} (h : ∀ m ∈ e.nodes, m.Encloses)
    (h' : ∀ m ∈ e'.nodes, m.Encloses) (hfirst : e.span.Within first)
    (hsecond : e'.span.Within second) (hbefore : first.Before second) :
    Apart offset e.nodes e'.nodes := by
  intro m hm n hn hcontains
  exact hbefore.disjoint ((within_of_mem_nodes h hm).trans hfirst)
    ((within_of_mem_nodes h' hn).trans hsecond) hcontains

-- A node at the offset is the innermost one unless one of its parts is there.
theorem Finds.node {e : Expr} (h : Finds offset (e.children.flatMap nodes) found?)
    (he : e.span.contains offset = true) : Finds offset e.nodes (found?.or (some e)) := by
  rw [nodes_eq]
  cases found? with
  | some found =>
      refine ⟨List.mem_cons_of_mem e h.mem, h.contains, h.parts, fun n hn hcontains => ?_⟩
      rcases List.mem_cons.mp hn with rfl | hn
      · rw [nodes_eq]
        exact List.mem_cons_of_mem n h.mem
      · exact h.around n hn hcontains
  | none =>
      refine ⟨List.mem_cons_self, he, h, fun n hn hcontains => ?_⟩
      rcases List.mem_cons.mp hn with rfl | hn
      · exact n.self_mem_nodes
      · rw [h n hn] at hcontains
        cases hcontains

-- In a nested expression the search for an offset comes to the innermost node there.
theorem finds_at? {e : Expr} (h : ∀ n ∈ e.nodes, n.Encloses) :
    Finds offset e.nodes (e.at? offset) := by
  induction e using children_induction with
  | h e ih =>
      have hself := h e e.self_mem_nodes
      have hnodes : ∀ part ∈ e.children, ∀ n ∈ part.nodes, n.Encloses :=
        fun part hpart n hn => h n (nodes_subset hpart hn)
      have hapart : e.children.Pairwise fun part part' =>
          Apart offset part.nodes part'.nodes := by
        refine hself.ordered.imp_of_mem fun hpart hpart' hbefore => ?_
        exact apart_of_before (hnodes _ hpart) (hnodes _ hpart') .rfl .rfl hbefore
      have hparts := finds_findSome? (fun part hpart => ih part hpart (hnodes part hpart)) hapart
      rw [at?_eq]
      by_cases hcontains : e.span.contains offset = true
      · rw [if_pos hcontains]
        exact hparts.node hcontains
      · rw [if_neg hcontains]
        intro n hn
        rw [← Bool.not_eq_true]
        exact fun hinner => hcontains ((within_of_mem_nodes h hn).contains hinner)

end Search

end Expr

namespace Program

open Tuga.Expr

variable {offset : Int}

theorem nodes_subset_expressions {p : Program} {stmt : Statement} (h : stmt ∈ p.statements) :
    stmt.value.nodes ⊆ p.expressions :=
  fun _ hn => List.mem_flatMap.mpr ⟨stmt, h, hn⟩

theorem Nested.finds_exprAt? {p : Program} (h : p.Nested) :
    Finds offset p.expressions (p.exprAt? offset) := by
  have hnodes : ∀ stmt ∈ p.statements, ∀ n ∈ stmt.value.nodes, n.Encloses :=
    fun stmt hstmt n hn => h.expressions n (nodes_subset_expressions hstmt hn)
  have hapart : p.statements.Pairwise fun stmt stmt' =>
      Apart offset stmt.value.nodes stmt'.value.nodes := by
    refine h.ordered.imp_of_mem fun hstmt hstmt' hbefore => ?_
    exact apart_of_before (hnodes _ hstmt) (hnodes _ hstmt') (h.values _ hstmt)
      (h.values _ hstmt') hbefore
  have hsearch : ∀ stmt ∈ p.statements, Finds offset stmt.value.nodes
      (if stmt.info.span.contains offset then stmt.value.at? offset else none) := by
    intro stmt hstmt
    by_cases hcontains : stmt.info.span.contains offset = true
    · rw [if_pos hcontains]
      exact finds_at? (hnodes stmt hstmt)
    · rw [if_neg hcontains]
      intro n hn
      rw [← Bool.not_eq_true]
      have hwithin := (within_of_mem_nodes (hnodes stmt hstmt) hn).trans (h.values stmt hstmt)
      exact fun hinner => hcontains (hwithin.contains hinner)
  rw [exprAt?]
  by_cases hcontains : p.info.span.contains offset = true
  · rw [if_pos hcontains]
    exact finds_findSome? hsearch hapart
  · rw [if_neg hcontains]
    intro n hn
    obtain ⟨stmt, hstmt, hn⟩ := List.mem_flatMap.mp hn
    rw [← Bool.not_eq_true]
    have hwithin := ((within_of_mem_nodes (hnodes stmt hstmt) hn).trans (h.values stmt hstmt)).trans
      (h.within stmt hstmt)
    exact fun hinner => hcontains (hwithin.contains hinner)

-- In the tree of every source, with errors or without, the search for an offset comes to nothing
-- exactly if no expression is there, and otherwise to the innermost one.
theorem exprAt?_parse_innermost (source : Text) (offset : Int) :
    let tree := (parse source).1
    (tree.exprAt? offset = none ↔ ∀ e ∈ tree.expressions, e.span.contains offset = false) ∧
      ∀ found, tree.exprAt? offset = some found → Innermost offset tree.expressions found := by
  intro tree
  have hfinds : Finds offset tree.expressions (tree.exprAt? offset) :=
    (nested_parse source).finds_exprAt?
  cases hfound : tree.exprAt? offset with
  | none =>
      rw [hfound] at hfinds
      exact ⟨⟨fun _ => hfinds, fun _ => rfl⟩, fun found h => nomatch h⟩
  | some found =>
      rw [hfound] at hfinds
      refine ⟨⟨fun h => absurd h (by simp), fun h => ?_⟩, fun _ h => Option.some.inj h ▸ hfinds⟩
      have hnot := h found hfinds.mem
      rw [hfinds.contains] at hnot
      cases hnot

example : ((parse "escreve 1 + ; escreve -(2);").1.exprAt? 25).map Expr.bare =
    some (.paren default (.int default 2)) := by
  decide +kernel

end Program

end Tuga
