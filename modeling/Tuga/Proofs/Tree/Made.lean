import Tuga.Tree.Builder

namespace Tuga

namespace TreeBuilder

-- The builders that can come about, with the expressions and statements made so far. Every part
-- of a node has been made before it.
inductive Made : TreeBuilder → List Expr → List Statement → Prop
  | start : Made {} [] []
  | int {b es ss} (h : Made b es ss) (span : Span) (value : Int) :
      Made (b.node span (Expr.int · value)).2 ((b.node span (Expr.int · value)).1 :: es) ss
  | real {b es ss} (h : Made b es ss) (span : Span) (value : Real64) :
      Made (b.node span (Expr.real · value)).2 ((b.node span (Expr.real · value)).1 :: es) ss
  | bool {b es ss} (h : Made b es ss) (span : Span) (value : Bool) :
      Made (b.node span (Expr.bool · value)).2 ((b.node span (Expr.bool · value)).1 :: es) ss
  | text {b es ss} (h : Made b es ss) (span : Span) (quoted : Text) :
      Made (b.node span (Expr.text · quoted)).2 ((b.node span (Expr.text · quoted)).1 :: es) ss
  | paren {b es ss} (h : Made b es ss) (span : Span) {inner : Expr} (hinner : inner ∈ es) :
      Made (b.node span (Expr.paren · inner)).2 ((b.node span (Expr.paren · inner)).1 :: es) ss
  | neg {b es ss} (h : Made b es ss) (span : Span) {operand : Expr} (hoperand : operand ∈ es) :
      Made (b.node span (Expr.neg · operand)).2 ((b.node span (Expr.neg · operand)).1 :: es) ss
  | not {b es ss} (h : Made b es ss) (span : Span) {operand : Expr} (hoperand : operand ∈ es) :
      Made (b.node span (Expr.not · operand)).2 ((b.node span (Expr.not · operand)).1 :: es) ss
  | binary {b es ss} (h : Made b es ss) {op : Operator} {left right e : Expr} {b' : TreeBuilder}
      (hleft : left ∈ es) (hright : right ∈ es) (he : b.binary op left right = .ok (e, b')) :
      Made b' (e :: es) ss
  | statement {b es ss} (h : Made b es ss) (span : Span) {value : Expr} (hvalue : value ∈ es) :
      Made (b.node span (Statement.mk · value)).2 es
        ((b.node span (Statement.mk · value)).1 :: ss)
  -- a number handed out for a node that was refused, or for another root
  | spent {b es ss} (h : Made b es ss) (span : Span) : Made (b.next span).2 es ss

end TreeBuilder

-- A program made with a builder, its root last.
def Program.Built (p : Program) : Prop :=
  ∃ (b : TreeBuilder) (es : List Expr) (ss : List Statement) (span : Span)
    (statements : List Statement), b.Made es ss ∧ (∀ s ∈ statements, s ∈ ss) ∧
      (b.program span statements).1 = p

namespace Expr

-- The level of a binary node is the one its operator has.
def Leveled : Expr → Prop
  | binary _ level op _ _ => op.level? = some level
  | _ => True

theorem nodes_eq (e : Expr) : e.nodes = e :: e.children.flatMap nodes := by
  cases e <;> simp [nodes, children]

theorem self_mem_nodes (e : Expr) : e ∈ e.nodes := by
  rw [nodes_eq]
  exact List.mem_cons_self

-- A set of expressions that has all parts of its members, numbered below `count` without
-- giving a number twice.
structure Numbered (count : Nat) (es : List Expr) : Prop where
  nodes : ∀ e ∈ es, ∀ n ∈ e.nodes, n ∈ es
  lt : ∀ e ∈ es, e.id < count
  unique : ∀ e ∈ es, ∀ n ∈ es, e.id = n.id → e = n
  leveled : ∀ e ∈ es, e.Leveled

namespace Numbered

theorem mono {count count' : Nat} {es : List Expr} (h : Numbered count es)
    (hle : count ≤ count') : Numbered count' es :=
  ⟨h.nodes, fun e he => Nat.lt_of_lt_of_le (h.lt e he) hle, h.unique, h.leveled⟩

-- A node with the next number and parts that have been made keeps the numbering.
theorem cons {count : Nat} {es : List Expr} (h : Numbered count es) {e : Expr}
    (hid : e.id = count) (hparts : ∀ part ∈ e.children, part ∈ es) (hlevel : e.Leveled) :
    Numbered (count + 1) (e :: es) where
  nodes := by
    intro f hf n hn
    rcases List.mem_cons.mp hf with rfl | hf
    · rw [nodes_eq] at hn
      rcases List.mem_cons.mp hn with rfl | hn
      · exact List.mem_cons_self
      · obtain ⟨part, hpart, hn⟩ := List.mem_flatMap.mp hn
        exact List.mem_cons_of_mem _ (h.nodes part (hparts part hpart) n hn)
    · exact List.mem_cons_of_mem _ (h.nodes f hf n hn)
  lt := by
    intro f hf
    rcases List.mem_cons.mp hf with rfl | hf
    · omega
    · have hlt := h.lt f hf
      omega
  unique := by
    intro f hf n hn heq
    rcases List.mem_cons.mp hf with rfl | hold
    · rcases List.mem_cons.mp hn with rfl | hold
      · rfl
      · have hlt := h.lt n hold
        omega
    · rcases List.mem_cons.mp hn with rfl | hold'
      · have hlt := h.lt f hold
        omega
      · exact h.unique f hold n hold' heq
  leveled := List.forall_mem_cons.mpr ⟨hlevel, h.leveled⟩

end Numbered

end Expr

theorem TreeBuilder.Made.numbered {b : TreeBuilder} {es : List Expr} {ss : List Statement}
    (h : b.Made es ss) : Expr.Numbered b.count es ∧ ∀ s ∈ ss, s.value ∈ es := by
  induction h with
  | start => exact ⟨⟨by simp, by simp, by simp, by simp⟩, by simp⟩
  | int _ span value ih | real _ span value ih | bool _ span value ih | text _ span value ih =>
      refine ⟨ih.1.cons rfl (by simp [node, Expr.children]) trivial, ?_⟩
      exact fun s hs => List.mem_cons_of_mem _ (ih.2 s hs)
  | paren _ span hpart ih | neg _ span hpart ih | not _ span hpart ih =>
      refine ⟨ih.1.cons rfl (by simpa [node, Expr.children] using hpart) trivial, ?_⟩
      exact fun s hs => List.mem_cons_of_mem _ (ih.2 s hs)
  | @binary b es ss op left right e b' _ hleft hright he ih =>
      rw [TreeBuilder.binary] at he
      split at he
      · rename_i level hlevel
        cases he
        refine ⟨ih.1.cons rfl (by simp [Expr.children, hleft, hright]) hlevel, ?_⟩
        exact fun s hs => List.mem_cons_of_mem _ (ih.2 s hs)
      · cases he
  | statement _ span hvalue ih =>
      exact ⟨ih.1.mono (Nat.le_succ _), List.forall_mem_cons.mpr ⟨hvalue, ih.2⟩⟩
  | spent _ span ih => exact ⟨ih.1.mono (Nat.le_succ _), ih.2⟩

theorem Program.Built.exists_numbered {p : Program} (h : p.Built) :
    ∃ es, Expr.Numbered p.nodeCount es ∧ ∀ s ∈ p.statements, s.value ∈ es := by
  obtain ⟨b, es, ss, span, statements, hmade, hstatements, rfl⟩ := h
  obtain ⟨hnumbered, hvalues⟩ := hmade.numbered
  exact ⟨es, hnumbered.mono (Nat.le_succ _), fun s hs => hvalues s (hstatements s hs)⟩

end Tuga
