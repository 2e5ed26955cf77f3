import Tuga.Tree.Basic

namespace Tuga

structure TreeBuilder where
  count : Nat := 0
  deriving Repr

namespace TreeBuilder

-- The common part of the next node. Each node takes the next number, so numbers are dense.
def next (b : TreeBuilder) (span : Span) : NodeInfo × TreeBuilder :=
  (⟨b.count, span⟩, ⟨b.count + 1⟩)

-- A binary node for an operator; it spans both operands. An operator without a level is refused.
def binary (b : TreeBuilder) (op : Operator) (left right : Expr) :
    Except Text (Expr × TreeBuilder) :=
  match op.level? with
  | some level =>
    let (info, b) := b.next ⟨left.span.start, right.span.stop⟩
    .ok (.binary info level op left right, b)
  | none => .error (("compiler: Binary called with unary operator " : Text) ++ op.text)

def node {α : Type} (b : TreeBuilder) (span : Span) (make : NodeInfo → α) : α × TreeBuilder :=
  let (info, b) := b.next span
  (make info, b)

def program (b : TreeBuilder) (span : Span) (statements : List Statement) :
    Program × TreeBuilder :=
  let (info, b) := b.next span
  (⟨info, statements, b.count⟩, b)

end TreeBuilder

end Tuga
