import Tuga.Real.Basic
import Tuga.Tree.Operator

namespace Tuga

structure NodeInfo where
  id : Nat
  span : Span
  deriving DecidableEq, Repr, Inhabited

-- Expressions. A text keeps the quotes it was written with. The level of a binary node says which
-- rules apply to it, its operator which operation it performs.
inductive Expr where
  | int (info : NodeInfo) (value : Int)
  | real (info : NodeInfo) (value : Real64)
  | bool (info : NodeInfo) (value : Bool)
  | text (info : NodeInfo) (quoted : Text)
  | paren (info : NodeInfo) (inner : Expr)
  | neg (info : NodeInfo) (operand : Expr)
  | not (info : NodeInfo) (operand : Expr)
  | binary (info : NodeInfo) (level : Level) (op : Operator) (left right : Expr)
  deriving DecidableEq, Repr

namespace Expr

def info : Expr → NodeInfo
  | int info _ => info
  | real info _ => info
  | bool info _ => info
  | text info _ => info
  | paren info _ => info
  | neg info _ => info
  | not info _ => info
  | binary info _ _ _ _ => info

def id (e : Expr) : Nat := e.info.id

def span (e : Expr) : Span := e.info.span

def children : Expr → List Expr
  | paren _ inner => [inner]
  | neg _ operand => [operand]
  | not _ operand => [operand]
  | binary _ _ _ left right => [left, right]
  | _ => []

def nodes : Expr → List Expr
  | e@(paren _ inner) => e :: nodes inner
  | e@(neg _ operand) => e :: nodes operand
  | e@(not _ operand) => e :: nodes operand
  | e@(binary _ _ _ left right) => e :: (nodes left ++ nodes right)
  | e => [e]

def kindName : Expr → Text
  | int _ _ => "IntLiteral"
  | real _ _ => "RealLiteral"
  | bool _ _ => "BoolLiteral"
  | text _ _ => "StringLiteral"
  | paren _ _ => "ParenExpr"
  | neg _ _ => "NegExpr"
  | not _ _ => "NotExpr"
  | binary _ .multiplicative _ _ _ => "MulExpr"
  | binary _ .additive _ _ _ => "AddExpr"
  | binary _ .relational _ _ _ => "RelExpr"
  | binary _ .equality _ _ _ => "EqExpr"
  | binary _ .conjunction _ _ _ => "AndExpr"
  | binary _ .disjunction _ _ _ => "OrExpr"

-- The innermost part of an expression at a byte offset. Parts are tried from the right, because
-- of two parts at one offset the later one counts.
def at? (offset : Int) : Expr → Option Expr
  | e@(paren info inner) =>
    if info.span.contains offset then (at? offset inner).or (some e) else none
  | e@(neg info operand) =>
    if info.span.contains offset then (at? offset operand).or (some e) else none
  | e@(not info operand) =>
    if info.span.contains offset then (at? offset operand).or (some e) else none
  | e@(binary info _ _ left right) =>
    if info.span.contains offset then ((at? offset right).or (at? offset left)).or (some e)
    else none
  | e => if e.info.span.contains offset then some e else none

-- The same node with another operator. Nodes without a choice of operator stay as they are.
def withOperator (op : Operator) : Expr → Expr
  | e@(binary _ .conjunction _ _ _) => e
  | e@(binary _ .disjunction _ _ _) => e
  | binary info level _ left right => binary info level op left right
  | e => e

end Expr

structure Statement where
  info : NodeInfo
  value : Expr
  deriving DecidableEq, Repr

-- A whole program. `nodeCount` is above the number of every node in it.
structure Program where
  info : NodeInfo
  statements : List Statement
  nodeCount : Nat
  deriving DecidableEq, Repr

namespace Program

def expressions (p : Program) : List Expr :=
  p.statements.flatMap fun s => s.value.nodes

def exprAt? (p : Program) (offset : Int) : Option Expr :=
  if p.info.span.contains offset then
    p.statements.reverse.findSome? fun s =>
      if s.info.span.contains offset then s.value.at? offset else none
  else none

end Program

end Tuga
