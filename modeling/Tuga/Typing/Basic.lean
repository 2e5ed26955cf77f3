import Tuga.Tree.Basic

namespace Tuga

inductive ValueType where
  | integer
  | real
  | boolean
  | text
  deriving DecidableEq, Repr

namespace ValueType

def name : ValueType → Text
  | integer => "inteiro"
  | real => "real"
  | boolean => "booleano"
  | text => "string"

def isNumeric : ValueType → Bool
  | integer | real => true
  | boolean | text => false

-- The common type of two numeric operands: real as soon as one of them is.
def widen (a b : ValueType) : ValueType :=
  if a = real || b = real then real else integer

end ValueType

-- What a table says about a node: nothing, a type, that the node is ill-typed, or something that
-- is no type at all.
inductive NodeType where
  | missing
  | typed (type : ValueType)
  | error
  | invalid
  deriving DecidableEq, Repr, Inhabited

namespace NodeType

def name : NodeType → Text
  | missing => "<none>"
  | typed t => t.name
  | error => "erro"
  | invalid => "<invalid>"

def isNumeric : NodeType → Bool
  | typed t => t.isNumeric
  | _ => false

def all : List NodeType :=
  [missing, typed .integer, typed .real, typed .boolean, typed .text, error]

def ofOrdinal (n : Nat) : NodeType :=
  all.getD n invalid

def ofType? : Option ValueType → NodeType
  | some t => typed t
  | none => error

end NodeType

abbrev TypeMap := Array NodeType

namespace TypeMap

def blank (n : Nat) : TypeMap := Array.replicate n .missing

-- What the table says about a node; nothing for nodes beyond its end.
def of (types : TypeMap) (id : Nat) : NodeType := types.getD id .missing

def missing (types : TypeMap) (p : Program) : List Expr :=
  p.expressions.filter fun e => types.of e.id = .missing

end TypeMap

end Tuga
