import Tuga.Real.Format

namespace Tuga

inductive Kind where
  | integer
  | real
  | boolean
  | text
  deriving DecidableEq, Repr

def Kind.name : Kind → Text
  | integer => "inteiro"
  | real => "real"
  | boolean => "booleano"
  | text => "string"

-- The kinds in the order of their numbers, which start at one.
def Kind.all : List Kind := [.integer, .real, .boolean, .text]

-- A value. Integers have 32 bits and wrap around.
inductive Value where
  | int (value : Int32)
  | real (value : Real64)
  | bool (value : Bool)
  | text (value : Text)
  deriving DecidableEq, Repr

namespace Value

def kind : Value → Kind
  | int _ => .integer
  | real _ => .real
  | bool _ => .boolean
  | text _ => .text

def int? : Value → Option Int32
  | int v => some v
  | _ => none

def real? : Value → Option Real64
  | real v => some v
  | _ => none

def bool? : Value → Option Bool
  | bool v => some v
  | _ => none

def text? : Value → Option Text
  | text v => some v
  | _ => none

end Value

def Text.ofBool : Bool → Text
  | true => "verdadeiro"
  | false => "falso"

def Value.render : Value → Text
  | int v => Text.ofInt v.toInt
  | real v => v.format
  | bool v => Text.ofBool v
  | text v => v

end Tuga
