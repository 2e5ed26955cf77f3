import Tuga.Text.CaseFolding

namespace Tuga

-- A value. A number is a decimal, `mantissa` divided by ten to the power of `places`, with the
-- places that were written.
inductive JsonValue where
  | null
  | boolean (value : Bool)
  | number (mantissa : Int) (places : Nat)
  | text (value : Text)
  | array (items : List JsonValue)
  | object (members : List (Text × JsonValue))
  deriving Repr, Inhabited

namespace JsonValue

def ofNat (n : Nat) : JsonValue := number n 0

-- A text as a value. Values hold well-formed texts only, so U+FFFD stands for ill-formed bytes.
def ofText (t : Text) : JsonValue := text (Text.ofCodes t.codes)

-- The member with a given name, matched without regard to case. The last of several counts, and
-- a missing member is null.
def member (name : Text) : JsonValue → JsonValue
  | object members =>
    ((members.reverse.find? fun m => Text.sameFolded m.1 name).map (·.2)).getD null
  | _ => null

def textD : JsonValue → Text
  | text t => t
  | _ => []

def natD : JsonValue → Nat
  | number n _ => n.toNat
  | _ => 0

def items : JsonValue → List JsonValue
  | array vs => vs
  | _ => []

def isNull : JsonValue → Bool
  | null => true
  | _ => false

end JsonValue

end Tuga
