import Tuga.Json.Basic

namespace Tuga.JsonValue

-- The written form of a byte of a text. Control characters, quotes and backslashes are escaped.
def escapeByte (b : UInt8) : Text :=
  if b = 34 || b = 92 then [92, b]
  else if b < 32 then ("\\u" : Text) ++ Text.hex 4 b.toNat
  else [b]

def renderText (t : Text) : Text := 34 :: t.flatMap escapeByte ++ [34]

def renderNumber (mantissa : Int) (places : Nat) : Text :=
  let digits := Text.ofNat mantissa.natAbs
  let digits := List.replicate (places + 1 - digits.length) 48 ++ digits
  let sign : Text := if mantissa < 0 then "-" else []
  let whole := digits.length - places
  sign ++ digits.take whole ++ if places = 0 then [] else 46 :: digits.drop whole

mutual

def render : JsonValue → Text
  | null => "null"
  | boolean true => "true"
  | boolean false => "false"
  | number mantissa places => renderNumber mantissa places
  | text t => renderText t
  | array items => 91 :: renderItems items ++ [93]
  | object members => 123 :: renderMembers members ++ [125]

def renderItems : List JsonValue → Text
  | [] => []
  | [v] => render v
  | v :: rest => render v ++ 44 :: renderItems rest

def renderMembers : List (Text × JsonValue) → Text
  | [] => []
  | [(name, v)] => renderText name ++ 58 :: render v
  | (name, v) :: rest => renderText name ++ 58 :: render v ++ 44 :: renderMembers rest

end

end Tuga.JsonValue
