import Tuga.Text.Utf8

namespace Tuga.Toml

abbrev Path := List Text

-- A value as it is written. Reals, dates and times are only checked for their form.
inductive Value where
  | text (value : Text)
  | integer (value : Int)
  | boolean (value : Bool)
  | scalar
  | array (items : List Value)
  | inline (entries : List (Path × Value))

inductive Item where
  | table (path : Path)
  | tableArray (path : Path)
  | entry (path : Path) (value : Value)

def isBareKey (code : Nat) : Bool :=
  (65 ≤ code && code ≤ 90) || (97 ≤ code && code ≤ 122) || (48 ≤ code && code ≤ 57) ||
    code = 95 || code = 45

-- A character of a quoted key: quotes, backslashes and control characters are escaped.
def escapeKey (code : Nat) : Text :=
  match code with
  | 34 => [92, 34]
  | 92 => [92, 92]
  | 8 => [92, 98]
  | 9 => [92, 116]
  | 10 => [92, 110]
  | 12 => [92, 102]
  | 13 => [92, 114]
  | _ =>
    if code < 32 || code = 127 then 92 :: 117 :: Text.hex 4 code else Character.encode code

def renderPart (part : Text) : Text :=
  if !part.isEmpty && part.codes.all isBareKey then part
  else (34 : UInt8) :: (part.codes.flatMap escapeKey ++ [34])

def renderPath (path : Path) : Text :=
  Text.join [46] (path.map renderPart)

end Tuga.Toml
