import Tuga.Text.Printable
import Tuga.Text.Utf8

namespace Tuga.Text

def controlLetter? (code : Nat) : Option UInt8 :=
  match code with
  | 7 => some 97
  | 8 => some 98
  | 9 => some 116
  | 10 => some 110
  | 11 => some 118
  | 12 => some 102
  | 13 => some 114
  | _ => none

def escapeCode (mark code : Nat) : Text :=
  if code = mark || code = 92 then 92 :: Character.encode code
  else if isPrintable code then Character.encode code
  else
    match controlLetter? code with
    | some letter => [92, letter]
    | none =>
      if code < 0x80 then 92 :: 120 :: hex 2 code
      else if code < 0x10000 then 92 :: 117 :: hex 4 code
      else 92 :: 85 :: hex 8 code

-- A character as it stands between double quotes. An ill-formed byte shows as itself.
def escapeCharacter (c : Character) : Text :=
  if c.isWellFormed then escapeCode 34 c.code
  else c.bytes.flatMap fun b => 92 :: 120 :: hex 2 b.toNat

-- A text between double quotes. Printable characters stand for themselves; a quote, a backslash and
-- every other character is written as an escape.
def quote (text : Text) : Text :=
  34 :: (text.characters.flatMap escapeCharacter ++ [34])

def quoteCode (code : Nat) : Text :=
  39 :: (escapeCode 39 code ++ [39])

end Tuga.Text
