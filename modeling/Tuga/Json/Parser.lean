import Tuga.Json.Basic
import Tuga.Text.Utf16

namespace Tuga.JsonValue

def skipSpace (text : Text) : Text :=
  text.dropWhile fun b => b = 32 || b = 9 || b = 10 || b = 13

def after? (word text : Text) : Option Text :=
  if word.isPrefixOf text then some (text.drop word.length) else none

def hexDigit? (b : UInt8) : Option Nat :=
  if Text.isDigitByte b then some (b.toNat - 48)
  else if 97 ≤ b && b ≤ 102 then some (b.toNat - 87)
  else if 65 ≤ b && b ≤ 70 then some (b.toNat - 55)
  else none

def hexQuad? : Text → Option (Nat × Text)
  | a :: b :: c :: d :: rest => do
    let n := ((← hexDigit? a) * 16 + (← hexDigit? b)) * 256 + (← hexDigit? c) * 16 + (← hexDigit? d)
    return (n, rest)
  | _ => none

def escaped? (b : UInt8) : Option UInt8 :=
  if b = 34 || b = 92 || b = 47 then some b
  else if b = 98 then some 8
  else if b = 102 then some 12
  else if b = 110 then some 10
  else if b = 114 then some 13
  else if b = 116 then some 9
  else none

-- The code units of a quoted text, each as the bytes or the code unit that was written, up to the
-- closing quote. `limit` bounds the number of steps.
def quotedUnits : Nat → Text → Option (List UInt16 × Text)
  | 0, _ => none
  | limit + 1, input =>
    match input with
    | 34 :: rest => some ([], rest)
    | 92 :: 117 :: rest => do
      let (n, rest) ← hexQuad? rest
      let (units, rest) ← quotedUnits limit rest
      return (UInt16.ofNat n :: units, rest)
    | 92 :: b :: rest => do
      let c ← escaped? b
      let (units, rest) ← quotedUnits limit rest
      return (UInt16.ofNat c.toNat :: units, rest)
    | b :: rest =>
      if b < 32 then none
      else do
        let c := Character.leading b rest
        let (units, rest) ← quotedUnits limit (input.drop c.bytes.length)
        return (Text.unitsOf c.code ++ units, rest)
    | [] => none

-- A quoted text. Surrogates without a partner stand for U+FFFD.
def readText? (text : Text) : Option (Text × Text) :=
  match text with
  | 34 :: rest => (quotedUnits text.length rest).map fun (units, rest) => (Text.ofUtf16 units, rest)
  | _ => none

def digits? (text : Text) : Option (Text × Text) :=
  let digits := text.takeWhile Text.isDigitByte
  if digits.isEmpty then none else some (digits, text.drop digits.length)

def exponent? (text : Text) : Option (Option Int × Text) :=
  match text with
  | b :: rest =>
    if b = 101 || b = 69 then
      let (sign, rest) : Int × Text :=
        match rest with
        | 45 :: more => (-1, more)
        | 43 :: more => (1, more)
        | _ => (1, rest)
      (digits? rest).map fun (digits, rest) => (some (sign * Text.toNat digits), rest)
    else some (none, text)
  | [] => some (none, [])

-- A number. A number with an exponent has at least one place, so that it is not taken for one that
-- was written as a whole number.
def readNumber? (text : Text) : Option (JsonValue × Text) := do
  let (sign, text) : Int × Text :=
    match text with
    | 45 :: rest => (-1, rest)
    | _ => (1, text)
  let (whole, text) ← digits? text
  if 1 < whole.length && whole.head? = some 48 then failure
  let (fraction, text) ←
    match text with
    | 46 :: rest => digits? rest
    | _ => some ([], text)
  let (exponent, text) ← exponent? text
  let mantissa := sign * Text.toNat (whole ++ fraction)
  match exponent with
  | none => return (number mantissa fraction.length, text)
  | some e =>
    let places := (fraction.length : Int) - e
    if 1 ≤ places then return (number mantissa places.toNat, text)
    else return (number (mantissa * Nat.pow 10 (1 - places).toNat) 1, text)

mutual

def read : Nat → Text → Option (JsonValue × Text)
  | 0, _ => none
  | limit + 1, input =>
    match skipSpace input with
    | 123 :: rest =>
      match skipSpace rest with
      | 125 :: rest => some (object [], rest)
      | rest => (readMembers limit rest).map fun (members, rest) => (object members, rest)
    | 91 :: rest =>
      match skipSpace rest with
      | 93 :: rest => some (array [], rest)
      | rest => (readItems limit rest).map fun (items, rest) => (array items, rest)
    | 34 :: rest => (readText? (34 :: rest)).map fun (t, rest) => (JsonValue.text t, rest)
    | word =>
      ((after? "null" word).map fun rest => (null, rest)).or
        (((after? "true" word).map fun rest => (boolean true, rest)).or
          (((after? "false" word).map fun rest => (boolean false, rest)).or (readNumber? word)))

def readItems : Nat → Text → Option (List JsonValue × Text)
  | 0, _ => none
  | limit + 1, input => do
    let (v, rest) ← read limit input
    match skipSpace rest with
    | 44 :: rest =>
      let (items, rest) ← readItems limit rest
      return (v :: items, rest)
    | 93 :: rest => return ([v], rest)
    | _ => none

def readMembers : Nat → Text → Option (List (Text × JsonValue) × Text)
  | 0, _ => none
  | limit + 1, input => do
    let (name, rest) ← readText? (skipSpace input)
    match skipSpace rest with
    | 58 :: rest =>
      let (v, rest) ← read limit rest
      match skipSpace rest with
      | 44 :: rest =>
        let (members, rest) ← readMembers limit rest
        return ((name, v) :: members, rest)
      | 125 :: rest => return ([(name, v)], rest)
      | _ => none
    | _ => none

end

-- The value that a text writes. Every step reads at least one byte or is the first on its level.
def parse? (text : Text) : Option JsonValue := do
  let (v, rest) ← read (2 * text.length + 2) text
  if (skipSpace rest).isEmpty then return v else none

end Tuga.JsonValue
