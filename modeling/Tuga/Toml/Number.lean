import Tuga.Real.Rounding
import Tuga.Toml.Basic

namespace Tuga.Toml

abbrev Codes := List Nat

def isDigit (code : Nat) : Bool := 48 ≤ code && code ≤ 57

def isHexDigit (code : Nat) : Bool :=
  isDigit code || (97 ≤ code && code ≤ 102) || (65 ≤ code && code ≤ 70)

def hexValue (code : Nat) : Nat :=
  if isDigit code then code - 48 else if 97 ≤ code then code - 87 else code - 55

def digitsValue (base : Nat) (digits : Codes) : Nat :=
  digits.foldl (fun n d => n * base + hexValue d) 0

-- Every underscore follows a digit, and the last character is a digit.
def underscoresOk (after : Bool) : Codes → Bool
  | [] => after
  | c :: rest => (c ≠ 95 || after) && underscoresOk (isHexDigit c) rest

-- Whether a number has a zero in front of its first digit. A base mark may follow the zero.
def hasLeadingZero : Codes → Bool
  | 48 :: next :: _ => next ≠ 98 && next ≠ 111 && next ≠ 120
  | sign :: 48 :: _ :: _ => sign = 43 || sign = 45
  | _ => false

def splitSign : Codes → Bool × Codes
  | 43 :: rest => (false, rest)
  | 45 :: rest => (true, rest)
  | codes => (false, codes)

def splitBase : Codes → Nat × Codes
  | 48 :: 98 :: digits => (2, digits)
  | 48 :: 111 :: digits => (8, digits)
  | 48 :: 120 :: digits => (16, digits)
  | digits => (10, digits)

def integer? (token : Codes) : Option Value :=
  let (negative, rest) := splitSign token
  let (base, digits) := splitBase rest
  let magnitude : Int := digitsValue base (digits.filter (· ≠ 95))
  let value := if negative then -magnitude else magnitude
  if !underscoresOk false token || hasLeadingZero token || value < -0x8000000000000000 ||
      0x8000000000000000 ≤ value then
    none
  else some (.integer value)

def cut (p : Nat → Bool) (codes : Codes) : Codes × Codes :=
  (codes.takeWhile fun c => !p c, codes.dropWhile fun c => !p c)

def isDigits (codes : Codes) : Bool := !codes.isEmpty && codes.all isDigit

-- Whether a real in decimal notation is within range. Powers of ten far out need no rounding.
def realInRange (whole fraction : Codes) (exponent : Int) : Bool :=
  let significant := (whole ++ fraction).dropWhile (· = 48)
  let shift := exponent - fraction.length
  let power := shift + significant.length
  if significant.isEmpty || power < -400 then true
  else if 400 < power then false
  else Real64.ofDecimal (digitsValue 10 significant) shift ≠ Real64.infinity false

def real? (token : Codes) : Option Value :=
  let isMark (c : Nat) : Bool := c = 46 || c = 101 || c = 69
  let (first, rest) := cut isMark token
  let (middle, last) := cut (fun c => c = 101 || c = 69) (if rest.head? = some 46 then rest.drop 1
    else rest)
  let hasPoint := rest.head? = some 46
  let plain (codes : Codes) : Codes := codes.filter (· ≠ 95)
  let (_, whole) := splitSign (plain first)
  let fraction := if hasPoint then plain middle else []
  let (negative, exponent) := splitSign (plain (last.drop 1))
  let parts := [first] ++ (if hasPoint then [middle] else []) ++
    (if last.isEmpty then [] else [last.drop 1])
  let power : Int := digitsValue 10 exponent
  if parts.all (underscoresOk false) && !hasLeadingZero first && isDigits whole &&
      (!hasPoint || isDigits fraction) && (last.isEmpty || isDigits exponent) &&
      (hasPoint || middle.isEmpty) &&
      realInRange whole fraction (if negative then -power else power) then some .scalar
  else none

def two? (a b : Nat) : Option Nat :=
  if isDigit a && isDigit b then some ((a - 48) * 10 + (b - 48)) else none

def daysIn (year month : Nat) : Nat :=
  match month with
  | 2 => if year % 4 = 0 && (year % 100 ≠ 0 || year % 400 = 0) then 29 else 28
  | 4 | 6 | 9 | 11 => 30
  | _ => 31

def date? : Codes → Option Codes
  | a :: b :: c :: d :: 45 :: e :: f :: 45 :: g :: h :: rest => do
    let year := (← two? a b) * 100 + (← two? c d)
    let month ← two? e f
    let day ← two? g h
    if 1 ≤ month && month ≤ 12 && 1 ≤ day && day ≤ daysIn year month then some rest else none
  | _ => none

def dropFraction : Codes → Codes
  | 46 :: d :: rest => if isDigit d then rest.dropWhile isDigit else 46 :: d :: rest
  | codes => codes

def time? : Codes → Option Codes
  | a :: b :: 58 :: c :: d :: rest => do
    let hour ← two? a b
    let minute ← two? c d
    if 24 ≤ hour || 60 ≤ minute then none
    else
      match rest with
      | 58 :: e :: f :: rest => do
        let second ← two? e f
        if 60 ≤ second then none else some (dropFraction rest)
      | _ => some rest
  | _ => none

def isZone : Codes → Bool
  | [90] => true
  | [sign, a, b, 58, c, d] =>
    (sign = 43 || sign = 45) &&
      match two? a b, two? c d with
      | some hour, some minute => hour ≤ 24 && minute ≤ 60
      | _, _ => false
  | _ => false

-- A date, a time, or both, with an optional zone after both. Small letters and a blank may stand
-- for the marks between the parts.
def datetime? (token : Codes) : Option Value :=
  let codes := token.map fun c => if c = 122 then 90 else if c = 116 || c = 32 then 84 else c
  let isTime := time? codes = some []
  let isDate :=
    match date? codes with
    | some [] => true
    | some (84 :: rest) =>
      match time? rest with
      | some [] => true
      | some zone => isZone zone
      | none => false
    | _ => false
  if isTime || isDate then some .scalar else none

def trimBlanks (codes : Codes) : Codes :=
  ((codes.dropWhile (· = 32)).reverse.dropWhile (· = 32)).reverse

def token? (start : Codes) (p : Nat → Bool) (check : Codes → Option Value) (rest : Codes) :
    Option (Value × Codes) := do
  let value ← check (start ++ rest.takeWhile p)
  return (value, rest.dropWhile p)

def isRealPart (c : Nat) : Bool :=
  isDigit c || c = 95 || c = 46 || c = 45 || c = 43 || c = 101 || c = 69

def isDatetimePart (c : Nat) : Bool :=
  isDigit c || c = 45 || c = 58 || c = 84 || c = 116 || c = 32 || c = 46 || c = 90 || c = 122 ||
    c = 43

-- A decimal number after the characters `start`: a real as soon as a point or an exponent follows.
def decimal? (start rest : Codes) : Option (Value × Codes) :=
  let isPart (c : Nat) : Bool := isDigit c || c = 95
  let start := start ++ rest.takeWhile isPart
  let rest := rest.dropWhile isPart
  match rest with
  | 46 :: _ | 101 :: _ | 69 :: _ => token? start isRealPart real? rest
  | _ => (integer? start).map fun v => (v, rest)

def numberOrDate? (start rest : Codes) : Option (Value × Codes) :=
  let start := start ++ rest.takeWhile isDigit
  let rest := rest.dropWhile isDigit
  match rest with
  | 45 :: _ | 58 :: _ =>
    token? start isDatetimePart (fun token => datetime? (trimBlanks token)) rest
  | _ => decimal? start rest

-- A number in a base other than ten, after its mark. At least one digit follows the mark.
def based? (start : Codes) (p : Nat → Bool) (rest : Codes) : Option (Value × Codes) :=
  if rest.head?.any p then token? start (fun c => p c || c = 95) integer? rest else none

def number? (codes : Codes) : Option (Value × Codes) :=
  match codes with
  | 48 :: 98 :: rest => based? [48, 98] (fun c => c = 48 || c = 49) rest
  | 48 :: 111 :: rest => based? [48, 111] (fun c => 48 ≤ c && c ≤ 55) rest
  | 48 :: 120 :: rest => based? [48, 120] isHexDigit rest
  | 48 :: rest => if rest.head?.any isDigit then numberOrDate? [48] rest else decimal? [48] rest
  | 43 :: 105 :: 110 :: 102 :: rest => some (.scalar, rest)
  | 45 :: 105 :: 110 :: 102 :: rest => some (.scalar, rest)
  | 43 :: 110 :: 97 :: 110 :: rest => some (.scalar, rest)
  | 45 :: 110 :: 97 :: 110 :: rest => some (.scalar, rest)
  | sign :: digit :: rest =>
    if sign = 43 || sign = 45 then
      if !isDigit digit then none
      else if digit = 48 && rest.head?.any (fun c => c = 98 || c = 111 || c = 120) then none
      else decimal? [sign] (digit :: rest)
    else numberOrDate? [] codes
  | _ => numberOrDate? [] codes

end Tuga.Toml
