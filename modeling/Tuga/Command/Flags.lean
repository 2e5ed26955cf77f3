import Tuga.Text.Quoted

namespace Tuga.Flags

inductive Kind where
  | switch
  | text
  | number
  deriving DecidableEq, Repr

inductive Setting where
  | switch (on : Bool)
  | text (value : Text)
  | number (value : Int)
  deriving DecidableEq, Repr

inductive NumberError where
  | malformed
  | outOfRange
  deriving DecidableEq, Repr

def NumberError.message : NumberError → Text
  | malformed => "parse error"
  | outOfRange => "value out of range"

-- Why a command line is refused. Asking for help is one of the reasons.
inductive Error where
  | help
  | badFlag (argument : Text)
  | undefined (name : Text)
  | missingValue (name : Text)
  | badSwitch (value name : Text)
  | badValue (value name : Text) (cause : NumberError)
  deriving DecidableEq, Repr

-- The line that tells why a command line is refused. Help is given without one.
def Error.message? : Error → Option Text
  | help => none
  | badFlag argument => some (("bad flag syntax: " : Text) ++ argument)
  | undefined name => some (("flag provided but not defined: -" : Text) ++ name)
  | missingValue name => some (("flag needs an argument: -" : Text) ++ name)
  | badSwitch value name =>
    some (("invalid boolean value " : Text) ++ Text.quote value ++ (" for -" : Text) ++ name ++
      (": parse error" : Text))
  | badValue value name cause =>
    some (("invalid value " : Text) ++ Text.quote value ++ (" for flag -" : Text) ++ name ++
      (": " : Text) ++ cause.message)

def switch? (word : Text) : Option Bool :=
  if (["1", "t", "T", "TRUE", "true", "True"] : List Text).contains word then some true
  else if (["0", "f", "F", "FALSE", "false", "False"] : List Text).contains word then some false
  else none

def lower (b : UInt8) : UInt8 := if 65 ≤ b && b ≤ 90 then b + 32 else b

def digitValue? (b : UInt8) : Option Nat :=
  if Text.isDigitByte b then some (b.toNat - 48)
  else if 97 ≤ lower b && lower b ≤ 122 then some ((lower b).toNat - 87)
  else none

inductive Before where
  | start
  | digit
  | underscore
  | otherByte
  deriving DecidableEq, Repr

-- Every underscore stands between two digits. A base mark counts as a digit.
def underscoresOk (isHex : Bool) : Before → Text → Bool
  | before, [] => before ≠ .underscore
  | before, b :: rest =>
    if Text.isDigitByte b || (isHex && 97 ≤ lower b && lower b ≤ 102) then
      underscoresOk isHex .digit rest
    else if b = 95 then before = .digit && underscoresOk isHex .underscore rest
    else before ≠ .underscore && underscoresOk isHex .otherByte rest

-- The base of an unsigned number and its digits. A leading zero alone means base eight.
def splitBase (word : Text) : Nat × Text :=
  match word with
  | 48 :: mark :: digit :: rest =>
    if lower mark = 98 then (2, digit :: rest)
    else if lower mark = 111 then (8, digit :: rest)
    else if lower mark = 120 then (16, digit :: rest)
    else (8, mark :: digit :: rest)
  | 48 :: rest => (8, rest)
  | _ => (10, word)

def magnitudeLimit : Nat := 0x10000000000000000

-- The value of digits in a base, skipping underscores. Digits after an overflow are not looked at.
def magnitude (base : Nat) : Nat → Text → Except NumberError Nat
  | n, [] => .ok n
  | n, b :: rest =>
    if b = 95 then magnitude base n rest
    else
      match digitValue? b with
      | none => .error .malformed
      | some d =>
        if base ≤ d then .error .malformed
        else if magnitudeLimit ≤ n * base + d then .error .outOfRange
        else magnitude base (n * base + d) rest

def number (word : Text) : Except NumberError Int := do
  let negative := word.head? = some 45
  let unsigned := if negative || word.head? = some 43 then word.drop 1 else word
  if unsigned.isEmpty then throw .malformed
  let (base, digits) := splitBase unsigned
  let n ← magnitude base 0 digits
  let marked := base = 2 || base = 16 || (base = 8 && unsigned.length ≠ digits.length + 1)
  if unsigned.contains 95 &&
      !underscoresOk (base = 16) (if marked then .digit else .start)
        (if marked then digits else unsigned) then
    throw .malformed
  let value : Int := if negative then -(n : Int) else n
  if value < -0x8000000000000000 || 0x8000000000000000 ≤ value then throw .outOfRange
  return value

def setting (kind : Kind) (name value : Text) : Except Error Setting :=
  match kind with
  | .text => .ok (.text value)
  | .switch =>
    match switch? value with
    | some on => .ok (.switch on)
    | none => .error (.badSwitch value name)
  | .number =>
    match number value with
    | .ok n => .ok (.number n)
    | .error cause => .error (.badValue value name cause)

-- A name and the value after its first `=`, if there is one. The name has at least one byte.
def splitValue (word : Text) : Text × Option Text :=
  let name := word.take 1 ++ (word.drop 1).takeWhile (· ≠ 61)
  let rest := word.drop name.length
  (name, if rest.isEmpty then none else some (rest.drop 1))

-- The settings on a command line, in order, and the arguments after them. A flag starts with one or
-- two dashes; its value follows after `=` or, for flags that are not switches, as the next
-- argument. Flags end at the first argument that is none, at a single dash, or after a double dash.
def parse (kinds : List (Text × Kind)) :
    List Text → Except Error (List (Text × Setting) × List Text)
  | [] => .ok ([], [])
  | argument :: rest =>
    if argument.length < 2 || argument.head? ≠ some 45 then .ok ([], argument :: rest)
    else if argument = [45, 45] then .ok ([], rest)
    else
      let word := argument.drop (if argument.drop 1 |>.head? |>.any (· = 45) then 2 else 1)
      if word.head?.any fun b => b = 45 || b = 61 then .error (.badFlag argument)
      else
        let (name, value) := splitValue word
        match kinds.lookup name, value, rest with
        | none, _, _ =>
          if name = ("help" : Text) || name = ("h" : Text) then .error .help
          else .error (.undefined name)
        | some kind, some value, rest => do
          let first ← setting kind name value
          let (settings, arguments) ← parse kinds rest
          return ((name, first) :: settings, arguments)
        | some .switch, none, rest => do
          let (settings, arguments) ← parse kinds rest
          return ((name, .switch true) :: settings, arguments)
        | some kind, none, value :: rest => do
          let first ← setting kind name value
          let (settings, arguments) ← parse kinds rest
          return ((name, first) :: settings, arguments)
        | some _, none, [] => .error (.missingValue name)

end Tuga.Flags
