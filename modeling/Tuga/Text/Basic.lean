namespace Tuga

-- A byte string. Sources, bytecode files and messages may hold any bytes, so nothing here
-- assumes UTF-8.
abbrev Text := List UInt8

namespace Text

def ofString (s : String) : Text :=
  s.toList.flatMap String.utf8EncodeChar

instance : Coe String Text := ⟨ofString⟩

def digit (n : Nat) : UInt8 :=
  if n < 10 then UInt8.ofNat (48 + n) else UInt8.ofNat (87 + n)

def ofNat (n : Nat) : Text :=
  if n < 10 then [digit n] else ofNat (n / 10) ++ [digit (n % 10)]
  termination_by n

def ofInt : Int → Text
  | .ofNat n => ofNat n
  | .negSucc n => 45 :: ofNat (n + 1)

-- The last `width` hexadecimal digits of a number, in lower case.
def hex (width n : Nat) : Text :=
  (List.range width).map fun i => digit (n / Nat.pow 16 (width - 1 - i) % 16)

def join (separator : Text) (parts : List Text) : Text :=
  separator.intercalate parts

def contains (part : Text) : Text → Bool
  | [] => part.isEmpty
  | text@(_ :: rest) => part.isPrefixOf text || contains part rest

def trim (drop : UInt8 → Bool) (text : Text) : Text :=
  ((text.dropWhile drop).reverse.dropWhile drop).reverse

-- Bytes compared from the left, a shorter text before its extensions.
def lt : Text → Text → Bool
  | _, [] => false
  | [], _ :: _ => true
  | a :: s, b :: t => a < b || (a == b && lt s t)

def isDigitByte (b : UInt8) : Bool :=
  48 ≤ b && b ≤ 57

def toNat (digits : Text) : Nat :=
  digits.foldl (fun n b => n * 10 + (b.toNat - 48)) 0

-- All code points from `first` to `last`, both included.
structure CodeRange where
  first : Nat
  last : Nat

def CodeRange.contains (range : CodeRange) (code : Nat) : Bool :=
  range.first ≤ code && code ≤ range.last

end Text

end Tuga
