import Tuga.Text.Basic

namespace Tuga

-- A code point together with the bytes it was read from. A byte that starts no well-formed sequence
-- is read as the replacement character alone.
structure Character where
  code : Nat
  bytes : Text
  deriving DecidableEq, Repr

namespace Character

def replacement : Nat := 0xFFFD

def isContinuation (b : UInt8) : Bool :=
  0x80 ≤ b && b ≤ 0xBF

-- The least second byte after a leading byte; shorter forms of a code point are refused.
def secondLow (a : UInt8) : UInt8 :=
  if a = 0xE0 then 0xA0 else if a = 0xF0 then 0x90 else 0x80

-- The greatest second byte after a leading byte; surrogates and code points above U+10FFFF are
-- refused.
def secondHigh (a : UInt8) : UInt8 :=
  if a = 0xED then 0x9F else if a = 0xF4 then 0x8F else 0xBF

def bits (b : UInt8) : Nat := b.toNat % 64

def illFormed (a : UInt8) : Character := ⟨replacement, [a]⟩

def leading (a : UInt8) (rest : Text) : Character :=
  if a < 0x80 then ⟨a.toNat, [a]⟩
  else if 0xC2 ≤ a && a ≤ 0xDF then
    match rest with
    | b :: _ => if isContinuation b then ⟨a.toNat % 32 * 64 + bits b, [a, b]⟩ else illFormed a
    | [] => illFormed a
  else if 0xE0 ≤ a && a ≤ 0xEF then
    match rest with
    | b :: c :: _ =>
      if secondLow a ≤ b && b ≤ secondHigh a && isContinuation c then
        ⟨(a.toNat % 16 * 64 + bits b) * 64 + bits c, [a, b, c]⟩
      else illFormed a
    | _ => illFormed a
  else if 0xF0 ≤ a && a ≤ 0xF4 then
    match rest with
    | b :: c :: d :: _ =>
      if secondLow a ≤ b && b ≤ secondHigh a && isContinuation c && isContinuation d then
        ⟨((a.toNat % 8 * 64 + bits b) * 64 + bits c) * 64 + bits d, [a, b, c, d]⟩
      else illFormed a
    | _ => illFormed a
  else illFormed a

def isWellFormed : Character → Bool
  | ⟨_, [a]⟩ => a < 0x80
  | _ => true

-- The UTF-8 bytes of a code point; surrogates and numbers above U+10FFFF give those of U+FFFD.
def encode (code : Nat) : Text :=
  if code < 0x80 then [UInt8.ofNat code]
  else if code < 0x800 then [UInt8.ofNat (0xC0 + code / 64), UInt8.ofNat (0x80 + code % 64)]
  else if (0xD800 ≤ code && code ≤ 0xDFFF) || 0x10FFFF < code then [0xEF, 0xBF, 0xBD]
  else if code < 0x10000 then
    [UInt8.ofNat (0xE0 + code / 4096), UInt8.ofNat (0x80 + code / 64 % 64),
      UInt8.ofNat (0x80 + code % 64)]
  else
    [UInt8.ofNat (0xF0 + code / 262144), UInt8.ofNat (0x80 + code / 4096 % 64),
      UInt8.ofNat (0x80 + code / 64 % 64), UInt8.ofNat (0x80 + code % 64)]

end Character

namespace Text

-- The characters of a text after `skip` bytes that belong to an earlier character.
def charactersAfter : Nat → Text → List Character
  | _, [] => []
  | skip + 1, _ :: rest => charactersAfter skip rest
  | 0, a :: rest =>
    let c := Character.leading a rest
    c :: charactersAfter (c.bytes.length - 1) rest

def characters (text : Text) : List Character :=
  charactersAfter 0 text

def codes (text : Text) : List Nat :=
  text.characters.map Character.code

def ofCodes (codes : List Nat) : Text :=
  codes.flatMap Character.encode

def isUtf8 (text : Text) : Bool :=
  text.characters.all Character.isWellFormed

def ofCharacters (characters : List Character) : Text :=
  characters.flatMap Character.bytes

end Text

theorem Character.leading_bytes (a : UInt8) (rest : Text) :
    ∃ more, (Character.leading a rest).bytes = a :: more ∧ more <+: rest := by
  unfold Character.leading Character.illFormed
  repeat' split
  all_goals simp

theorem Text.ofCharacters_charactersAfter (skip : Nat) (text : Text) :
    Text.ofCharacters (Text.charactersAfter skip text) = text.drop skip := by
  induction text generalizing skip with
  | nil => simp [Text.charactersAfter, Text.ofCharacters]
  | cons a rest ih =>
    cases skip with
    | succ skip => simpa [Text.charactersAfter] using ih skip
    | zero =>
      obtain ⟨more, hbytes, tail, rfl⟩ := Character.leading_bytes a rest
      simp only [Text.charactersAfter, hbytes, List.length_cons, Nat.add_sub_cancel,
        List.drop_zero]
      have h := ih more.length
      simp only [Text.ofCharacters, List.drop_left] at h
      simp [Text.ofCharacters, hbytes, h]

theorem Text.ofCharacters_characters (text : Text) :
    Text.ofCharacters text.characters = text := by
  simpa [Text.characters] using Text.ofCharacters_charactersAfter 0 text

end Tuga
