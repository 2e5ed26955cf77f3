namespace Tuga

-- A double precision number, identified by its bits: the two zeros differ, and so do NaNs.
structure Real64 where
  bits : UInt64
  deriving DecidableEq, Repr, Inhabited

namespace Real64

-- What a pattern means. A finite number is `significand * 2 ^ exponent`, with its sign, so that
-- arithmetic is exact computation with integers and one rounding.
inductive View where
  | nan
  | infinite (negative : Bool)
  | finite (negative : Bool) (significand : Nat) (exponent : Int)
  deriving DecidableEq, Repr

-- The weight of the last fraction bit of the smallest numbers is two to this power.
def leastExponent : Int := -1074

def fractionBits : Nat := 52

def signBit : Nat := 0x8000000000000000

def quietBit : Nat := 0x8000000000000

def magnitude (x : Real64) : Nat := x.bits.toNat % signBit

def isNegative (x : Real64) : Bool := signBit ≤ x.bits.toNat

-- The magnitude of the infinities; greater magnitudes are NaNs.
def infiniteMagnitude : Nat := 2047 * Nat.pow 2 fractionBits

def ofMagnitude (negative : Bool) (magnitude : Nat) : Real64 :=
  ⟨UInt64.ofNat (magnitude + if negative then signBit else 0)⟩

def view (x : Real64) : View :=
  let exponent := x.magnitude / Nat.pow 2 fractionBits
  let fraction := x.magnitude % Nat.pow 2 fractionBits
  if exponent = 2047 then
    if fraction = 0 then .infinite x.isNegative else .nan
  else if exponent = 0 then .finite x.isNegative fraction leastExponent
  else .finite x.isNegative (Nat.pow 2 fractionBits + fraction) (leastExponent + exponent - 1)

def nan : Real64 := ofMagnitude false (infiniteMagnitude + quietBit)

def infinity (negative : Bool) : Real64 := ofMagnitude negative infiniteMagnitude

def zero (negative : Bool) : Real64 := ofMagnitude negative 0

def isNaN (x : Real64) : Bool := infiniteMagnitude < x.magnitude

-- The numerator of `significand * 2 ^ exponent` over `scaleDen exponent`.
def scaleNum (significand : Nat) (exponent : Int) : Nat :=
  significand * Nat.pow 2 exponent.toNat

def scaleDen (exponent : Int) : Nat :=
  Nat.pow 2 (-exponent).toNat

end Real64

end Tuga
