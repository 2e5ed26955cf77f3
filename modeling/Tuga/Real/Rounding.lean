import Tuga.Real.Basic

namespace Tuga.Real64

-- The quotient rounded to the nearest natural number, a half to the even one.
def roundDiv (num den : Nat) : Nat :=
  let quotient := num / den
  let remainder := num % den
  if den < 2 * remainder || (2 * remainder = den && quotient % 2 = 1) then quotient + 1
  else quotient

def belowPower (num den : Nat) (exponent : Int) : Bool :=
  num * scaleDen exponent < den * Nat.pow 2 exponent.toNat

-- The weight of the last place for a ratio: its significand then has at most 53 bits.
def lastPlace (num den : Nat) : Int :=
  let estimate : Int := (num.log2 : Int) - (den.log2 : Int)
  let top := if belowPower num den estimate then estimate - 1 else estimate
  max (top - fractionBits) leastExponent

-- The number with the given sign nearest to `num / den`, a tie going to the even significand.
-- Ratios beyond the greatest finite number give infinity. The magnitude bits grow with the
-- significand, so a significand that rounds up to the next power of two carries into the exponent.
def ofRatio (negative : Bool) (num den : Nat) : Real64 :=
  if num = 0 then zero negative
  else
    let place := lastPlace num den
    let significand := roundDiv (num * scaleDen place) (den * Nat.pow 2 place.toNat)
    let magnitude := (place - leastExponent).toNat * Nat.pow 2 fractionBits + significand
    ofMagnitude negative (min magnitude infiniteMagnitude)

def ofScaled (negative : Bool) (significand : Nat) (exponent : Int) : Real64 :=
  ofRatio negative (scaleNum significand exponent) (scaleDen exponent)

def ofDecimal (digits : Nat) (exponent : Int) : Real64 :=
  ofRatio false (digits * Nat.pow 10 exponent.toNat) (Nat.pow 10 (-exponent).toNat)

def ofInt (n : Int) : Real64 :=
  ofRatio (n < 0) n.natAbs 1

end Tuga.Real64
