import Tuga.Real.Rounding

namespace Tuga.Real64

-- A format of fewer bits: a sign, `exponentBits` and `fractionBits`.
structure Narrow where
  exponentBits : Nat
  fractionBits : Nat

namespace Narrow

def half : Narrow := ⟨5, 10⟩

def single : Narrow := ⟨8, 23⟩

def bias (f : Narrow) : Int := (Nat.pow 2 (f.exponentBits - 1) : Nat) - 1

-- The weight of the last bit of the smallest numbers is two to this power.
def leastExponent (f : Narrow) : Int := 1 - f.bias - f.fractionBits

def magnitudeLimit (f : Narrow) : Nat := Nat.pow 2 (f.exponentBits + f.fractionBits)

def topField (f : Narrow) : Nat := Nat.pow 2 f.exponentBits - 1

end Narrow

-- The value of a pattern. A NaN keeps its fraction and becomes quiet.
def ofNarrow (f : Narrow) (bits : Nat) : Real64 :=
  let negative := decide (f.magnitudeLimit ≤ bits)
  let magnitude := bits % f.magnitudeLimit
  let field := magnitude / Nat.pow 2 f.fractionBits
  let fraction := magnitude % Nat.pow 2 f.fractionBits
  if field = f.topField then
    if fraction = 0 then infinity negative
    else
      let payload := fraction * Nat.pow 2 (fractionBits - f.fractionBits) % quietBit
      ofMagnitude negative (infiniteMagnitude + quietBit + payload)
  else if field = 0 then ofScaled negative fraction f.leastExponent
  else ofScaled negative (Nat.pow 2 f.fractionBits + fraction) (f.leastExponent + field - 1)

-- The pattern with exactly the value of a finite number, if there is one.
def toNarrow? (f : Narrow) (x : Real64) : Option Nat :=
  match x.view with
  | .finite negative significand exponent =>
    let sign := if negative then f.magnitudeLimit else 0
    if significand = 0 then some sign
    else
      let top := exponent + significand.log2
      let place := max (top - f.fractionBits) f.leastExponent
      let shift := Nat.pow 2 (place - exponent).toNat
      if f.bias < top || significand % shift ≠ 0 then none
      else
        let count := significand * Nat.pow 2 (exponent - place).toNat / shift
        some (sign + (place - f.leastExponent).toNat * Nat.pow 2 f.fractionBits + count)
  | _ => none

end Tuga.Real64
