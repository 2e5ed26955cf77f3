import Tuga.Real.Rounding
import Tuga.Text.Basic

namespace Tuga

structure Decimal where
  digits : Nat
  exponent : Int
  deriving DecidableEq, Repr

namespace Decimal

def length (n : Nat) : Nat := (Text.ofNat n).length

def leadingPower (num den : Nat) : Int :=
  if den ≤ num then (length (num / den) : Int) - 1
  else
    let n := length (den / num)
    if den ≤ num * Nat.pow 10 (n - 1) then 1 - (n : Int) else -(n : Int)

def reads (x : Real64) (d : Decimal) : Bool :=
  Real64.ofDecimal d.digits d.exponent = x

-- The neighbours of `num / den` among the multiples of `10 ^ exponent` that read back as `x`,
-- reduced to the better one.
def candidate? (x : Real64) (num den : Nat) (exponent : Int) : Option Decimal :=
  let unitNum := den * Nat.pow 10 exponent.toNat
  let valueNum := num * Nat.pow 10 (-exponent).toNat
  let below : Decimal := ⟨valueNum / unitNum, exponent⟩
  let above : Decimal := ⟨valueNum / unitNum + 1, exponent⟩
  let twice := 2 * (valueNum % unitNum)
  match below.reads x, above.reads x with
  | false, false => none
  | true, false => some below
  | false, true => some above
  | true, true =>
    if twice < unitNum || (twice = unitNum && below.digits % 2 = 0) then some below
    else some above

-- The greatest number of digits that can be needed.
def maxDigits : Nat := 17

def exact (significand : Nat) (exponent : Int) : Decimal :=
  if 0 ≤ exponent then ⟨significand * Nat.pow 2 exponent.toNat, 0⟩
  else ⟨significand * Nat.pow 5 (-exponent).toNat, exponent⟩

-- The shortest decimal for the positive number `significand * 2 ^ exponent`. Of the decimals with
-- the fewest digits it is the nearest, and of two that are equally near the one with the even last
-- digit.
def shortest (significand : Nat) (exponent : Int) : Decimal :=
  let x := Real64.ofScaled false significand exponent
  let num := Real64.scaleNum significand exponent
  let den := Real64.scaleDen exponent
  let power := leadingPower num den
  let found := (List.range maxDigits).findSome? fun (n : Nat) => candidate? x num den (power - n)
  found.getD (exact significand exponent)

end Decimal

end Tuga
