import Tuga.Real.Rounding

namespace Tuga.Real64

def neg (x : Real64) : Real64 :=
  ofMagnitude (!x.isNegative) x.magnitude

def abs (x : Real64) : Real64 :=
  ofMagnitude false x.magnitude

-- A signed count of units of `2 ^ unit`; `unit` is at most `exponent`.
def unitsAt (negative : Bool) (significand : Nat) (exponent unit : Int) : Int :=
  let count : Int := (significand * Nat.pow 2 (exponent - unit).toNat : Nat)
  if negative then -count else count

-- The sum. An exact zero is negative only if both operands are.
def add (x y : Real64) : Real64 :=
  match x.view, y.view with
  | .nan, _ => nan
  | _, .nan => nan
  | .infinite s, .infinite t => if s = t then infinity s else nan
  | .infinite s, _ => infinity s
  | _, .infinite t => infinity t
  | .finite s m e, .finite t n f =>
    let unit := min e f
    let sum := unitsAt s m e unit + unitsAt t n f unit
    if sum = 0 then zero (s && t) else ofScaled (sum < 0) sum.natAbs unit

def sub (x y : Real64) : Real64 :=
  add x y.neg

def mul (x y : Real64) : Real64 :=
  match x.view, y.view with
  | .nan, _ => nan
  | _, .nan => nan
  | .infinite s, .infinite t => infinity (s != t)
  | .infinite s, .finite t n _ => if n = 0 then nan else infinity (s != t)
  | .finite s m _, .infinite t => if m = 0 then nan else infinity (s != t)
  | .finite s m e, .finite t n f => ofScaled (s != t) (m * n) (e + f)

def div (x y : Real64) : Real64 :=
  match x.view, y.view with
  | .nan, _ => nan
  | _, .nan => nan
  | .infinite _, .infinite _ => nan
  | .infinite s, .finite t _ _ => infinity (s != t)
  | .finite s _ _, .infinite t => zero (s != t)
  | .finite s m e, .finite t n f =>
    if n = 0 then if m = 0 then nan else infinity (s != t)
    else
      ofRatio (s != t) (scaleNum m e * scaleDen f) (scaleNum n f * scaleDen e)

-- Whether the first number is less. A NaN is not comparable, and the two zeros are equal.
def lt (x y : Real64) : Bool :=
  match x.view, y.view with
  | .nan, _ => false
  | _, .nan => false
  | .infinite s, .infinite t => s && !t
  | .infinite s, _ => s
  | _, .infinite t => !t
  | .finite s m e, .finite t n f =>
    let unit := min e f
    unitsAt s m e unit < unitsAt t n f unit

def le (x y : Real64) : Bool :=
  !x.isNaN && !y.isNaN && !y.lt x

end Tuga.Real64
