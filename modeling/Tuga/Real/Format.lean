import Tuga.Real.Shortest

namespace Tuga.Real64

-- The leading digit's least and greatest power of ten for which no exponent is written.
def leastPositional : Int := -3

def greatestPositional : Int := 6

def withPoint (whole fraction : Text) : Text :=
  whole ++ (46 : UInt8) :: if fraction.isEmpty then [48] else fraction

-- Digits whose first stands for the given power of ten, written without an exponent.
def positional (digits : Text) (power : Int) : Text :=
  if power < 0 then withPoint [48] (List.replicate (-power - 1).toNat 48 ++ digits)
  else
    let n := power.toNat + 1
    withPoint (digits.take n ++ List.replicate (n - digits.length) 48) (digits.drop n)

def scientific (digits : Text) (power : Int) : Text :=
  withPoint (digits.take 1) (digits.drop 1) ++ (69 : UInt8) :: Text.ofInt power

def formatDecimal (d : Decimal) : Text :=
  let all := Text.ofNat d.digits
  let power := d.exponent + all.length - 1
  let digits := (all.reverse.dropWhile (· = 48)).reverse
  if leastPositional ≤ power && power ≤ greatestPositional then positional digits power
  else scientific digits power

-- A real as the language prints it: the shortest digits that read back, always with a fractional
-- part, positional for powers of ten from -3 to 6 and with an exponent otherwise.
def format (x : Real64) : Text :=
  match x.view with
  | .nan => "NaN"
  | .infinite false => "Infinity"
  | .infinite true => "-Infinity"
  | .finite negative significand exponent =>
    let text : Text :=
      if significand = 0 then "0.0" else formatDecimal (Decimal.shortest significand exponent)
    if negative then 45 :: text else text

end Tuga.Real64
