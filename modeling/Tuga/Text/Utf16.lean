import Tuga.Text.Utf8

namespace Tuga.Text

-- The code units of one code point: a surrogate pair above U+FFFF, else the code point itself.
def unitsOf (code : Nat) : List UInt16 :=
  if code < 0x10000 then [UInt16.ofNat code]
  else
    [UInt16.ofNat (0xD800 + (code - 0x10000) / 1024),
      UInt16.ofNat (0xDC00 + (code - 0x10000) % 1024)]

def utf16 (text : Text) : List UInt16 :=
  text.codes.flatMap unitsOf

def isHighSurrogate (u : UInt16) : Bool := 0xD800 ≤ u && u ≤ 0xDBFF

def isLowSurrogate (u : UInt16) : Bool := 0xDC00 ≤ u && u ≤ 0xDFFF

-- The code points of a list of code units; a surrogate without its partner gives U+FFFD.
def codesOfUtf16 : List UInt16 → List Nat
  | [] => []
  | [u] =>
    [if isHighSurrogate u || isLowSurrogate u then Character.replacement else u.toNat]
  | u :: v :: rest =>
    if isHighSurrogate u && isLowSurrogate v then
      (0x10000 + (u.toNat - 0xD800) * 1024 + (v.toNat - 0xDC00)) :: codesOfUtf16 rest
    else
      (if isHighSurrogate u || isLowSurrogate u then Character.replacement else u.toNat) ::
        codesOfUtf16 (v :: rest)

def ofUtf16 (units : List UInt16) : Text :=
  ofCodes (codesOfUtf16 units)

end Tuga.Text
