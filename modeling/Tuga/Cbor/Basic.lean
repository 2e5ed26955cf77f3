import Tuga.Bytecode.File
import Tuga.Real.Narrow

namespace Tuga

-- A data item. The negative item with number `n` stands for `-1 - n`. A text is kept in the pieces
-- it was written in, because each piece has to be well-formed on its own.
inductive Cbor where
  | unsigned (n : Nat)
  | negative (n : Nat)
  | bytes (data : Text)
  | text (pieces : List Text)
  | array (items : List Cbor)
  | map (entries : List (Cbor × Cbor))
  | tagged (number : Nat) (content : Cbor)
  | simple (n : Nat)
  | real (value : Real64)

namespace Cbor

def head (major n : Nat) : Text :=
  let first (info : Nat) : UInt8 := UInt8.ofNat (major * 32 + info)
  if n < 24 then [first n]
  else if n < 0x100 then first 24 :: Text.bigEndian 1 n
  else if n < 0x10000 then first 25 :: Text.bigEndian 2 n
  else if n < 0x100000000 then first 26 :: Text.bigEndian 4 n
  else first 27 :: Text.bigEndian 8 n

def encodeNat (n : Nat) : Text := head 0 n

def encodeText (text : Text) : Text := head 3 text.length ++ text

-- A real in the shortest form that keeps its value. All NaNs have one form.
def encodeReal (x : Real64) : Text :=
  match x.view with
  | .nan => [0xF9, 0x7E, 0x00]
  | .infinite sign => [0xF9, if sign then 0xFC else 0x7C, 0x00]
  | _ =>
    match x.toNarrow? .half with
    | some bits => 0xF9 :: Text.bigEndian 2 bits
    | none =>
      match x.toNarrow? .single with
      | some bits => 0xFA :: Text.bigEndian 4 bits
      | none => 0xFB :: Text.bigEndian 8 x.bits.toNat

def encodeArray (items : List Text) : Text := head 4 items.length ++ items.flatten

def encodeMap (entries : List (Text × Text)) : Text :=
  head 5 entries.length ++ entries.flatMap fun (key, value) => key ++ value

-- The canonical order of written keys: shorter ones first, then by bytes.
def keyBefore (a b : Text) : Bool :=
  a.length < b.length || (a.length = b.length && !Text.lt b a)

end Cbor

end Tuga
