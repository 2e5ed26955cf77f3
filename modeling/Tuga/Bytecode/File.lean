import Tuga.Bytecode.Basic
import Tuga.Text.Utf16

namespace Tuga

inductive EncodeError where
  | unknownTag (index : Nat) (tag : UInt8)
  | unknownOpcode (index : Nat) (byte : UInt8)
  deriving DecidableEq, Repr

def EncodeError.message : EncodeError → Text
  | unknownTag index tag =>
    ("bytecode: constant " : Text) ++ Text.ofNat index ++ (": unknown constant tag " : Text) ++
      Text.ofNat tag.toNat
  | unknownOpcode index byte =>
    ("bytecode: instruction " : Text) ++ Text.ofNat index ++ (": unknown opcode " : Text) ++
      Text.ofNat byte.toNat

-- The last `width` bytes of a number, the most significant first.
def Text.bigEndian (width n : Nat) : Text :=
  (List.range width).map fun i => UInt8.ofNat (n / Nat.pow 256 (width - 1 - i))

def Text.ofBigEndian (bytes : Text) : Nat :=
  bytes.foldl (fun n b => n * 256 + b.toNat) 0

def Constant.bytes? (c : Constant) : Option Text :=
  if c.kind = .real then some (c.kind.tag :: Text.bigEndian 8 c.real.bits.toNat)
  else if c.kind = .text then
    let units := c.text.unquote.utf16
    some (c.kind.tag :: Text.bigEndian 4 units.length ++
      units.flatMap fun u => Text.bigEndian 2 u.toNat)
  else none

def Instruction.bytes? (i : Instruction) : Option Text :=
  i.op.operation?.map fun op =>
    if op.hasOperand then i.op.byte :: Text.bigEndian 4 i.arg.toUInt32.toNat else [i.op.byte]

namespace Bytecode

def encodeConstants (index : Nat) : List Constant → Except EncodeError Text
  | [] => .ok []
  | c :: rest =>
    match c.bytes? with
    | some bytes => (encodeConstants (index + 1) rest).map (bytes ++ ·)
    | none => .error (.unknownTag index c.kind.tag)

def encodeCode (index : Nat) : List Instruction → Except EncodeError Text
  | [] => .ok []
  | i :: rest =>
    match i.bytes? with
    | some bytes => (encodeCode (index + 1) rest).map (bytes ++ ·)
    | none => .error (.unknownOpcode index i.op.byte)

-- The file form of a program. All numbers are big-endian: the number of constants in four bytes;
-- for each constant its tag and either the eight bytes of a real, or the number of UTF-16 units of
-- an unquoted text in four bytes and the units; then the instructions up to the end, one byte each
-- and four more for an operand. Constants are looked at before instructions.
def encode (b : Bytecode) : Except EncodeError Text := do
  let constants ← encodeConstants 0 b.constants
  let code ← encodeCode 0 b.code
  return Text.bigEndian 4 b.constants.length ++ constants ++ code

end Bytecode

inductive DecodeCause where
  | truncated
  | unknownTag (tag : UInt8)
  | unknownOpcode (byte : UInt8)
  | negativeCount
  deriving DecidableEq, Repr

def DecodeCause.message : DecodeCause → Text
  | truncated => "unexpected end of bytecode"
  | unknownTag tag => ("unknown constant tag " : Text) ++ Text.ofNat tag.toNat
  | unknownOpcode byte => ("unknown opcode " : Text) ++ Text.ofNat byte.toNat
  | negativeCount => "negative count"

inductive DecodeItem where
  | constantCount
  | constantTag
  | realConstant
  | textLength
  | textConstant
  | opcode
  | operand (op : Operation)
  deriving DecidableEq, Repr

def DecodeItem.name : DecodeItem → Text
  | constantCount => "constant count"
  | constantTag => "constant tag"
  | realConstant => "real constant"
  | textLength => "text length"
  | textConstant => "text constant"
  | opcode => "opcode"
  | operand op => op.name ++ (" operand" : Text)

-- A failure to decode, with the offset at which the item could not be read.
structure DecodeError where
  offset : Nat
  item : DecodeItem
  cause : DecodeCause
  deriving DecidableEq, Repr

def DecodeError.message (e : DecodeError) : Text :=
  ("bytecode: " : Text) ++ e.item.name ++ (" at offset " : Text) ++ Text.ofNat e.offset ++
    (": " : Text) ++ e.cause.message

namespace Bytecode

structure Rest where
  offset : Nat
  data : Text
  deriving DecidableEq, Repr

def Rest.take (rest : Rest) (n : Nat) (item : DecodeItem) : Except DecodeError (Text × Rest) :=
  let bytes := rest.data.take n
  if bytes.length < n then .error ⟨rest.offset, item, .truncated⟩
  else .ok (bytes, ⟨rest.offset + n, rest.data.drop n⟩)

-- A count of four bytes, refused if its first bit is set.
def Rest.count (rest : Rest) (item : DecodeItem) : Except DecodeError (Nat × Rest) := do
  let (bytes, rest) ← rest.take 4 item
  let n := Text.ofBigEndian bytes
  if n < 0x80000000 then return (n, rest) else throw ⟨rest.offset, item, .negativeCount⟩

def units : Text → List UInt16
  | a :: b :: rest => UInt16.ofNat (a.toNat * 256 + b.toNat) :: units rest
  | _ => []

-- The next constant. An unknown tag is reported at the tag itself.
def Rest.constant (rest : Rest) : Except DecodeError (Constant × Rest) := do
  let (tag, after) ← rest.take 1 .constantTag
  let kind : ConstantKind := ⟨tag.headD 0⟩
  if kind = .real then
    let (bytes, after) ← after.take 8 .realConstant
    return (.ofReal ⟨UInt64.ofNat (Text.ofBigEndian bytes)⟩, after)
  else if kind = .text then
    let (n, after) ← after.count .textLength
    let (bytes, after) ← after.take (2 * n) .textConstant
    return (.ofText (Text.ofUtf16 (units bytes)), after)
  else throw ⟨rest.offset, .constantTag, .unknownTag kind.tag⟩

def Rest.constants : Nat → Rest → Except DecodeError (List Constant × Rest)
  | 0, rest => .ok ([], rest)
  | n + 1, rest => do
    let (c, rest) ← rest.constant
    let (cs, rest) ← Rest.constants n rest
    return (c :: cs, rest)

def decodeCode (offset : Nat) : Text → Except DecodeError (List Instruction)
  | [] => .ok []
  | byte :: rest =>
    match (Opcode.mk byte).operation? with
    | none => .error ⟨offset, .opcode, .unknownOpcode byte⟩
    | some op =>
      if op.hasOperand then
        match rest with
        | b₁ :: b₂ :: b₃ :: b₄ :: rest =>
          let arg := Int32.ofNat (Text.ofBigEndian [b₁, b₂, b₃, b₄])
          (decodeCode (offset + 5) rest).map (⟨⟨byte⟩, arg⟩ :: ·)
        | _ => .error ⟨offset + 1, .operand op, .truncated⟩
      else (decodeCode (offset + 1) rest).map (⟨⟨byte⟩, 0⟩ :: ·)

def decode (file : Text) : Except DecodeError Bytecode := do
  let (n, rest) ← (Rest.mk 0 file).count .constantCount
  let (constants, rest) ← rest.constants n
  let code ← decodeCode rest.offset rest.data
  return { constants, code }

-- Replaces a program by the one that a file holds. A file that is no program leaves it as it is.
def replace (file : Text) : EStateM DecodeError Bytecode Unit := do
  let decoded ← MonadExcept.ofExcept (decode file)
  modify fun program => { program with constants := decoded.constants }
  modify fun program => { program with code := decoded.code }

def load (file : Text) : Except DecodeError Bytecode :=
  match replace file {} with
  | .ok () program => .ok program
  | .error e _ => .error e

end Bytecode

end Tuga
