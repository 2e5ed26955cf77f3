import Tuga.Bytecode.Operation
import Tuga.Real.Format

namespace Tuga

structure ConstantKind where
  tag : UInt8
  deriving DecidableEq, Repr

namespace ConstantKind

def real : ConstantKind := ⟨1⟩

def text : ConstantKind := ⟨3⟩

def name (kind : ConstantKind) : Text :=
  if kind = real then "real"
  else if kind = text then "text"
  else ("ConstKind(" : Text) ++ Text.ofNat kind.tag.toNat ++ (")" : Text)

end ConstantKind

-- A pool entry. Its kind says which of the two values counts.
structure Constant where
  kind : ConstantKind
  real : Real64 := ⟨0⟩
  text : Text := []
  deriving DecidableEq, Repr

namespace Constant

def ofReal (value : Real64) : Constant := { kind := .real, real := value }

def ofText (value : Text) : Constant := { kind := .text, text := value }

-- Whether two entries are the same pool value. Reals are compared by their bits.
def same (a b : Constant) : Bool :=
  a.kind = b.kind && (if a.kind = .real then a.real = b.real else a.text = b.text)

def render (c : Constant) : Text :=
  if c.kind = .real then c.real.format else c.text

end Constant

-- An instruction. The argument counts only if the operation has an operand.
structure Instruction where
  op : Opcode
  arg : Int32 := 0
  deriving DecidableEq, Repr

namespace Instruction

def of (op : Operation) : Instruction := ⟨op.code, 0⟩

def render (i : Instruction) : Text :=
  if i.op.hasOperand then i.op.name ++ (32 : UInt8) :: Text.ofInt i.arg.toInt else i.op.name

end Instruction

-- A compiled program: a pool of constants, each value once, and a straight line of instructions.
-- Reals and texts live in the pool; integers are operands of the instruction that loads them.
structure Bytecode where
  constants : List Constant := []
  code : List Instruction := []
  deriving DecidableEq, Repr

-- A text without the double quotes around it, if it has both.
def Text.unquote (text : Text) : Text :=
  if 2 ≤ text.length && text.head? = some 34 && text.getLast? = some 34 then
    (text.drop 1).dropLast
  else text

-- The pool index of a constant, and the pool that has it: an equal entry is used again.
def pooled (pool : List Constant) (c : Constant) : Nat × List Constant :=
  match pool.findIdx? (·.same c) with
  | some i => (i, pool)
  | none => (pool.length, pool ++ [c])

namespace Bytecode

def constant? (b : Bytecode) (index : Int32) : Option Constant :=
  if index < 0 then none else b.constants[index.toInt.toNat]?

def stats (b : Bytecode) : Text :=
  Text.ofNat b.constants.length ++ (" constants, " : Text) ++ Text.ofNat b.code.length ++
    (" instructions" : Text)

def addConstant (b : Bytecode) (c : Constant) : Nat × Bytecode :=
  let (index, constants) := pooled b.constants c
  (index, { b with constants })

def emit (b : Bytecode) (i : Instruction) : Nat × Bytecode :=
  (b.code.length, { b with code := b.code ++ [i] })

def emitConstant (b : Bytecode) (op : Operation) (c : Constant) : Nat × Bytecode :=
  let (index, b) := b.addConstant c
  b.emit ⟨op.code, Int32.ofNat index⟩

-- The program with its texts unquoted, as files keep them.
def fileForm (b : Bytecode) : Bytecode :=
  { b with
    constants := b.constants.map fun c =>
      if c.kind = .text then { c with text := c.text.unquote } else c }

def lines (b : Bytecode) : List Text :=
  b.code.map Instruction.render

def numbered (texts : List Text) : Text :=
  texts.zipIdx.flatMap fun (text, i) => Text.ofNat i ++ (": " : Text) ++ text ++ [10]

def disassemble (b : Bytecode) : Text :=
  ("*** Constant pool ***\n" : Text) ++ numbered (b.constants.map Constant.render) ++
    ("*** Instructions ***\n" : Text) ++ numbered b.lines

end Bytecode

end Tuga
