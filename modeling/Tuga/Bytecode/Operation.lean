import Tuga.Text.Basic

namespace Tuga

-- The defined operations, in the order of their numbers.
inductive Operation where
  | iconst
  | dconst
  | sconst
  | iprint
  | iuminus
  | iadd
  | isub
  | imult
  | idiv
  | imod
  | ieq
  | ineq
  | ilt
  | ileq
  | itod
  | itos
  | dprint
  | duminus
  | dadd
  | dsub
  | dmult
  | ddiv
  | deq
  | dneq
  | dlt
  | dleq
  | dtos
  | sprint
  | sconcat
  | seq
  | sneq
  | tconst
  | fconst
  | bprint
  | beq
  | bneq
  | and
  | or
  | not
  | btos
  | halt
  | igt
  | igeq
  | dgt
  | dgeq
  deriving DecidableEq, Repr

namespace Operation

def all : List Operation :=
  [iconst, dconst, sconst, iprint, iuminus, iadd, isub, imult, idiv, imod, ieq, ineq, ilt, ileq,
    itod, itos, dprint, duminus, dadd, dsub, dmult, ddiv, deq, dneq, dlt, dleq, dtos, sprint,
    sconcat, seq, sneq, tconst, fconst, bprint, beq, bneq, and, or, not, btos, halt, igt, igeq,
    dgt, dgeq]

def ordinal (op : Operation) : Nat := op.ctorIdx

def ofOrdinal? (n : Nat) : Option Operation := all[n]?

def name : Operation → Text
  | iconst => "iconst"
  | dconst => "dconst"
  | sconst => "sconst"
  | iprint => "iprint"
  | iuminus => "iuminus"
  | iadd => "iadd"
  | isub => "isub"
  | imult => "imult"
  | idiv => "idiv"
  | imod => "imod"
  | ieq => "ieq"
  | ineq => "ineq"
  | ilt => "ilt"
  | ileq => "ileq"
  | itod => "itod"
  | itos => "itos"
  | dprint => "dprint"
  | duminus => "duminus"
  | dadd => "dadd"
  | dsub => "dsub"
  | dmult => "dmult"
  | ddiv => "ddiv"
  | deq => "deq"
  | dneq => "dneq"
  | dlt => "dlt"
  | dleq => "dleq"
  | dtos => "dtos"
  | sprint => "sprint"
  | sconcat => "sconcat"
  | seq => "seq"
  | sneq => "sneq"
  | tconst => "tconst"
  | fconst => "fconst"
  | bprint => "bprint"
  | beq => "beq"
  | bneq => "bneq"
  | and => "and"
  | or => "or"
  | not => "not"
  | btos => "btos"
  | halt => "halt"
  | igt => "igt"
  | igeq => "igeq"
  | dgt => "dgt"
  | dgeq => "dgeq"

def ofName? (name : Text) : Option Operation :=
  all.find? (·.name = name)

-- Only the loads of constants carry an operand.
def hasOperand : Operation → Bool
  | iconst | dconst | sconst => true
  | _ => false

def operandLength (op : Operation) : Nat :=
  if op.hasOperand then 4 else 0

def isPrint : Operation → Bool
  | iprint | dprint | sprint | bprint => true
  | _ => false

def pops : Operation → Nat
  | iconst | dconst | sconst | tconst | fconst | halt => 0
  | iprint | dprint | sprint | bprint | iuminus | duminus | not | itod | itos | dtos | btos => 1
  | _ => 2

def pushes : Operation → Nat
  | iprint | dprint | sprint | bprint | halt => 0
  | _ => 1

end Operation

-- The byte that names an operation, or none if it is out of range.
structure Opcode where
  byte : UInt8
  deriving DecidableEq, Repr

namespace Opcode

def operation? (code : Opcode) : Option Operation :=
  Operation.ofOrdinal? code.byte.toNat

-- The mnemonic, or the number of a byte that names no operation.
def name (code : Opcode) : Text :=
  match code.operation? with
  | some op => op.name
  | none => ("UNKNOWN(" : Text) ++ Text.ofNat code.byte.toNat ++ (")" : Text)

def isValid (code : Opcode) : Bool := code.operation?.isSome

def hasOperand (code : Opcode) : Bool := code.operation?.any Operation.hasOperand

def isPrint (code : Opcode) : Bool := code.operation?.any Operation.isPrint

end Opcode

def Operation.code (op : Operation) : Opcode := ⟨UInt8.ofNat op.ordinal⟩

theorem Opcode.operation?_code (op : Operation) : op.code.operation? = some op := by
  cases op <;> rfl

end Tuga
