import Tuga.Bytecode.Basic
import Tuga.Machine.Value
import Tuga.Real.Arithmetic

namespace Tuga

inductive Fault where
  | divisionByZero
  | moduloByZero
  | stackUnderflow
  | operandKind (expected found : Kind)
  | badConstant (index : Int32)
  | unknownOpcode
  deriving DecidableEq, Repr

namespace Fault

def ordinal : Fault → Nat
  | divisionByZero => 1
  | moduloByZero => 2
  | stackUnderflow => 3
  | operandKind _ _ => 4
  | badConstant _ => 5
  | unknownOpcode => 6

-- The names of the kinds of faults, in the order of their numbers, which start at one.
def names : List Text :=
  ["division by zero", "modulo by zero", "stack underflow", "operand kind", "bad constant",
    "unknown opcode"]

def name (fault : Fault) : Text := names.getD (fault.ordinal - 1) []

def message (fault : Fault) (op : Opcode) : Text :=
  match fault with
  | divisionByZero => "division by 0"
  | moduloByZero => "0 is not valid in %"
  | stackUnderflow => ("stack underflow in " : Text) ++ op.name
  | operandKind expected found =>
    op.name ++ (" expects " : Text) ++ expected.name ++ (", found " : Text) ++ found.name
  | badConstant index =>
    ("invalid constant index " : Text) ++ Text.ofInt index.toInt ++ (" for " : Text) ++ op.name
  | unknownOpcode => ("unknown opcode " : Text) ++ Text.ofNat op.byte.toNat

end Fault

namespace Machine

abbrev Stack := List Value

-- Work on the stack that may fault. A fault keeps the stack as it was left.
abbrev Work := EStateM Fault Stack

inductive Effect where
  | next
  | print (value : Value)
  | halt
  deriving DecidableEq, Repr

-- Takes the top value, which must be of one kind; another one stays where it is.
def pop {α : Type} (kind : Kind) (view : Value → Option α) : Work α := fun stack =>
  match stack with
  | [] => .error .stackUnderflow []
  | top :: rest =>
    match view top with
    | some value => .ok value rest
    | none => .error (.operandKind kind top.kind) (top :: rest)

def popInt : Work Int32 := pop .integer Value.int?

def popReal : Work Real64 := pop .real Value.real?

def popBool : Work Bool := pop .boolean Value.bool?

def popText : Work Text := pop .text Value.text?

def push (value : Value) : Work Effect := fun stack =>
  .ok .next (value :: stack)

def unary {α : Type} (operand : Work α) (f : α → Value) : Work Effect := do
  push (f (← operand))

-- Takes the right operand and then the left one, and puts the result in their place.
def binary {α : Type} (operand : Work α) (f : α → α → Except Fault Value) : Work Effect := do
  let right ← operand
  let left ← operand
  match f left right with
  | .ok value => push value
  | .error fault => throw fault

def print {α : Type} (operand : Work α) (f : α → Value) : Work Effect := do
  return .print (f (← operand))

def always {α β : Type} (make : β → Value) (f : α → α → β) (l r : α) : Except Fault Value :=
  .ok (make (f l r))

-- Reals closer than this are equal, and a divisor closer to zero is zero.
def epsilon : Real64 := Real64.ofDecimal 1 (-8)

def distance (l r : Real64) : Real64 := (l.sub r).abs

def intDiv (l r : Int32) : Except Fault Value :=
  if r = 0 then .error .divisionByZero else .ok (.int (l / r))

-- The remainder of integer division, with the sign of the dividend.
def intMod (l r : Int32) : Except Fault Value :=
  if r = 0 then .error .moduloByZero else .ok (.int (l % r))

def realDiv (l r : Real64) : Except Fault Value :=
  if r.abs.lt epsilon then .error .divisionByZero else .ok (.real (l.div r))

def loadConstant (program : Bytecode) (kind : ConstantKind) (value : Constant → Value)
    (index : Int32) : Work Effect :=
  match program.constant? index with
  | some c => if c.kind = kind then push (value c) else throw (.badConstant index)
  | none => throw (.badConstant index)

def perform (program : Bytecode) (arg : Int32) : Operation → Work Effect
  | .iconst => push (.int arg)
  | .dconst => loadConstant program .real (fun c => .real c.real) arg
  | .sconst => loadConstant program .text (fun c => .text c.text) arg
  | .tconst => push (.bool true)
  | .fconst => push (.bool false)
  | .iuminus => unary popInt fun v => .int (-v)
  | .itod => unary popInt fun v => .real (Real64.ofInt v.toInt)
  | .itos => unary popInt fun v => .text (Text.ofInt v.toInt)
  | .iadd => binary popInt (always .int (· + ·))
  | .isub => binary popInt (always .int (· - ·))
  | .imult => binary popInt (always .int (· * ·))
  | .idiv => binary popInt intDiv
  | .imod => binary popInt intMod
  | .ieq => binary popInt (always .bool fun l r => l = r)
  | .ineq => binary popInt (always .bool fun l r => l ≠ r)
  | .ilt => binary popInt (always .bool fun l r => l < r)
  | .ileq => binary popInt (always .bool fun l r => l ≤ r)
  | .igt => binary popInt (always .bool fun l r => r < l)
  | .igeq => binary popInt (always .bool fun l r => r ≤ l)
  | .duminus => unary popReal fun v => .real v.neg
  | .dtos => unary popReal fun v => .text v.format
  | .dadd => binary popReal (always .real Real64.add)
  | .dsub => binary popReal (always .real Real64.sub)
  | .dmult => binary popReal (always .real Real64.mul)
  | .ddiv => binary popReal realDiv
  | .deq => binary popReal (always .bool fun l r => (distance l r).lt epsilon)
  | .dneq => binary popReal (always .bool fun l r => epsilon.le (distance l r))
  | .dlt => binary popReal (always .bool fun l r => l.lt r)
  | .dleq => binary popReal (always .bool fun l r => l.le r)
  | .dgt => binary popReal (always .bool fun l r => r.lt l)
  | .dgeq => binary popReal (always .bool fun l r => r.le l)
  | .sconcat => binary popText (always .text (· ++ ·))
  | .seq => binary popText (always .bool fun l r => l = r)
  | .sneq => binary popText (always .bool fun l r => l ≠ r)
  | .beq => binary popBool (always .bool fun l r => l = r)
  | .bneq => binary popBool (always .bool fun l r => l ≠ r)
  | .and => binary popBool (always .bool fun l r => l && r)
  | .or => binary popBool (always .bool fun l r => l || r)
  | .not => unary popBool fun v => .bool !v
  | .btos => unary popBool fun v => .text (Text.ofBool v)
  | .iprint => print popInt .int
  | .dprint => print popReal .real
  | .sprint => print popText .text
  | .bprint => print popBool .bool
  | .halt => pure .halt

def execute (program : Bytecode) (i : Instruction) : Work Effect :=
  match i.op.operation? with
  | some op => perform program i.arg op
  | none => throw .unknownOpcode

end Machine

end Tuga
