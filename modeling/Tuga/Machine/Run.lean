import Tuga.Machine.Profile
import Tuga.Machine.Step

namespace Tuga

inductive RunError where
  | fault (fault : Fault) (pc : Nat) (op : Opcode)
  | writeFailed
  deriving DecidableEq, Repr

def RunError.message : RunError → Text
  | fault f _ op => ("runtime error: " : Text) ++ f.message op
  | writeFailed => ("vm: write output: " : Text) ++ Sink.failure

-- A machine with a loaded program. `pc` is the index of the next instruction.
structure Machine where
  program : Bytecode
  pc : Nat := 0
  stack : Machine.Stack := []
  halted : Bool := false
  steps : Nat := 0
  sink : Sink := {}
  profile : Option Profile := none

namespace Machine

structure Outcome where
  machine : Machine
  output : Text
  error : Option RunError

def dispatch (m : Machine) (op : Opcode) : Machine :=
  { m with steps := m.steps + 1, profile := m.profile.map (·.record op) }

def advance (m : Machine) (stack : Stack) : Machine :=
  { m with pc := m.pc + 1, stack }

-- Follows the given instructions, the first of which is the next one of the machine, to their end,
-- a halt or an error. After an error the machine stays at the instruction that failed.
def follow (m : Machine) : List Instruction → Outcome
  | [] => ⟨{ m with halted := true }, [], none⟩
  | i :: rest =>
    let m := m.dispatch i.op
    match execute m.program i m.stack with
    | .ok .next stack => (m.advance stack).follow rest
    | .ok .halt stack => ⟨{ m with stack, halted := true }, [], none⟩
    | .ok (.print value) stack =>
      match m.sink.write? with
      | none => ⟨{ m with stack }, [], some .writeFailed⟩
      | some sink =>
        let outcome := ({ m with sink }.advance stack).follow rest
        { outcome with output := value.render ++ (10 : UInt8) :: outcome.output }
    | .error fault stack => ⟨{ m with stack }, [], some (.fault fault m.pc i.op)⟩

-- Runs from the next instruction on. A halted machine does nothing.
def run (m : Machine) : Outcome :=
  if m.halted then ⟨m, [], none⟩ else m.follow (m.program.code.drop m.pc)

def load (program : Bytecode) : Machine := { program }

end Machine

end Tuga
