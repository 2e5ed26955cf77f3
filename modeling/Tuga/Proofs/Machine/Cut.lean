import Tuga.Proofs.Machine.Stepping

namespace Tuga

-- The program with its first instructions only.
def Bytecode.cut (b : Bytecode) (size : Nat) : Bytecode := { b with code := b.code.take size }

namespace Machine

-- The machine with only the first instructions of its program.
def cut (m : Machine) (size : Nat) : Machine := { m with program := m.program.cut size }

def Outcome.cut (o : Outcome) (size : Nat) : Outcome := { o with machine := o.machine.cut size }

variable {m next last stopped : Machine} {i : Instruction} {printed : Text} {n size : Nat}
  {error : RunError} {o : Outcome}

-- An instruction reads the constants of its program, not the code around it.
theorem execute_cut (b : Bytecode) (size : Nat) (i : Instruction) :
    execute (b.cut size) i = execute b i := by
  rw [execute, execute]
  cases i.op.operation? with
  | none => rfl
  | some op => cases op <;> rfl

theorem At.cut (here : m.At i) (hlt : m.pc < size) : (m.cut size).At i where
  running := here.running
  instruction := by
    change (m.program.code.take size)[m.pc]? = some i
    rw [List.getElem?_take_of_lt hlt, here.instruction]

theorem Step.cut (h : m.Step printed next) (hlt : m.pc < size) :
    (m.cut size).Step printed (next.cut size) := by
  cases h with
  | next here hi => exact .next (here.cut hlt) ((congrFun (execute_cut ..) _).trans hi)
  | print here hi room => exact .print (here.cut hlt) ((congrFun (execute_cut ..) _).trans hi) room
  | halt here hi => exact .halt (here.cut hlt) ((congrFun (execute_cut ..) _).trans hi)

theorem Stops.cut (h : m.Stops error stopped) (hlt : m.pc < size) :
    (m.cut size).Stops error (stopped.cut size) := by
  cases h with
  | fault here hi => exact .fault (here.cut hlt) ((congrFun (execute_cut ..) _).trans hi)
  | full here hi room => exact .full (here.cut hlt) ((congrFun (execute_cut ..) _).trans hi) room

theorem Steps.cut (h : Steps n m printed last) (hsize : m.pc + n ≤ size) :
    Steps n (m.cut size) printed (last.cut size) := by
  induction h with
  | zero => exact .zero _
  | succ first rest ih =>
      refine .succ (first.cut (by omega)) (ih ?_)
      rcases first.goes_on_or_halts with ⟨-, hpc⟩ | ⟨-, hpc⟩ <;> omega

-- A run that does not come to the instructions that are cut off is the same without them.
theorem Execution.cut (h : Execution m o) (hsize : o.machine.steps ≤ m.steps + (size - m.pc)) :
    Execution (m.cut size) (o.cut size) := by
  induction h with
  | halted halted => exact .halted halted
  | @finished m running last =>
      refine .finished running ?_
      rw [List.getElem?_eq_none_iff] at last ⊢
      exact Nat.le_trans (List.length_take_le' size m.program.code) last
  | @step m next printed o first rest ih =>
      change o.machine.steps ≤ _ at hsize
      have hsteps := first.steps_eq
      have hle := rest.steps_le
      refine .step (first.cut (by omega)) (ih ?_)
      rcases first.goes_on_or_halts with ⟨-, hpc⟩ | ⟨hnext, -⟩
      · omega
      · have hlast : o.machine.steps = next.steps := by rw [rest.eq_of_halted hnext]
        omega
  | @stopped m stopped error stops =>
      have hsteps := stops.steps_eq
      change stopped.steps ≤ _ at hsize
      exact .stopped (stops.cut (by omega))

-- A run that comes to the instructions that are cut off ends there.
theorem Steps.run_cut (h : Steps n m printed last) (here : last.At i) :
    (m.cut (m.pc + n)).run =
      ⟨{ last.cut (m.pc + n) with halted := true }, printed, none⟩ := by
  have hpc := h.pc_eq here.running
  have hend : (last.cut (m.pc + n)).program.code[(last.cut (m.pc + n)).pc]? = none := by
    change (last.program.code.take (m.pc + n))[last.pc]? = none
    rw [List.getElem?_eq_none_iff, List.length_take]
    omega
  have hrun := run_of_finished (m := last.cut (m.pc + n)) here.running hend
  rw [(h.cut (Nat.le_refl _)).run_eq, hrun]
  simp [Outcome.after]

theorem run_fault {pc : Nat} {fault : Fault} {op : Opcode}
    (h : m.run.error = some (.fault fault pc op)) :
    m.run.machine.pc = pc ∧ m.run.machine.steps = m.steps + (pc - m.pc) + 1 ∧
      m.program.code[pc]?.map Instruction.op = some op ∧ m.run.machine.halted = false := by
  obtain ⟨n, last, i, left, hsteps, here, rfl, rfl, -, hmachine⟩ := exists_steps_of_fault h
  have hpc := hsteps.pc_eq here.running
  rw [hmachine]
  refine ⟨rfl, ?_, ?_, here.running⟩
  · change last.steps + 1 = _
    rw [hsteps.steps_eq]
    omega
  · rw [← hsteps.program_eq, here.instruction]
    rfl

-- A program and its first instructions, each on a new machine. If the run of the whole program
-- comes to instruction `size`, the other one ends there as if it had halted, with what had been
-- printed and with the stack before that instruction. Otherwise the two runs do not differ. No run
-- executes more instructions than there are, and one with a fault ends at the last of those it has
-- executed.
theorem run_first_instructions (b : Bytecode) (size : Nat) (sink : Sink)
    (profile : Option Profile) :
    let m : Machine := { load b with sink, profile }
    let whole := m.run
    let first := Machine.run { load (b.cut size) with sink, profile }
    (size < whole.machine.steps →
      first.error = none ∧ first.machine.halted = true ∧ first.machine.pc = size ∧
      first.machine.steps = size ∧ first.output <+: whole.output ∧
      ∃ last i, Steps size m first.output last ∧ last.At i ∧ last.pc = size ∧
        first.machine.stack = last.stack ∧ whole = last.run.after first.output) ∧
    (whole.machine.steps ≤ size →
      first.output = whole.output ∧ first.error = whole.error ∧
      first.machine = whole.machine.cut size) ∧
    whole.machine.steps ≤ b.code.length ∧
    ∀ fault pc op, whole.error = some (.fault fault pc op) →
      whole.machine.pc = pc ∧ whole.machine.steps = pc + 1 ∧
      b.code[pc]?.map Instruction.op = some op ∧ whole.machine.halted = false := by
  intro m whole first
  have hwhole : Execution m whole := execution_run m
  refine ⟨fun hlt => ?_, fun hle => ?_, ?_, fun fault pc op herror => ?_⟩
  · have hn : m.steps + size < whole.machine.steps := by
      change 0 + size < _
      omega
    obtain ⟨printed, last, i, hsteps, here⟩ := hwhole.exists_steps hn
    have hpc : last.pc = size := (hsteps.pc_eq here.running).trans (Nat.zero_add size)
    have hcount : last.steps = size := hsteps.steps_eq.trans (Nat.zero_add size)
    have hfirst : first = ⟨{ last.cut size with halted := true }, printed, none⟩ := by
      have hrun := hsteps.run_cut here
      rw [show m.pc + size = size from Nat.zero_add size] at hrun
      exact hrun
    have hrest : whole = last.run.after printed := hsteps.run_eq
    rw [hfirst]
    refine ⟨rfl, rfl, hpc, hcount, ?_, last, i, hsteps, here, hpc, rfl, hrest⟩
    rw [hrest]
    exact List.prefix_append printed last.run.output
  · have hcut : Execution (m.cut size) (whole.cut size) := by
      refine hwhole.cut ?_
      change whole.machine.steps ≤ 0 + (size - 0)
      omega
    have hfirst : whole.cut size = first := hcut.eq_run
    rw [← hfirst]
    exact ⟨rfl, rfl, rfl⟩
  · have hlength := hwhole.steps_le_length
    change _ ≤ 0 + (b.code.length - 0) at hlength
    omega
  · obtain ⟨hpc, hsteps, hop, hhalted⟩ := run_fault herror
    refine ⟨hpc, ?_, hop, hhalted⟩
    rw [hsteps]
    change 0 + (pc - 0) + 1 = pc + 1
    omega

end Machine

end Tuga
