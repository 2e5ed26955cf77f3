import Tuga.Proofs.Machine.Retry

namespace Tuga.Machine

-- A machine executes its next instruction without an error, prints a text and comes to another.
inductive Step (m : Machine) : Text → Machine → Prop
  | next {i : Instruction} {stack : Stack} (here : m.At i)
      (hi : execute m.program i m.stack = .ok .next stack) : Step m [] (m.passed [i] stack)
  | print {i : Instruction} {v : Value} {stack : Stack} {sink : Sink} (here : m.At i)
      (hi : execute m.program i m.stack = .ok (.print v) stack)
      (room : m.sink.write? = some sink) :
      Step m (v.render ++ [10]) { m.passed [i] stack with sink }
  | halt {i : Instruction} {stack : Stack} (here : m.At i)
      (hi : execute m.program i m.stack = .ok .halt stack) :
      Step m [] { m.dispatch i.op with stack, halted := true }

-- A machine is stopped at its next instruction by an error.
inductive Stops (m : Machine) : RunError → Machine → Prop
  | fault {i : Instruction} {fault : Fault} {stack : Stack} (here : m.At i)
      (hi : execute m.program i m.stack = .error fault stack) :
      Stops m (.fault fault m.pc i.op) { m.dispatch i.op with stack }
  | full {i : Instruction} {v : Value} {stack : Stack} (here : m.At i)
      (hi : execute m.program i m.stack = .ok (.print v) stack) (room : m.sink.write? = none) :
      Stops m .writeFailed { m.dispatch i.op with stack }

-- A number of steps, with what they print.
inductive Steps : Nat → Machine → Text → Machine → Prop
  | zero (m : Machine) : Steps 0 m [] m
  | succ {n : Nat} {m next last : Machine} {printed more : Text} (first : m.Step printed next)
      (rest : Steps n next more last) : Steps (n + 1) m (printed ++ more) last

-- The whole way of a machine to an outcome.
inductive Execution : Machine → Outcome → Prop
  | halted {m : Machine} (halted : m.halted = true) : Execution m ⟨m, [], none⟩
  | finished {m : Machine} (running : m.halted = false)
      (last : m.program.code[m.pc]? = none) : Execution m ⟨{ m with halted := true }, [], none⟩
  | step {m next : Machine} {printed : Text} {o : Outcome} (first : m.Step printed next)
      (rest : Execution next o) : Execution m (o.after printed)
  | stopped {m stopped : Machine} {error : RunError} (stops : m.Stops error stopped) :
      Execution m ⟨stopped, [], some error⟩

variable {m next last stopped : Machine} {i : Instruction} {printed : Text} {n : Nat}
  {error : RunError} {o : Outcome}

section Run

theorem run_eq_follow (h : m.halted = false) :
    m.run = m.follow (m.program.code.drop m.pc) := by
  rw [run, if_neg (by simp [h])]

theorem run_of_halted (h : m.halted = true) : m.run = ⟨m, [], none⟩ := if_pos h

theorem run_of_finished (h : m.halted = false) (hlast : m.program.code[m.pc]? = none) :
    m.run = ⟨{ m with halted := true }, [], none⟩ := by
  rw [run_eq_follow h, List.drop_eq_nil_of_le (List.getElem?_eq_none_iff.mp hlast), follow]

theorem Step.run_eq (h : m.Step printed next) : m.run = next.run.after printed := by
  cases h with
  | next here hi =>
      rw [here.run_eq_follow, follow_next hi, run_eq_follow (by exact here.running)]
      rfl
  | @print i v stack sink here hi room =>
      have hm : execute (m.dispatch i.op).program i (m.dispatch i.op).stack =
          .ok (.print v) stack := hi
      have hroom : (m.dispatch i.op).sink.write? = some sink := room
      rw [here.run_eq_follow, follow, hm, run_eq_follow (by exact here.running)]
      simp only [hroom, Outcome.after, List.append_assoc, List.singleton_append]
      rfl
  | @halt i stack here hi =>
      have hm : execute (m.dispatch i.op).program i (m.dispatch i.op).stack = .ok .halt stack := hi
      rw [here.run_eq_follow, follow, hm, run_of_halted rfl]
      rfl

theorem Stops.run_eq (h : m.Stops error stopped) : m.run = ⟨stopped, [], some error⟩ := by
  cases h with
  | fault here hi => exact here.run_eq hi
  | @full i v stack here hi room =>
      have hm : execute (m.dispatch i.op).program i (m.dispatch i.op).stack =
          .ok (.print v) stack := hi
      have hroom : (m.dispatch i.op).sink.write? = none := room
      rw [here.run_eq_follow, follow, hm]
      simp only [hroom]

end Run

theorem At.step_or_stops (here : m.At i) :
    (∃ printed next, m.Step printed next) ∨ ∃ error stopped, m.Stops error stopped := by
  cases hi : execute m.program i m.stack with
  | error fault stack => exact .inr ⟨_, _, .fault here hi⟩
  | ok effect stack =>
      cases effect with
      | next => exact .inl ⟨_, _, .next here hi⟩
      | halt => exact .inl ⟨_, _, .halt here hi⟩
      | print v =>
          cases room : m.sink.write? with
          | none => exact .inr ⟨_, _, .full here hi room⟩
          | some sink => exact .inl ⟨_, _, .print here hi room⟩

namespace Step

theorem exists_at (h : m.Step printed next) : ∃ i, m.At i := by
  cases h with
  | next here | print here | halt here => exact ⟨_, here⟩

theorem running (h : m.Step printed next) : m.halted = false := by
  obtain ⟨i, here⟩ := h.exists_at
  exact here.running

theorem program_eq (h : m.Step printed next) : next.program = m.program := by
  cases h <;> rfl

theorem steps_eq (h : m.Step printed next) : next.steps = m.steps + 1 := by
  cases h <;> rfl

theorem goes_on_or_halts (h : m.Step printed next) :
    (next.halted = false ∧ next.pc = m.pc + 1) ∨ (next.halted = true ∧ next.pc = m.pc) := by
  cases h with
  | next here | print here => exact .inl ⟨here.running, rfl⟩
  | halt => exact .inr ⟨rfl, rfl⟩

end Step

namespace Stops

theorem exists_at (h : m.Stops error stopped) : ∃ i, m.At i := by
  cases h with
  | fault here | full here => exact ⟨_, here⟩

theorem steps_eq (h : m.Stops error stopped) : stopped.steps = m.steps + 1 := by
  cases h <;> rfl

end Stops

theorem At.lt_length (here : m.At i) : m.pc < m.program.code.length :=
  (List.getElem?_eq_some_iff.mp here.instruction).1

-- Induction on the instructions that are left: a step leaves one less, or halts.
theorem execution_run (m : Machine) : Execution m m.run := by
  induction hleft : m.program.code.length - m.pc using Nat.strongRecOn generalizing m with
  | _ left ih =>
      cases hhalted : m.halted with
      | true => exact run_of_halted hhalted ▸ .halted hhalted
      | false =>
          cases hi : m.program.code[m.pc]? with
          | none => exact run_of_finished hhalted hi ▸ .finished hhalted hi
          | some i =>
              have here : m.At i := ⟨hhalted, hi⟩
              rcases here.step_or_stops with ⟨printed, next, hstep⟩ | ⟨error, stopped, hstops⟩
              · rw [hstep.run_eq]
                refine .step hstep ?_
                rcases hstep.goes_on_or_halts with ⟨-, hpc⟩ | ⟨hnext, -⟩
                · have hlt := here.lt_length
                  refine ih _ ?_ next rfl
                  rw [hstep.program_eq]
                  omega
                · exact run_of_halted hnext ▸ .halted hnext
              · exact hstops.run_eq ▸ .stopped hstops

namespace Execution

theorem eq_run (h : Execution m o) : o = m.run := by
  induction h with
  | halted halted => exact (run_of_halted halted).symm
  | finished running last => exact (run_of_finished running last).symm
  | step first _ ih => rw [first.run_eq, ih]
  | stopped stops => exact stops.run_eq.symm

theorem exists_stops (h : Execution m o) (herror : o.error = some error) :
    ∃ n last, Steps n m o.output last ∧ last.Stops error o.machine := by
  induction h with
  | halted | finished => cases herror
  | step first _ ih =>
      obtain ⟨n, last, hsteps, hstops⟩ := ih herror
      exact ⟨n + 1, last, .succ first hsteps, hstops⟩
  | stopped stops =>
      cases herror
      exact ⟨0, _, .zero _, stops⟩

theorem eq_of_halted (h : Execution m o) (hm : m.halted = true) : o = ⟨m, [], none⟩ := by
  rw [h.eq_run, run_of_halted hm]

theorem steps_le (h : Execution m o) : m.steps ≤ o.machine.steps := by
  induction h with
  | halted | finished => exact Nat.le_refl _
  | @step m next printed o first _ ih =>
      have hsteps := first.steps_eq
      change m.steps ≤ o.machine.steps
      omega
  | @stopped m stopped error stops =>
      change m.steps ≤ stopped.steps
      rw [stops.steps_eq]
      omega

-- No instruction is executed twice.
theorem steps_le_length (h : Execution m o) :
    o.machine.steps ≤ m.steps + (m.program.code.length - m.pc) := by
  induction h with
  | halted | finished => exact Nat.le_add_right _ _
  | @step m next printed o first rest ih =>
      obtain ⟨i, here⟩ := first.exists_at
      have hlt := here.lt_length
      have hsteps := first.steps_eq
      change o.machine.steps ≤ _
      rcases first.goes_on_or_halts with ⟨-, hpc⟩ | ⟨hnext, -⟩
      · rw [first.program_eq] at ih
        omega
      · have hlast : o.machine.steps = next.steps := by rw [rest.eq_of_halted hnext]
        omega
  | @stopped m stopped error stops =>
      obtain ⟨i, here⟩ := stops.exists_at
      have hlt := here.lt_length
      change stopped.steps ≤ _
      rw [stops.steps_eq]
      omega

-- Each instruction that is executed is reached by as many steps as are counted before it.
theorem exists_steps (h : Execution m o) (hn : m.steps + n < o.machine.steps) :
    ∃ printed last i, Steps n m printed last ∧ last.At i := by
  induction h generalizing n with
  | @halted m | @finished m =>
      change m.steps + n < m.steps at hn
      omega
  | @step m next printed o first rest ih =>
      cases n with
      | zero =>
          obtain ⟨i, here⟩ := first.exists_at
          exact ⟨[], m, i, .zero m, here⟩
      | succ n =>
          have hsteps := first.steps_eq
          change m.steps + (n + 1) < o.machine.steps at hn
          obtain ⟨more, last, i, hrest, here⟩ := ih (n := n) (by omega)
          exact ⟨printed ++ more, last, i, .succ first hrest, here⟩
  | @stopped m stopped error stops =>
      change m.steps + n < stopped.steps at hn
      rw [stops.steps_eq] at hn
      obtain rfl : n = 0 := by omega
      obtain ⟨i, here⟩ := stops.exists_at
      exact ⟨[], m, i, .zero m, here⟩

theorem exists_steps_of_ok (h : Execution m o) (hok : o.error = none) :
    ∃ n last, Steps n m o.output last ∧ last.stack = o.machine.stack ∧
      last.steps = o.machine.steps := by
  induction h with
  | @halted m | @finished m => exact ⟨0, m, .zero m, rfl, rfl⟩
  | step first _ ih =>
      obtain ⟨n, last, hsteps, hstack, hcount⟩ := ih hok
      exact ⟨n + 1, last, .succ first hsteps, hstack, hcount⟩
  | stopped => cases hok

end Execution

namespace Steps

theorem program_eq (h : Steps n m printed last) : last.program = m.program := by
  induction h with
  | zero => rfl
  | succ first _ ih => rw [ih, first.program_eq]

theorem steps_eq (h : Steps n m printed last) : last.steps = m.steps + n := by
  induction h with
  | zero => rfl
  | succ first _ ih =>
      rw [ih, first.steps_eq]
      omega

theorem run_eq (h : Steps n m printed last) : m.run = last.run.after printed := by
  induction h with
  | zero => rfl
  | succ first _ ih => rw [first.run_eq, ih, Outcome.after_after]

theorem run_of_stops (h : Steps n m printed last) (hstops : last.Stops error stopped) :
    m.run = ⟨stopped, printed, some error⟩ := by
  rw [h.run_eq, hstops.run_eq, Outcome.after, List.append_nil]

theorem eq_of_halted (h : Steps n m printed last) (hm : m.halted = true) : n = 0 ∧ last = m := by
  cases h with
  | zero => exact ⟨rfl, rfl⟩
  | succ first _ =>
      rw [first.running] at hm
      cases hm

-- The instructions of some steps are that of the first and those of the others: a step that halts
-- is the last one.
theorem take_succ {more : Text} (here : m.At i) (first : m.Step printed next)
    (rest : Steps n next more last) :
    (m.program.code.drop m.pc).take (n + 1) = i :: (next.program.code.drop next.pc).take n := by
  obtain ⟨hlt, hi⟩ := List.getElem?_eq_some_iff.mp here.instruction
  rw [List.drop_eq_getElem_cons hlt, hi, List.take_succ_cons, first.program_eq]
  rcases first.goes_on_or_halts with ⟨-, hpc⟩ | ⟨hhalted, -⟩
  · rw [hpc]
  · rw [(rest.eq_of_halted hhalted).1, List.take_zero, List.take_zero]

theorem pc_eq (h : Steps n m printed last) (hlast : last.halted = false) :
    last.pc = m.pc + n := by
  induction h with
  | zero => rfl
  | succ first rest ih =>
      rcases first.goes_on_or_halts with ⟨-, hpc⟩ | ⟨hnext, -⟩
      · rw [ih hlast, hpc]
        omega
      · obtain ⟨-, rfl⟩ := rest.eq_of_halted hnext
        rw [hnext] at hlast
        cases hlast

end Steps

-- A run that a fault ended has made steps up to the instruction that raised it.
theorem exists_steps_of_fault {fault : Fault} {pc : Nat} {op : Opcode}
    (h : m.run.error = some (.fault fault pc op)) :
    ∃ n last i left, Steps n m m.run.output last ∧ last.At i ∧ last.pc = pc ∧ i.op = op ∧
      execute m.program i last.stack = .error fault left ∧
      m.run.machine = { last.dispatch i.op with stack := left } := by
  obtain ⟨n, last, hsteps, hstops⟩ := (execution_run m).exists_stops h
  generalize m.run.machine = stopped at hstops ⊢
  cases hstops with
  | fault here hi =>
      rw [hsteps.program_eq] at hi
      exact ⟨n, last, _, _, hsteps, here, rfl, rfl, hi, rfl⟩

end Tuga.Machine
