import Tuga.Proofs.Machine.Stepping

namespace Tuga.Machine

-- The values that code prints from a stack on, if all of them can be written.
def printed (program : Bytecode) : List Instruction → Stack → List Value
  | [], _ => []
  | i :: code, stack =>
    match execute program i stack with
    | .ok .next stack => printed program code stack
    | .ok (.print value) stack => value :: printed program code stack
    | .ok .halt _ => []
    | .error _ _ => []

-- The values that a machine is going to print.
def ahead (m : Machine) : List Value :=
  if m.halted then [] else printed m.program (m.program.code.drop m.pc) m.stack

def limited (m : Machine) (room : Nat) : Machine := { m with sink := ⟨some room⟩ }

def Outcome.limited (o : Outcome) (room : Nat) : Outcome :=
  { o with machine := o.machine.limited room }

section Effects

-- What work does besides changing the stack, if it does not fail.
def Yields (kind : Effect → Prop) (work : Work Effect) : Prop :=
  ∀ stack effect after, work stack = .ok effect after → kind effect

variable {α : Type} {kind : Effect → Prop}

theorem yields_push (value : Value) : Yields (· = .next) (push value) := by
  rintro stack effect after ⟨⟩
  rfl

theorem yields_throw (fault : Fault) : Yields kind (throw fault) := by
  intro stack effect after h
  cases h

theorem yields_bind {work : Work α} {next : α → Work Effect} (h : ∀ a, Yields kind (next a)) :
    Yields kind (work >>= next) := by
  intro stack effect after hwork
  cases hfirst : work stack with
  | ok a left =>
      rw [work_bind_of_ok hfirst] at hwork
      exact h a left effect after hwork
  | error fault left =>
      rw [work_bind_of_error hfirst] at hwork
      cases hwork

theorem yields_binary (operand : Work α) (f : α → α → Except Fault Value) :
    Yields (· = .next) (binary operand f) := by
  refine yields_bind fun right => yields_bind fun left => ?_
  split
  · exact yields_push _
  · exact yields_throw _

theorem yields_loadConstant (program : Bytecode) (tag : ConstantKind) (value : Constant → Value)
    (index : Int32) : Yields (· = .next) (loadConstant program tag value index) := by
  rw [loadConstant]
  split
  · split
    · exact yields_push _
    · exact yields_throw _
  · exact yields_throw _

theorem yields_perform (program : Bytecode) (arg : Int32) (op : Operation) :
    Yields (fun effect => op.isPrint = true ↔ ∃ value, effect = .print value)
      (perform program arg op) := by
  have hsilent : ∀ {op : Operation} {work : Work Effect}, op.isPrint = false →
      Yields (· = .next) work →
      Yields (fun effect => op.isPrint = true ↔ ∃ value, effect = .print value) work := by
    intro op work hop hwork stack effect after h
    rw [hwork stack effect after h, hop]
    simp
  cases op with
  | iconst | tconst | fconst => exact hsilent rfl (yields_push _)
  | dconst | sconst => exact hsilent rfl (yields_loadConstant _ _ _ _)
  | iuminus | itod | itos | duminus | dtos | not | btos =>
      exact hsilent rfl (yields_bind fun v => yields_push _)
  | iprint | dprint | sprint | bprint =>
      refine yields_bind fun v => ?_
      rintro stack effect after ⟨⟩
      exact iff_of_true rfl ⟨_, rfl⟩
  | halt =>
      rintro stack effect after ⟨⟩
      simp [Operation.isPrint]
  | _ =>
      refine hsilent rfl ?_
      rw [perform]
      exact yields_binary _ _

theorem isPrint_iff {b : Bytecode} {i : Instruction} {stack after : Stack} {effect : Effect}
    (h : execute b i stack = .ok effect after) :
    i.op.isPrint = true ↔ ∃ value, effect = .print value := by
  rw [execute] at h
  rw [Opcode.isPrint]
  cases hop : i.op.operation? with
  | none =>
      rw [hop] at h
      cases h
  | some op =>
      rw [hop] at h
      exact yields_perform b i.arg op stack effect after h

end Effects

variable {m next last stopped : Machine} {i : Instruction} {text : Text} {n k : Nat}
  {error : RunError} {o : Outcome}

theorem ahead_of_halted (h : m.halted = true) : m.ahead = [] := if_pos h

theorem At.ahead_eq (here : m.At i) :
    m.ahead = printed m.program (i :: m.program.code.drop (m.pc + 1)) m.stack := by
  obtain ⟨hlt, hi⟩ := List.getElem?_eq_some_iff.mp here.instruction
  rw [ahead, if_neg (by simp [here.running]), List.drop_eq_getElem_cons hlt, hi]

theorem ahead_of_finished (h : m.halted = false) (hlast : m.program.code[m.pc]? = none) :
    m.ahead = [] := by
  rw [ahead, if_neg (by simp [h]),
    List.drop_eq_nil_of_le (List.getElem?_eq_none_iff.mp hlast), printed]

-- Where output goes plays no part in which instruction is next.
theorem At.limited (here : m.At i) (n : Nat) : (m.limited n).At i :=
  ⟨here.running, here.instruction⟩

-- A step prints the first of the values ahead or none. With room for them the step is the same, and
-- one that finds no room stops the machine.
theorem Step.exists_values (h : m.Step text next) (hroom : m.sink.room = none) :
    ∃ values, m.ahead = values ++ next.ahead ∧ text = Value.lines values ∧
      next.sink.room = none ∧
      (∃ i, m.At i ∧ values.length = if i.op.isPrint then 1 else 0) ∧
      (∀ n, (m.limited (values.length + n)).Step text (next.limited n)) ∧
      ∀ n < values.length, n = 0 ∧ ∃ stopped, (m.limited n).Stops .writeFailed stopped := by
  cases h with
  | @next i stack here hi =>
      have hop : i.op.isPrint = false := by simpa using isPrint_iff hi
      refine ⟨[], ?_, rfl, hroom, ⟨i, here, by simp [hop]⟩, fun n => ?_, by simp⟩
      · rw [here.ahead_eq, printed, hi, ahead, if_neg (by simp [passed, here.running])]
        rfl
      · rw [List.length_nil, Nat.zero_add]
        exact .next (here.limited _) hi
  | @print i v stack sink here hi room =>
      have hop : i.op.isPrint = true := by simpa using isPrint_iff hi
      obtain rfl : m.sink = sink := by
        rw [Sink.write?, hroom] at room
        exact Option.some.inj room
      refine ⟨[v], ?_, ?_, hroom, ⟨i, here, by simp [hop]⟩, fun n => ?_, fun n hn => ?_⟩
      · rw [here.ahead_eq, printed, hi, ahead, if_neg (by simp [passed, here.running])]
        rfl
      · simp [Value.lines]
      · rw [List.length_singleton, Nat.add_comm]
        have hwrite : (m.limited (n + 1)).sink.write? = some ⟨some n⟩ := rfl
        exact .print (here.limited _) hi hwrite
      · obtain rfl : n = 0 := by simpa using hn
        exact ⟨rfl, _, .full (here.limited _) hi rfl⟩
  | @halt i stack here hi =>
      have hop : i.op.isPrint = false := by simpa using isPrint_iff hi
      refine ⟨[], ?_, rfl, hroom, ⟨i, here, by simp [hop]⟩, fun n => ?_, by simp⟩
      · rw [here.ahead_eq, printed, hi, ahead_of_halted rfl]
        rfl
      · rw [List.length_nil, Nat.zero_add]
        exact .halt (here.limited _) hi

theorem Stops.limited (h : m.Stops error stopped) (hroom : m.sink.room = none) :
    m.ahead = [] ∧ ∀ n, (m.limited n).Stops error (stopped.limited n) := by
  cases h with
  | @fault i fault stack here hi =>
      refine ⟨?_, fun n => .fault (here.limited _) hi⟩
      rw [here.ahead_eq, printed, hi]
  | full here hi room =>
      rw [Sink.write?, hroom] at room
      cases room

namespace Execution

-- A run prints the values ahead, and with room for them it is the same.
theorem limited (h : Execution m o) (hroom : m.sink.room = none) :
    o.output = Value.lines m.ahead ∧
      ∀ n, Execution (m.limited (m.ahead.length + n)) (o.limited n) := by
  induction h with
  | halted halted =>
      rw [ahead_of_halted halted]
      refine ⟨rfl, fun n => ?_⟩
      rw [List.length_nil, Nat.zero_add]
      exact .halted halted
  | @finished m running last =>
      rw [ahead_of_finished running last]
      refine ⟨rfl, fun n => ?_⟩
      rw [List.length_nil, Nat.zero_add]
      exact .finished running last
  | @step m next text o first _ ih =>
      obtain ⟨values, hahead, rfl, hnext, -, hstep, -⟩ := first.exists_values hroom
      obtain ⟨houtput, hrest⟩ := ih hnext
      refine ⟨?_, fun n => ?_⟩
      · rw [Outcome.after, houtput, hahead]
        simp [Value.lines]
      · rw [hahead, List.length_append, Nat.add_assoc]
        exact .step (hstep _) (hrest n)
  | stopped stops =>
      obtain ⟨hahead, hstops⟩ := stops.limited hroom
      rw [hahead]
      refine ⟨rfl, fun n => ?_⟩
      rw [List.length_nil, Nat.zero_add]
      exact .stopped (hstops n)

theorem exists_prints (h : Execution m o) (hroom : m.sink.room = none) :
    ∃ k last, Steps k m o.output last ∧
      ((m.program.code.drop m.pc).take k).countP (·.op.isPrint) = m.ahead.length ∧
      o.machine.steps = m.steps + k + if o.error.isSome then 1 else 0 := by
  induction h with
  | @halted m halted => exact ⟨0, m, .zero m, by simp [ahead_of_halted halted], rfl⟩
  | @finished m running last => exact ⟨0, m, .zero m, by simp [ahead_of_finished running last], rfl⟩
  | @step m next text o first _ ih =>
      obtain ⟨values, hahead, -, hnext, ⟨i, here, hvalues⟩, -⟩ := first.exists_values hroom
      obtain ⟨k, last, hsteps, hcount, hk⟩ := ih hnext
      refine ⟨k + 1, last, .succ first hsteps, ?_, ?_⟩
      · rw [Steps.take_succ here first hsteps, List.countP_cons, hcount, hahead,
          List.length_append, hvalues, Nat.add_comm]
      · have hfirst := first.steps_eq
        change o.machine.steps = m.steps + (k + 1) + if o.error.isSome then 1 else 0
        omega
  | @stopped m stopped error stops =>
      refine ⟨0, m, .zero m, by simp [(stops.limited hroom).1], ?_⟩
      exact stops.steps_eq

-- A run without room for all values makes steps up to an instruction that cannot write.
theorem exists_full (h : Execution m o) (hroom : m.sink.room = none) (hn : n < m.ahead.length) :
    ∃ k last stopped, Steps k (m.limited n) (Value.lines (m.ahead.take n)) last ∧
      last.Stops .writeFailed stopped ∧
      ((m.program.code.drop m.pc).take k).countP (·.op.isPrint) = n := by
  induction h generalizing n with
  | halted halted =>
      rw [ahead_of_halted halted] at hn
      cases hn
  | finished running last =>
      rw [ahead_of_finished running last] at hn
      cases hn
  | @step m next text o first _ ih =>
      obtain ⟨values, hahead, rfl, hnext, ⟨i, here, hvalues⟩, hstep, hfull⟩ :=
        first.exists_values hroom
      rw [hahead] at hn ⊢
      by_cases hlt : n < values.length
      · obtain ⟨rfl, stopped, hstops⟩ := hfull n hlt
        exact ⟨0, _, stopped, .zero _, hstops, rfl⟩
      · obtain ⟨n, rfl⟩ := Nat.exists_eq_add_of_le (Nat.le_of_not_lt hlt)
        rw [List.length_append] at hn
        obtain ⟨k, last, stopped, hsteps, hstops, hcount⟩ := ih hnext (n := n) (by omega)
        refine ⟨k + 1, last, stopped, ?_, hstops, ?_⟩
        · have hlines : Value.lines ((values ++ next.ahead).take (values.length + n)) =
              Value.lines values ++ Value.lines (next.ahead.take n) := by
            rw [List.take_length_add_append]
            simp [Value.lines]
          rw [hlines]
          exact .succ (hstep n) hsteps
        · have htake := Steps.take_succ (here.limited _) (hstep n) hsteps
          change (m.program.code.drop m.pc).take (k + 1) =
            i :: (next.program.code.drop next.pc).take k at htake
          rw [htake, List.countP_cons, hcount, hvalues, Nat.add_comm]
  | stopped stops =>
      rw [(stops.limited hroom).1] at hn
      cases hn

end Execution

theorem Stops.exists_print (h : m.Stops .writeFailed stopped) :
    ∃ i, m.At i ∧ i.op.isPrint = true ∧ stopped.pc = m.pc ∧ stopped.halted = false := by
  cases h with
  | full here hi => exact ⟨_, here, (isPrint_iff hi).mpr ⟨_, rfl⟩, rfl, here.running⟩

-- A program on two new machines, one of which can write without a limit and the other only `n`
-- times. The first prints a line for each of the values, with one printing instruction for each of
-- them. If there are at most `n` values, nothing else differs. Otherwise the second machine writes
-- the first `n` lines and stops at the printing instruction after those of them, which is the last
-- one that it dispatches, with an error that is no fault.
theorem run_limited (b : Bytecode) (profile : Option Profile) (n : Nat) :
    let m : Machine := { load b with profile }
    let values := printed b b.code []
    let free := m.run
    let full := (m.limited n).run
    free.output = Value.lines values ∧
    (∃ k, (b.code.take k).countP (·.op.isPrint) = values.length ∧
      free.machine.steps = k + if free.error.isSome then 1 else 0) ∧
    (values.length ≤ n →
      full.output = free.output ∧ full.error = free.error ∧
      full.machine = free.machine.limited (n - values.length)) ∧
    (n < values.length →
      full.output = Value.lines (values.take n) ∧ full.error = some .writeFailed ∧
      full.machine.halted = false ∧ full.machine.steps = full.machine.pc + 1 ∧
      (b.code.take full.machine.pc).countP (·.op.isPrint) = n ∧
      ∃ i, b.code[full.machine.pc]? = some i ∧ i.op.isPrint = true) := by
  intro m values free full
  have hfree : Execution m free := execution_run m
  have hroom : m.sink.room = none := rfl
  obtain ⟨houtput, hlimited⟩ := hfree.limited hroom
  refine ⟨houtput, ?_, fun hle => ?_, fun hlt => ?_⟩
  · obtain ⟨k, -, -, hcount, hsteps⟩ := hfree.exists_prints hroom
    refine ⟨k, hcount, ?_⟩
    rw [hsteps]
    change 0 + k + _ = k + _
    omega
  · have hfull : free.limited (n - values.length) = full := by
      have hrun := (hlimited (n - values.length)).eq_run
      rwa [show m.ahead.length + (n - values.length) = n from Nat.add_sub_of_le hle] at hrun
    rw [← hfull]
    exact ⟨rfl, rfl, rfl⟩
  · obtain ⟨k, last, stopped, hsteps, hstops, hcount⟩ := hfree.exists_full hroom hlt
    obtain ⟨i, here, hprint, hpc, hhalted⟩ := hstops.exists_print
    have hfull : full = ⟨stopped, Value.lines (values.take n), some .writeFailed⟩ :=
      hsteps.run_of_stops hstops
    have hk : stopped.pc = k := by
      rw [hpc, hsteps.pc_eq here.running]
      exact Nat.zero_add k
    have hcode : last.program = b := hsteps.program_eq
    rw [hfull]
    refine ⟨rfl, rfl, hhalted, ?_, ?_, i, ?_, hprint⟩
    · rw [hstops.steps_eq, hsteps.steps_eq, hk]
      exact congrArg (· + 1) (Nat.zero_add k)
    · rw [hk]
      exact hcount
    · rw [hpc, ← hcode]
      exact here.instruction

end Tuga.Machine
