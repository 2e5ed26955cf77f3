import Tuga.Proofs.Machine.Code

namespace Tuga.Machine

def Outcome.after (o : Outcome) (printed : Text) : Outcome :=
  { o with output := printed ++ o.output }

theorem Outcome.after_after (o : Outcome) (first second : Text) :
    (o.after second).after first = o.after (first ++ second) := by
  simp [after]

def passed (m : Machine) (code : List Instruction) (stack : Stack) : Machine :=
  { m with
    pc := m.pc + code.length
    stack
    steps := m.steps + code.length
    profile := m.profile.map fun p => code.foldl (fun p i => p.record i.op) p }

theorem passed_nil (m : Machine) : m.passed [] m.stack = m := by
  simp [passed]

theorem passed_append (m : Machine) (code code' : List Instruction) (stack last : Stack) :
    m.passed (code ++ code') last = (m.passed code stack).passed code' last := by
  simp [passed, Nat.add_assoc, Function.comp_def]

variable {program : Bytecode} {fault : Fault} {code code' : List Instruction} {m : Machine}

section Step

variable {i : Instruction} {v : Value} {stack : Stack}

theorem follow_next (hi : execute m.program i m.stack = .ok .next stack)
    (rest : List Instruction) : m.follow (i :: rest) = (m.passed [i] stack).follow rest := by
  have hm : execute (m.dispatch i.op).program i (m.dispatch i.op).stack = .ok .next stack := hi
  rw [Machine.follow, hm]
  rfl

theorem follow_error (hi : execute m.program i m.stack = .error fault stack)
    (rest : List Instruction) :
    m.follow (i :: rest) =
      ⟨{ m.dispatch i.op with stack }, [], some (.fault fault m.pc i.op)⟩ := by
  have hm : execute (m.dispatch i.op).program i (m.dispatch i.op).stack = .error fault stack := hi
  rw [Machine.follow, hm]
  rfl

theorem follow_print (hi : execute m.program i m.stack = .ok (.print v) stack)
    (hroom : m.sink.room = none) (rest : List Instruction) :
    m.follow (i :: rest) = ((m.passed [i] stack).follow rest).after (v.render ++ [10]) := by
  have hm : execute (m.dispatch i.op).program i (m.dispatch i.op).stack = .ok (.print v) stack := hi
  have hsink : (m.dispatch i.op).sink.write? = some (m.dispatch i.op).sink := by
    rw [Sink.write?, show (m.dispatch i.op).sink.room = none from hroom]
  rw [Machine.follow, hm]
  simp only [hsink]
  simp [Outcome.after, passed, dispatch, advance]

theorem follow_halt (rest : List Instruction) :
    m.follow (.of .halt :: rest) =
      ⟨{ m.dispatch Operation.halt.code with halted := true }, [], none⟩ := by
  rfl

end Step

theorem Runs.follow {stack last : Stack} (h : Runs program code stack last)
    (hprogram : m.program = program) (hstack : m.stack = stack) (rest : List Instruction) :
    m.follow (code ++ rest) = (m.passed code last).follow rest := by
  induction h generalizing m with
  | nil stack =>
      subst hstack
      rw [passed_nil, List.nil_append]
  | @cons i code stack next last hi _ ih =>
      rw [← hprogram, ← hstack] at hi
      rw [List.cons_append, follow_next hi, ih (m := m.passed [i] next) hprogram rfl,
        ← passed_append, List.singleton_append]

theorem Faults.follow {stack : Stack} (h : Faults program fault code stack)
    (hprogram : m.program = program) (hstack : m.stack = stack) (rest : List Instruction) :
    ∃ n i stopped, code[n]? = some i ∧ fault.RaisedBy i.op ∧ stopped.pc = m.pc + n ∧
      stopped.halted = m.halted ∧
      m.follow (code ++ rest) = ⟨stopped, [], some (.fault fault (m.pc + n) i.op)⟩ := by
  induction h generalizing m with
  | @here i code stack left hi hraised =>
      rw [← hprogram, ← hstack] at hi
      refine ⟨0, i, { m.dispatch i.op with stack := left }, rfl, hraised, rfl, rfl, ?_⟩
      exact follow_error hi (code ++ rest)
  | @later i code stack next hi _ ih =>
      rw [← hprogram, ← hstack] at hi
      obtain ⟨n, j, stopped, hj, hraised, hpc, hhalted, hfollow⟩ :=
        ih (m := m.passed [i] next) hprogram rfl
      have hadd : (m.passed [i] next).pc + n = m.pc + (n + 1) := by
        change m.pc + 1 + n = m.pc + (n + 1)
        omega
      rw [hadd] at hpc hfollow
      refine ⟨n + 1, j, stopped, by simpa using hj, hraised, hpc, hhalted, ?_⟩
      rw [List.cons_append, follow_next hi, hfollow]

-- A machine between two statements.
structure Ready (program : Bytecode) (m : Machine) : Prop where
  program : m.program = program
  stack : m.stack = []
  room : m.sink.room = none

theorem Ready.passed (h : Ready program m) : Ready program (m.passed code []) :=
  ⟨h.program, rfl, h.room⟩

-- Code that takes a ready machine through statements with the given values, up to a failure if
-- there is one.
structure Prints (program : Bytecode) (code : List Instruction) (values : List Value)
    (failure? : Option Failure) : Prop where
  finishes : failure? = none → ∀ m : Machine, Ready program m → ∀ rest,
    m.follow (code ++ rest) = ((m.passed code []).follow rest).after (Value.lines values)
  stops : ∀ failure, failure? = some failure → ∃ fault, failure.fault? = some fault ∧
    ∀ m : Machine, Ready program m → ∀ rest, ∃ n i stopped, code[n]? = some i ∧
      fault.RaisedBy i.op ∧ stopped.pc = m.pc + n ∧ stopped.halted = m.halted ∧
      m.follow (code ++ rest) =
        ⟨stopped, Value.lines values, some (.fault fault (m.pc + n) i.op)⟩

namespace Prints

theorem nil : Prints program [] [] none where
  finishes := by
    intro _ m hm rest
    have hpassed : m.passed [] [] = m := hm.stack ▸ passed_nil m
    rw [hpassed]
    rfl
  stops := by simp

theorem error {failure : Failure} (h : Computes program code [] (.error failure)) :
    Prints program (code ++ code') [] (some failure) where
  finishes := by simp
  stops := by
    rintro _ ⟨rfl⟩
    obtain ⟨fault, hfault, hfaults⟩ := h.fault failure rfl
    refine ⟨fault, hfault, fun m hm rest => ?_⟩
    exact (hfaults []).append.follow hm.program hm.stack rest

theorem cons {i : Instruction} {v : Value} {values : List Value} {failure? : Option Failure}
    (h : Computes program code [] (.ok v)) (hi : execute program i [v] = .ok (.print v) [])
    (h' : Prints program code' values failure?) :
    Prints program (code ++ i :: code') (v :: values) failure? := by
  have hfirst : ∀ m : Machine, Ready program m → ∀ rest,
      m.follow (code ++ i :: code' ++ rest) =
        ((m.passed (code ++ [i]) []).follow (code' ++ rest)).after (v.render ++ [10]) := by
    intro m hm rest
    have hm' : execute (m.passed code [v]).program i (m.passed code [v]).stack =
        .ok (.print v) [] := by
      rw [← hi, ← hm.program]
      rfl
    rw [List.append_assoc, (h.value v rfl []).follow hm.program hm.stack, List.cons_append,
      follow_print hm' hm.room, ← passed_append]
  constructor
  · intro hnone m hm rest
    rw [hfirst m hm, h'.finishes hnone _ hm.passed, ← passed_append, Outcome.after_after,
      List.append_assoc, List.singleton_append]
    rfl
  · intro failure hfailure
    obtain ⟨fault, hfault, hstops⟩ := h'.stops failure hfailure
    refine ⟨fault, hfault, fun m hm rest => ?_⟩
    obtain ⟨n, j, stopped, hj, hraised, hpc, hhalted, hfollow⟩ := hstops _ hm.passed rest
    have hadd : (m.passed (code ++ [i]) []).pc + n = m.pc + (code.length + 1 + n) := by
      simp [Machine.passed, Nat.add_assoc]
    refine ⟨code.length + 1 + n, j, stopped, ?_, hraised, hpc.trans hadd, hhalted, ?_⟩
    · rw [List.append_cons, List.getElem?_append_right (by simp)]
      simpa using hj
    · rw [hfirst m hm, hfollow, hadd]
      rfl

theorem ready_load (program : Bytecode) : Ready program (load program) :=
  ⟨rfl, rfl, rfl⟩

variable {values : List Value} {failure : Failure}

theorem stack_eq_nil {failure? : Option Failure} (h : Prints program code values failure?)
    (herror : ((load program).follow code).error = none) :
    ((load program).follow code).machine.stack = [] := by
  rw [← List.append_nil code] at herror ⊢
  cases failure? with
  | none =>
      rw [h.finishes rfl _ (ready_load program)]
      rfl
  | some failure =>
      obtain ⟨fault, -, hstops⟩ := h.stops failure rfl
      obtain ⟨n, i, stopped, -, -, -, -, hfollow⟩ := hstops _ (ready_load program) []
      rw [hfollow] at herror
      cases herror

theorem run_load (hcode : program.code = code ++ [.of .halt]) :
    (load program).run = (load program).follow (code ++ [.of .halt]) := by
  rw [run, if_neg (by simp [load]), ← hcode]
  rfl

theorem run_finishes (h : Prints program code values none)
    (hcode : program.code = code ++ [.of .halt]) :
    (load program).run =
      ⟨{ program, pc := code.length, halted := true, steps := code.length + 1 },
        Value.lines values, none⟩ := by
  rw [run_load hcode, h.finishes rfl _ (ready_load program), follow_halt]
  simp [Outcome.after, dispatch, Machine.passed, load]

theorem run_stops (h : Prints program code values (some failure))
    (hcode : program.code = code ++ [.of .halt]) :
    ∃ fault pc i stopped, failure.fault? = some fault ∧ program.code[pc]? = some i ∧
      fault.RaisedBy i.op ∧ stopped.pc = pc ∧ stopped.halted = false ∧
      (load program).run = ⟨stopped, Value.lines values, some (.fault fault pc i.op)⟩ := by
  obtain ⟨fault, hfault, hstops⟩ := h.stops failure rfl
  obtain ⟨n, i, stopped, hi, hraised, hpc, hhalted, hfollow⟩ :=
    hstops _ (ready_load program) [.of .halt]
  have hzero : (load program).pc + n = n := Nat.zero_add n
  rw [hzero] at hpc hfollow
  refine ⟨fault, n, i, stopped, hfault, ?_, hraised, hpc, hhalted, (run_load hcode).trans hfollow⟩
  obtain ⟨hlt, -⟩ := List.getElem?_eq_some_iff.mp hi
  rw [hcode, List.getElem?_append_left hlt, hi]

end Prints

end Tuga.Machine
