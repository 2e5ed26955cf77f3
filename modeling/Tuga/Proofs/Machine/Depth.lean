import Tuga.Proofs.Bytecode.Layout
import Tuga.Proofs.Machine.Stepping

namespace Tuga

namespace Opcode

-- How many values the operation takes from the stack, none if the byte names no operation.
def pops (code : Opcode) : Nat := (code.operation?.map Operation.pops).getD 0

-- How many values the operation leaves on the stack, none if the byte names no operation.
def pushes (code : Opcode) : Nat := (code.operation?.map Operation.pushes).getD 0

end Opcode

-- By how much an instruction is listed to change the depth of the stack.
def Instruction.growth (i : Instruction) : Int := i.op.pushes - i.op.pops

-- The depth of the stack after the first instructions, as listed.
def Bytecode.depth (b : Bytecode) (n : Nat) : Int := ((b.code.take n).map Instruction.growth).sum

theorem Bytecode.isValid_of_decode {file : Text} {b : Bytecode} (h : decode file = .ok b) :
    ∀ i ∈ b.code, i.op.isValid = true := by
  obtain ⟨image, -, rfl⟩ := decode_eq_ok.mp h
  exact fun i hi => (image.plain i hi).1

namespace Machine

-- One stack is another with values on top of it replaced; what lies below is the same.
def Replaces (pops pushes : Nat) (before after : Stack) : Prop :=
  ∃ operands results rest, before = operands ++ rest ∧ after = results ++ rest ∧
    operands.length = pops ∧ results.length = pushes

-- Work that replaces values on top of every stack, or fails. It knows what to do, and finds no
-- value only where there are too few.
def Moves (pops pushes : Nat) (work : Work Effect) : Prop :=
  ∀ stack, (∃ effect after, work stack = .ok effect after ∧ Replaces pops pushes stack after) ∨
    ∃ fault left, work stack = .error fault left ∧ fault ≠ .unknownOpcode ∧
      (fault = .stackUnderflow → stack.length < pops)

namespace Replaces

variable {pops pushes : Nat} {before after : Stack}

theorem le_length (h : Replaces pops pushes before after) : pops ≤ before.length := by
  obtain ⟨operands, results, rest, rfl, -, rfl, -⟩ := h
  simp

theorem length_add (h : Replaces pops pushes before after) :
    after.length + pops = before.length + pushes := by
  obtain ⟨operands, results, rest, rfl, rfl, rfl, rfl⟩ := h
  simp only [List.length_append]
  omega

end Replaces

section Operations

variable {α : Type} {kind : Kind} {view : Value → Option α}

theorem moves_push (v : Value) : Moves 0 1 (push v) := by
  intro stack
  exact .inl ⟨.next, v :: stack, rfl, [], [v], stack, rfl, rfl, rfl, rfl⟩

theorem moves_loadConstant (program : Bytecode) (kind : ConstantKind) (value : Constant → Value)
    (index : Int32) : Moves 0 1 (loadConstant program kind value index) := by
  have hthrow : Moves 0 1 (throw (.badConstant index)) := by
    intro stack
    exact .inr ⟨.badConstant index, stack, rfl, by simp, by simp⟩
  rw [loadConstant]
  split
  · split
    · exact moves_push _
    · exact hthrow
  · exact hthrow

theorem pop_moves (kind : Kind) (view : Value → Option α) (stack : Stack) :
    (∃ top rest x, stack = top :: rest ∧ pop kind view stack = .ok x rest) ∨
    ∃ fault, pop kind view stack = .error fault stack ∧ fault ≠ .unknownOpcode ∧
      (fault = .stackUnderflow → stack = []) := by
  cases stack with
  | nil => exact .inr ⟨.stackUnderflow, rfl, by simp, fun _ => rfl⟩
  | cons top rest =>
      cases h : view top with
      | some x => exact .inl ⟨top, rest, x, rfl, by simp [pop, h]⟩
      | none => exact .inr ⟨.operandKind kind top.kind, by simp [pop, h], by simp, by simp⟩

theorem moves_pop_bind {pushes : Nat} {next : α → Work Effect}
    (hnext : ∀ x stack, ∃ effect results, next x stack = .ok effect (results ++ stack) ∧
      results.length = pushes) :
    Moves 1 pushes (pop kind view >>= next) := by
  intro stack
  rcases pop_moves kind view stack with ⟨top, rest, x, rfl, hpop⟩ | ⟨fault, hpop, hknown, hempty⟩
  · obtain ⟨effect, results, hok, hlength⟩ := hnext x rest
    refine .inl ⟨effect, results ++ rest, (work_bind_of_ok hpop).trans hok, ?_⟩
    exact ⟨[top], results, rest, rfl, rfl, rfl, hlength⟩
  · refine .inr ⟨fault, stack, work_bind_of_error hpop, hknown, fun hfault => ?_⟩
    rw [hempty hfault]
    exact Nat.zero_lt_one

theorem moves_unary (f : α → Value) : Moves 1 1 (unary (pop kind view) f) :=
  moves_pop_bind fun x _ => ⟨.next, [f x], rfl, rfl⟩

theorem moves_print (f : α → Value) : Moves 1 0 (print (pop kind view) f) :=
  moves_pop_bind fun x _ => ⟨.print (f x), [], rfl, rfl⟩

-- Both operands are taken one by one, so the second may be missing where the first is not.
theorem moves_binary {g : α → α → Except Fault Value}
    (hg : ∀ x y fault, g x y = .error fault → fault.IsDivision) :
    Moves 2 1 (binary (pop kind view) g) := by
  intro stack
  rcases pop_moves kind view stack with ⟨r, rest, y, rfl, hpop⟩ | ⟨fault, hpop, hknown, hempty⟩
  · rw [binary, work_bind_of_ok hpop]
    rcases pop_moves kind view rest with
      ⟨l, rest, x, rfl, hpop'⟩ | ⟨fault, hpop', hknown, hempty⟩
    · rw [work_bind_of_ok hpop']
      cases hv : g x y with
      | ok v => exact .inl ⟨.next, v :: rest, rfl, [r, l], [v], rest, rfl, rfl, rfl, rfl⟩
      | error fault =>
          refine .inr ⟨fault, rest, rfl, ?_, ?_⟩
          · rintro rfl
            simpa [Fault.IsDivision] using hg x y _ hv
          · rintro rfl
            simpa [Fault.IsDivision] using hg x y _ hv
    · refine .inr ⟨fault, rest, work_bind_of_error hpop', hknown, fun hfault => ?_⟩
      rw [hempty hfault]
      exact Nat.one_lt_two
  · refine .inr ⟨fault, stack, work_bind_of_error hpop, hknown, fun hfault => ?_⟩
    rw [hempty hfault]
    exact Nat.zero_lt_two

end Operations

-- Every operation replaces the values that are listed for it.
theorem moves_perform (program : Bytecode) (arg : Int32) (op : Operation) :
    Moves op.pops op.pushes (perform program arg op) := by
  have halways : ∀ {α β : Type} (make : β → Value) (f : α → α → β) (x y : α) (fault : Fault),
      always make f x y = .error fault → fault.IsDivision := by
    intro α β make f x y fault h
    cases h
  cases op with
  | iconst | tconst | fconst => exact moves_push _
  | dconst | sconst => exact moves_loadConstant _ _ _ _
  | iuminus | itod | itos | duminus | dtos | not | btos => exact moves_unary _
  | iprint | dprint | sprint | bprint => exact moves_print _
  | idiv =>
      refine moves_binary fun x y fault h => ?_
      rw [intDiv] at h
      split at h <;> cases h
      exact .inl rfl
  | imod =>
      refine moves_binary fun x y fault h => ?_
      rw [intMod] at h
      split at h <;> cases h
      exact .inr rfl
  | ddiv =>
      refine moves_binary fun x y fault h => ?_
      rw [realDiv] at h
      split at h <;> cases h
      exact .inl rfl
  | halt =>
      intro stack
      exact .inl ⟨.halt, stack, rfl, [], [], stack, rfl, rfl, rfl, rfl⟩
  | _ => exact moves_binary (halways _ _)

section Execute

variable {b : Bytecode} {i : Instruction} {stack after left : Stack} {effect : Effect}

theorem execute_moves (b : Bytecode) (i : Instruction) :
    (i.op.isValid = true ∧ Moves i.op.pops i.op.pushes (execute b i)) ∨
    (i.op.isValid = false ∧ i.op.pops = 0 ∧ execute b i = throw .unknownOpcode) := by
  rw [execute, Opcode.isValid, Opcode.pops, Opcode.pushes]
  cases i.op.operation? with
  | none => exact .inr ⟨rfl, rfl, rfl⟩
  | some op => exact .inl ⟨rfl, moves_perform b i.arg op⟩

theorem execute_replaces (h : execute b i stack = .ok effect after) :
    Replaces i.op.pops i.op.pushes stack after := by
  rcases execute_moves b i with ⟨-, hmoves⟩ | ⟨-, -, hthrow⟩
  · rcases hmoves stack with ⟨_, _, hok, hreplaces⟩ | ⟨_, _, herror, -⟩
    · rw [hok] at h
      cases h
      exact hreplaces
    · rw [herror] at h
      cases h
  · rw [hthrow] at h
    cases h

theorem length_lt_of_underflow (h : execute b i stack = .error .stackUnderflow left) :
    stack.length < i.op.pops := by
  rcases execute_moves b i with ⟨-, hmoves⟩ | ⟨-, -, hthrow⟩
  · rcases hmoves stack with ⟨_, _, hok, -⟩ | ⟨_, _, herror, -, hlength⟩
    · rw [hok] at h
      cases h
    · rw [herror] at h
      cases h
      exact hlength rfl
  · rw [hthrow] at h
    cases h

theorem execute_error_of_length_lt (b : Bytecode) (h : stack.length < i.op.pops) :
    ∃ fault left, execute b i stack = .error fault left := by
  cases hi : execute b i stack with
  | error fault left => exact ⟨fault, left, rfl⟩
  | ok effect after =>
      have hle := (execute_replaces hi).le_length
      omega

theorem execute_unknownOpcode_iff (b : Bytecode) (i : Instruction) (stack : Stack) :
    (∃ left, execute b i stack = .error .unknownOpcode left) ↔ i.op.isValid = false := by
  rcases execute_moves b i with ⟨hvalid, hmoves⟩ | ⟨hvalid, -, hthrow⟩
  · rw [hvalid]
    refine iff_of_false ?_ (by simp)
    rintro ⟨left, h⟩
    rcases hmoves stack with ⟨_, _, hok, -⟩ | ⟨_, _, herror, hknown, -⟩
    · rw [hok] at h
      cases h
    · rw [herror] at h
      cases h
      exact hknown rfl
  · exact iff_of_true ⟨stack, by rw [hthrow]; rfl⟩ hvalid

end Execute

variable {m next last : Machine} {printed : Text} {n : Nat}

theorem Step.exists_replaces (h : m.Step printed next) :
    ∃ i, m.At i ∧ Replaces i.op.pops i.op.pushes m.stack next.stack := by
  cases h with
  | next here hi | print here hi | halt here hi => exact ⟨_, here, execute_replaces hi⟩

theorem Steps.length_stack (h : Steps n m printed last) :
    (last.stack.length : Int) =
      m.stack.length + (((m.program.code.drop m.pc).take n).map Instruction.growth).sum := by
  induction h with
  | zero => simp
  | @succ n m next last printed more first rest ih =>
      obtain ⟨i, here, hreplaces⟩ := first.exists_replaces
      have hlength := hreplaces.length_add
      rw [ih, Steps.take_succ here first rest, List.map_cons, List.sum_cons, Instruction.growth]
      omega

-- The stack of a new machine is as deep as is listed, up to the end or to the instruction that an
-- error stops.
theorem length_stack_of_load {b : Bytecode} {sink : Sink} {profile : Option Profile}
    (h : Steps n { load b with sink, profile } printed last) :
    (last.stack.length : Int) = b.depth n := by
  have hlength := h.length_stack
  simpa [load, Bytecode.depth] using hlength

theorem run_error_ne_unknownOpcode (h : ∀ i ∈ m.program.code, i.op.isValid = true) (pc : Nat)
    (op : Opcode) : m.run.error ≠ some (.fault .unknownOpcode pc op) := by
  intro herror
  obtain ⟨n, last, i, left, hsteps, here, -, -, hi, -⟩ := exists_steps_of_fault herror
  have hmem : i ∈ m.program.code := by
    rw [← hsteps.program_eq]
    exact List.mem_of_getElem? here.instruction
  have hvalid := h i hmem
  rw [(execute_unknownOpcode_iff m.program i last.stack).mp ⟨left, hi⟩] at hvalid
  cases hvalid

-- An instruction that does not fail replaces the values that are listed for it and no others. It
-- finds no value only if there are fewer than are listed, and then it never succeeds; it is unknown
-- exactly if its byte names no operation. So the depth of the stack in a run of a new machine is
-- the listed one, after any number of steps, at the end, and where a value is missing; and a
-- program that comes from a file has no unknown instruction, wherever it is run from.
theorem run_depth_as_listed (b : Bytecode) (sink : Sink) (profile : Option Profile) :
    let m : Machine := { load b with sink, profile }
    (∀ i stack,
      (∀ effect after, execute b i stack = .ok effect after →
        Replaces i.op.pops i.op.pushes stack after) ∧
      (∀ left, execute b i stack = .error .stackUnderflow left → stack.length < i.op.pops) ∧
      (stack.length < i.op.pops → ∃ fault left, execute b i stack = .error fault left) ∧
      ((∃ left, execute b i stack = .error .unknownOpcode left) ↔ i.op.isValid = false)) ∧
    (∀ n printed last, Steps n m printed last →
      (last.stack.length : Int) = b.depth n ∧ last.steps = n ∧ m.run = last.run.after printed) ∧
    (m.run.error = none → (m.run.machine.stack.length : Int) = b.depth m.run.machine.steps) ∧
    (∀ pc op, m.run.error = some (.fault .stackUnderflow pc op) → b.depth pc < op.pops) ∧
    ∀ file, Bytecode.decode file = .ok b → ∀ other : Machine, other.program = b →
      ∀ pc op, other.run.error ≠ some (.fault .unknownOpcode pc op) := by
  intro m
  have hsteps : ∀ {n printed last}, Steps n m printed last → last.steps = n := by
    intro n printed last h
    exact h.steps_eq.trans (Nat.zero_add n)
  refine ⟨fun i stack => ⟨?_, ?_, ?_, ?_⟩, ?_, ?_, ?_, ?_⟩
  · exact fun effect after => execute_replaces
  · exact fun left => length_lt_of_underflow
  · exact execute_error_of_length_lt b
  · exact execute_unknownOpcode_iff b i stack
  · intro n printed last h
    exact ⟨length_stack_of_load h, hsteps h, h.run_eq⟩
  · intro hok
    obtain ⟨n, last, h, hstack, hcount⟩ := (execution_run m).exists_steps_of_ok hok
    rw [← hstack, ← hcount, hsteps h]
    exact length_stack_of_load h
  · intro pc op herror
    obtain ⟨n, last, i, left, h, here, hpc, rfl, hi, -⟩ := exists_steps_of_fault herror
    have hn : pc = n := by
      rw [← hpc, h.pc_eq here.running]
      exact Nat.zero_add n
    have hlt : last.stack.length < i.op.pops := length_lt_of_underflow hi
    rw [hn, ← length_stack_of_load h]
    omega
  · rintro file hfile other hother pc op
    refine run_error_ne_unknownOpcode ?_ pc op
    rw [hother]
    exact Bytecode.isValid_of_decode hfile

end Machine

end Tuga
