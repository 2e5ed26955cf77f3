import Tuga.Proofs.Machine.Follow

namespace Tuga

def Fault.IsDivision (fault : Fault) : Prop :=
  fault = .divisionByZero ∨ fault = .moduloByZero

-- The operations that divide.
def Operation.isDivision : Operation → Bool
  | idiv | imod | ddiv => true
  | _ => false

namespace Machine

def rerun (m : Machine) : Nat → Machine
  | 0 => m
  | n + 1 => (m.rerun n).run.machine

-- However often it is run, the machine stays where it is and prints nothing, and each run
-- dispatches one instruction only.
structure Final (m : Machine) : Prop where
  pc : ∀ n, (m.rerun n).pc = m.pc
  output : ∀ n, (m.rerun n).run.output = []
  steps : ∀ n, (m.rerun n).steps = m.steps + n

-- Whether a division of these operands has a result. There is no answer if the operation is no
-- division or does not take such operands.
def divides? (op : Operation) (left right : Value) : Option Bool :=
  match op, left, right with
  | .idiv, .int _, .int r => some (r ≠ 0)
  | .imod, .int _, .int r => some (r ≠ 0)
  | .ddiv, .real _, .real r => some (!r.abs.lt epsilon)
  | _, _, _ => none

-- Whether repeated division comes to a result: down the stack in pairs, there are operands that
-- can be divided, and above them nothing but operands with a divisor of zero.
def resumes (op : Operation) : Stack → Bool
  | right :: left :: rest =>
    match divides? op left right with
    | some true => true
    | some false => resumes op rest
    | none => false
  | _ => false

-- A machine about to execute an instruction.
structure At (m : Machine) (i : Instruction) : Prop where
  running : m.halted = false
  instruction : m.program.code[m.pc]? = some i

variable {m : Machine} {i : Instruction} {fault : Fault} {stack left : Stack}

namespace At

theorem run_eq_follow (h : m.At i) :
    m.run = m.follow (i :: m.program.code.drop (m.pc + 1)) := by
  obtain ⟨hlt, hi⟩ := List.getElem?_eq_some_iff.mp h.instruction
  rw [run, if_neg (by simp [h.running]), List.drop_eq_getElem_cons hlt, hi]

theorem run_eq (h : m.At i) (hi : execute m.program i m.stack = .error fault left) :
    m.run = ⟨{ m.dispatch i.op with stack := left }, [], some (.fault fault m.pc i.op)⟩ := by
  rw [h.run_eq_follow, follow_error hi]

end At

-- What following an instruction comes to: the machine goes on to the next one, halts, or stops at
-- this one with an error.
theorem follow_cons_cases (m : Machine) (i : Instruction) (rest : List Instruction) :
    (∃ (next : Machine) (printed : Text), next.program = m.program ∧ next.pc = m.pc + 1 ∧
      next.halted = m.halted ∧ m.follow (i :: rest) = (next.follow rest).after printed) ∨
    (∃ stack, m.follow (i :: rest) =
      ⟨{ m.dispatch i.op with stack, halted := true }, [], none⟩) ∨
    ∃ stack error, m.follow (i :: rest) = ⟨{ m.dispatch i.op with stack }, [], some error⟩ ∧
      ∀ fault pc op, error = .fault fault pc op →
        pc = m.pc ∧ op = i.op ∧ execute m.program i m.stack = .error fault stack := by
  rw [follow]
  split
  · rename_i stack _
    exact .inl ⟨(m.dispatch i.op).advance stack, [], rfl, rfl, rfl, rfl⟩
  · exact .inr (.inl ⟨_, rfl⟩)
  · split
    · refine .inr (.inr ⟨_, _, rfl, ?_⟩)
      intro _ _ _ h
      cases h
    · rename_i v stack _ _ sink _
      refine .inl ⟨{ m.dispatch i.op with sink }.advance stack, v.render ++ [10], rfl, rfl, rfl, ?_⟩
      simp [Outcome.after]
  · rename_i fault stack hi
    refine .inr (.inr ⟨stack, _, rfl, ?_⟩)
    rintro _ _ _ ⟨⟩
    exact ⟨rfl, rfl, hi⟩

-- Following instructions never leads back.
theorem le_pc_follow (m : Machine) (code : List Instruction) :
    m.pc ≤ (m.follow code).machine.pc := by
  induction code generalizing m with
  | nil => exact Nat.le_refl _
  | cons i code ih =>
      rcases m.follow_cons_cases i code with ⟨next, printed, -, hpc, -, h⟩ | ⟨_, h⟩ | ⟨_, _, h, -⟩
      · have hle := ih next
        rw [h]
        change m.pc ≤ (next.follow code).machine.pc
        omega
      · rw [h]
        exact Nat.le_refl _
      · rw [h]
        exact Nat.le_refl _

-- A run that faults leaves the machine at the instruction that faulted, with the stack as the
-- instruction left it.
theorem exists_at_of_follow {code : List Instruction} {pc : Nat} {op : Opcode}
    (hrunning : m.halted = false) (hcode : m.program.code.drop m.pc = code)
    (h : (m.follow code).error = some (.fault fault pc op)) :
    ∃ i stack, (m.follow code).machine.At i ∧ (m.follow code).machine.pc = pc ∧ i.op = op ∧
      execute (m.follow code).machine.program i stack =
        .error fault (m.follow code).machine.stack := by
  induction code generalizing m with
  | nil => cases h
  | cons i code ih =>
      obtain ⟨hi, hrest⟩ : m.program.code[m.pc]? = some i ∧
          m.program.code.drop (m.pc + 1) = code := by
        rw [← List.head?_drop, ← List.tail_drop, hcode]
        exact ⟨rfl, rfl⟩
      rcases m.follow_cons_cases i code with
        ⟨next, printed, hprogram, hpc, hhalted, hfollow⟩ | ⟨_, hfollow⟩ |
          ⟨stack, error, hfollow, herror⟩
      · rw [hfollow] at h ⊢
        exact ih (hhalted.trans hrunning) (by rw [hprogram, hpc, hrest]) h
      · rw [hfollow] at h
        cases h
      · rw [hfollow] at h ⊢
        obtain ⟨rfl, rfl, hexecute⟩ := herror fault pc op (Option.some.inj h)
        exact ⟨i, m.stack, ⟨hrunning, hi⟩, rfl, rfl, hexecute⟩

theorem exists_at_of_run {pc : Nat} {op : Opcode} (h : m.run.error = some (.fault fault pc op)) :
    ∃ i stack, m.run.machine.At i ∧ m.run.machine.pc = pc ∧ i.op = op ∧
      execute m.run.machine.program i stack = .error fault m.run.machine.stack := by
  cases hhalted : m.halted with
  | true =>
      rw [run, if_pos hhalted] at h
      cases h
  | false =>
      rw [run, if_neg (by simp [hhalted])] at h ⊢
      exact exists_at_of_follow hhalted rfl h

-- Work that fails again, in the same way, on the stack that its failure left.
def Persists {α : Type} (work : Work α) : Prop :=
  ∀ stack fault left, work stack = .error fault left → work left = .error fault left

section Operands

variable {α β : Type} {kind : Kind} {view : Value → Option α} {g : α → α → Except Fault Value}

theorem pop_cases (kind : Kind) (view : Value → Option α) (stack : Stack) :
    (∃ top rest x, stack = top :: rest ∧ view top = some x ∧
      pop kind view stack = .ok x rest) ∨
    ∃ fault, pop kind view stack = .error fault stack ∧ ¬fault.IsDivision ∧
      ∀ top rest, stack = top :: rest → view top = none := by
  cases stack with
  | nil => exact .inr ⟨.stackUnderflow, rfl, by simp [Fault.IsDivision], by simp⟩
  | cons top rest =>
      cases h : view top with
      | some x => exact .inl ⟨top, rest, x, rfl, h, by simp [pop, h]⟩
      | none =>
          refine .inr ⟨.operandKind kind top.kind, by simp [pop, h], by simp [Fault.IsDivision], ?_⟩
          rintro _ _ ⟨⟩
          exact h

theorem work_bind_of_error {work : Work α} {next : α → Work β}
    (h : work stack = .error fault left) : (work >>= next) stack = .error fault left := by
  simp only [Bind.bind, EStateM.bind, h]

theorem work_bind_of_ok {work : Work α} {next : α → Work β} {a : α}
    (h : work stack = .ok a left) : (work >>= next) stack = next a left := by
  simp only [Bind.bind, EStateM.bind, h]

theorem persists_pop_bind {next : α → Work β}
    (hnext : ∀ x stack, ∃ b left, next x stack = .ok b left) :
    Persists (pop kind view >>= next) := by
  intro stack fault left h
  rcases pop_cases kind view stack with ⟨top, rest, x, -, -, hpop⟩ | ⟨_, hpop, -, -⟩
  · obtain ⟨b, last, hok⟩ := hnext x rest
    rw [work_bind_of_ok hpop, hok] at h
    cases h
  · rw [work_bind_of_error hpop] at h
    cases h
    exact work_bind_of_error hpop

theorem binary_cases (kind : Kind) (view : Value → Option α)
    (g : α → α → Except Fault Value) (stack : Stack) :
    (∃ l r rest x y, stack = r :: l :: rest ∧ view l = some x ∧ view r = some y) ∨
    ∃ fault left, binary (pop kind view) g stack = .error fault left ∧
      binary (pop kind view) g left = .error fault left ∧ ¬fault.IsDivision ∧
      (left = stack ∨ ∃ top, stack = top :: left) ∧
      ∀ top rest, left = top :: rest → view top = none := by
  rcases pop_cases kind view stack with ⟨r, rest, y, rfl, hr, hpop⟩ | ⟨fault, hpop, hfault, htop⟩
  · rcases pop_cases kind view rest with
      ⟨l, rest, x, rfl, hl, -⟩ | ⟨fault, hpop', hfault, htop⟩
    · exact .inl ⟨l, r, rest, x, y, rfl, hl, hr⟩
    · refine .inr ⟨fault, rest, ?_, work_bind_of_error hpop', hfault, .inr ⟨r, rfl⟩, htop⟩
      rw [binary, work_bind_of_ok hpop, work_bind_of_error hpop']
  · have herror : binary (pop kind view) g stack = .error fault stack := work_bind_of_error hpop
    exact .inr ⟨fault, stack, herror, herror, hfault, .inl rfl, htop⟩

theorem persists_binary (hg : ∀ x y, ∃ v, g x y = .ok v) :
    Persists (binary (pop kind view) g) := by
  intro stack fault left h
  rcases binary_cases kind view g stack with
    ⟨l, r, rest, x, y, rfl, hl, hr⟩ | ⟨_, _, herror, hagain, -⟩
  · obtain ⟨v, hv⟩ := hg x y
    rw [binary_pop hl hr, hv] at h
    cases h
  · rw [herror] at h
    cases h
    exact hagain

theorem persists_loadConstant {program : Bytecode} {kind : ConstantKind}
    {value : Constant → Value} {index : Int32} :
    Persists (loadConstant program kind value index) := by
  have hthrow : Persists (throw (.badConstant index) : Work Effect) := by
    rintro stack fault left ⟨⟩
    rfl
  rw [loadConstant]
  split
  · split
    · intro stack fault left h
      cases h
    · exact hthrow
  · exact hthrow

end Operands

-- All operations but those that divide fail again after a failure.
theorem persists_perform (program : Bytecode) (arg : Int32) {op : Operation}
    (hop : op.isDivision = false) : Persists (perform program arg op) := by
  have hpush : ∀ v, Persists (push v) := by
    intro v stack fault left h
    cases h
  cases op with
  | idiv | imod | ddiv => cases hop
  | iconst | tconst | fconst => exact hpush _
  | dconst | sconst => exact persists_loadConstant
  | iuminus | itod | itos | duminus | dtos | not | btos =>
      exact persists_pop_bind fun x stack => ⟨_, _, rfl⟩
  | iprint | dprint | sprint | bprint => exact persists_pop_bind fun x stack => ⟨_, _, rfl⟩
  | halt =>
      intro stack fault left h
      cases h
  | _ => exact persists_binary fun x y => ⟨_, rfl⟩

-- An operation that divides: it takes two operands of one kind and raises a fault if the right one
-- counts as zero.
structure Division (op : Operation) {α : Type} (kind : Kind) (view : Value → Option α)
    (isZero : α → Bool) (quotient : α → α → Value) (fault : Fault) : Prop where
  perform : ∀ program arg, perform program arg op = binary (pop kind view) fun x y =>
    if isZero y then .error fault else .ok (quotient x y)
  raised : fault.IsDivision
  divides : ∀ l r x y, view l = some x → view r = some y → divides? op l r = some (!isZero y)
  refuses : ∀ l r, view l = none ∨ view r = none → divides? op l r = none

theorem division_integer {op : Operation} {quotient : Int32 → Int32 → Value} {fault : Fault}
    (hop : op = .idiv ∨ op = .imod) (hraised : fault.IsDivision)
    (hperform : ∀ program arg, perform program arg op = binary (pop .integer Value.int?) fun l r =>
      if r = 0 then .error fault else .ok (quotient l r)) :
    Division op .integer Value.int? (fun r => decide (r = 0)) quotient fault where
  perform := by
    simpa only [decide_eq_true_eq] using hperform
  raised := hraised
  divides := by
    rintro (l | _ | _ | _) (r | _ | _ | _) _ _ ⟨⟩ ⟨⟩
    rcases hop with rfl | rfl <;> simp [divides?]
  refuses := by
    rintro (l | _ | _ | _) (r | _ | _ | _) h <;> rcases hop with rfl | rfl <;>
      simp_all [divides?, Value.int?]

theorem division_ddiv : Division .ddiv .real Value.real? (fun r => r.abs.lt epsilon)
    (fun l r => .real (l.div r)) .divisionByZero where
  perform := fun _ _ => rfl
  raised := .inl rfl
  divides := by
    rintro (_ | l | _ | _) (_ | r | _ | _) _ _ ⟨⟩ ⟨⟩
    rfl
  refuses := by
    rintro (_ | l | _ | _) (_ | r | _ | _) h <;> simp_all [divides?, Value.real?]

-- What a division does to a stack: it divides the two operands on top, takes them off and raises
-- its fault, or fails again and again.
theorem Division.cases {op : Operation} {α : Type} {kind : Kind} {view : Value → Option α}
    {isZero : α → Bool} {quotient : α → α → Value} {zero : Fault}
    (h : Division op kind view isZero quotient zero) (program : Bytecode) (arg : Int32)
    (stack : Stack) :
    (∃ l r rest v, stack = r :: l :: rest ∧ divides? op l r = some true ∧
      Machine.perform program arg op stack = .ok .next (v :: rest)) ∨
    (∃ l r rest, stack = r :: l :: rest ∧ divides? op l r = some false ∧
      Machine.perform program arg op stack = .error zero rest) ∨
    ∃ fault left, Machine.perform program arg op stack = .error fault left ∧
      Machine.perform program arg op left = .error fault left ∧ ¬fault.IsDivision ∧
      resumes op stack = false ∧ resumes op left = false := by
  rw [h.perform]
  rcases binary_cases kind view (fun x y => if isZero y then .error zero else .ok (quotient x y))
    stack with ⟨l, r, rest, x, y, rfl, hl, hr⟩ | ⟨fault, left, herror, hagain, hfault, hleft, htop⟩
  · have hdivides := h.divides l r x y hl hr
    rw [binary_pop hl hr]
    cases hzero : isZero y with
    | false =>
        rw [hzero] at hdivides
        exact .inl ⟨l, r, rest, quotient x y, rfl, hdivides, rfl⟩
    | true =>
        rw [hzero] at hdivides
        exact .inr (.inl ⟨l, r, rest, rfl, hdivides, rfl⟩)
  · have hresumes : resumes op left = false := by
      match left, htop with
      | [], _ | [_], _ => rfl
      | r :: l :: rest, htop =>
          rw [resumes, h.refuses l r (.inr (htop r _ rfl))]
    refine .inr (.inr ⟨fault, left, herror, hagain, hfault, ?_, hresumes⟩)
    rcases hleft with rfl | ⟨top, rfl⟩
    · exact hresumes
    · match left, htop with
      | [], _ => rfl
      | l :: rest, htop => rw [resumes, h.refuses l top (.inl (htop l _ rfl))]

theorem exists_division {op : Operation} (hop : op.isDivision = true) :
    ∃ (α : Type) (kind : Kind) (view : Value → Option α) (isZero : α → Bool)
      (quotient : α → α → Value) (zero : Fault), Division op kind view isZero quotient zero := by
  cases op with
  | idiv =>
      exact ⟨_, _, _, _, fun l r => .int (l / r), _,
        division_integer (.inl rfl) (.inl rfl) fun _ _ => rfl⟩
  | imod =>
      exact ⟨_, _, _, _, fun l r => .int (l % r), _,
        division_integer (.inr rfl) (.inr rfl) fun _ _ => rfl⟩
  | ddiv => exact ⟨_, _, _, _, _, _, division_ddiv⟩
  | _ => cases hop

theorem isDivision_of_resumes {op : Operation} (h : resumes op stack = true) :
    op.isDivision = true := by
  match stack with
  | [] | [_] => cases h
  | r :: l :: rest =>
      cases op with
      | idiv | imod | ddiv => rfl
      | _ => cases h

section Execute

variable {program : Bytecode} {op : Operation}

theorem execute_eq (hop : i.op.operation? = some op) :
    execute program i = perform program i.arg op := by
  simp [execute, hop]

theorem persists_execute (program : Bytecode)
    (h : ∀ op, i.op.operation? = some op → op.isDivision = false) :
    Persists (execute program i) := by
  cases hop : i.op.operation? with
  | none =>
      intro stack fault left herror
      simp only [execute, hop] at herror ⊢
      cases herror
      rfl
  | some op =>
      rw [execute_eq hop]
      exact persists_perform program i.arg (h op hop)

-- A fault that is no division by zero arises again on the stack that it left.
theorem execute_persists (h : execute program i stack = .error fault left)
    (hfault : ¬fault.IsDivision) : execute program i left = .error fault left := by
  by_cases hop : ∃ op, i.op.operation? = some op ∧ op.isDivision = true
  · obtain ⟨op, hop, hdivision⟩ := hop
    obtain ⟨_, _, _, _, _, zero, hd⟩ := exists_division hdivision
    rw [execute_eq hop] at h ⊢
    rcases hd.cases program i.arg stack with
      ⟨_, _, _, _, -, -, hok⟩ | ⟨_, _, _, -, -, hzero⟩ | ⟨_, _, herror, hagain, -⟩
    · rw [hok] at h
      cases h
    · rw [hzero] at h
      cases h
      exact absurd hd.raised hfault
    · rw [herror] at h
      cases h
      exact hagain
  · exact persists_execute program (by simpa using hop) stack fault left h

theorem execute_left_eq_error (h : execute program i stack = .error fault left)
    (hresumes : ∀ op, i.op.operation? = some op → resumes op left = false) :
    ∃ fault' left', execute program i left = .error fault' left' ∧
      ∀ op, i.op.operation? = some op → resumes op left' = false := by
  by_cases hop : ∃ op, i.op.operation? = some op ∧ op.isDivision = true
  · obtain ⟨op, hop, hdivision⟩ := hop
    obtain ⟨_, _, _, _, _, zero, hd⟩ := exists_division hdivision
    have hnot := hresumes op hop
    simp only [execute_eq hop, hop, Option.some.injEq, forall_eq']
    rcases hd.cases program i.arg left with
      ⟨l, r, rest, v, rfl, hdivides, -⟩ | ⟨l, r, rest, rfl, hdivides, hzero⟩ |
        ⟨fault', left', herror, -, -, -, hleft⟩
    · rw [resumes, hdivides] at hnot
      cases hnot
    · rw [resumes, hdivides] at hnot
      exact ⟨zero, rest, hzero, hnot⟩
    · exact ⟨fault', left', herror, hleft⟩
  · have hagain := persists_execute program (by simpa using hop) stack fault left h
    exact ⟨fault, left, hagain, hresumes⟩

-- An instruction that can come to a result divides, or takes two operands off the stack and can
-- still come to a result.
theorem execute_of_resumes (program : Bytecode) (hop : i.op.operation? = some op)
    (h : resumes op stack = true) :
    (∃ next, execute program i stack = .ok .next next) ∨
      ∃ fault left, execute program i stack = .error fault left ∧ resumes op left = true ∧
        left.length < stack.length := by
  obtain ⟨_, _, _, _, _, zero, hd⟩ := exists_division (isDivision_of_resumes h)
  rw [execute_eq hop]
  rcases hd.cases program i.arg stack with
    ⟨_, _, rest, v, -, -, hok⟩ | ⟨l, r, rest, rfl, hdivides, hzero⟩ | ⟨_, _, -, -, -, hnot, -⟩
  · exact .inl ⟨_, hok⟩
  · rw [resumes, hdivides] at h
    refine .inr ⟨zero, rest, hzero, h, ?_⟩
    simp only [List.length_cons]
    omega
  · rw [hnot] at h
    cases h

end Execute

namespace At

theorem run (h : m.At i) (hi : execute m.program i m.stack = .error fault left) :
    m.run.machine.At i := by
  rw [h.run_eq hi]
  exact ⟨h.running, h.instruction⟩

-- If the instruction fails on each of a set of stacks and leaves a stack of the set, further runs
-- leave the machine where it is, with a stack of the set.
theorem rerun (h : m.At i) {P : Stack → Prop} (hm : P m.stack)
    (hP : ∀ stack, P stack → ∃ fault left, execute m.program i stack = .error fault left ∧ P left)
    (n : Nat) :
    (m.rerun n).At i ∧ (m.rerun n).program = m.program ∧ P (m.rerun n).stack ∧
      (m.rerun n).pc = m.pc ∧ (m.rerun n).steps = m.steps + n := by
  induction n with
  | zero => exact ⟨h, rfl, hm, rfl, rfl⟩
  | succ n ih =>
      obtain ⟨hat, hprogram, hstack, hpc, hsteps⟩ := ih
      obtain ⟨fault, left, hi, hleft⟩ := hP _ hstack
      rw [← hprogram] at hi
      have hrun := hat.run_eq hi
      rw [Machine.rerun, hrun]
      refine ⟨hrun ▸ hat.run hi, hprogram, hleft, hpc, ?_⟩
      change (m.rerun n).steps + 1 = m.steps + (n + 1)
      omega

theorem final (h : m.At i) {P : Stack → Prop} (hm : P m.stack)
    (hP : ∀ stack, P stack → ∃ fault left, execute m.program i stack = .error fault left ∧ P left) :
    m.Final where
  pc := fun n => (h.rerun hm hP n).2.2.2.1
  output := by
    intro n
    obtain ⟨hat, hprogram, hstack, -, -⟩ := h.rerun hm hP n
    obtain ⟨fault, left, hi, -⟩ := hP _ hstack
    rw [← hprogram] at hi
    rw [hat.run_eq hi]
  steps := fun n => (h.rerun hm hP n).2.2.2.2

end At

theorem rerun_succ (m : Machine) (n : Nat) : m.run.machine.rerun n = m.rerun (n + 1) := by
  induction n with
  | zero => rfl
  | succ n ih =>
      rw [rerun, ih]
      rfl

theorem Final.run (h : m.Final) : m.run.machine.Final := by
  have hpc : m.run.machine.pc = m.pc := h.pc 1
  have hsteps : m.run.machine.steps = m.steps + 1 := h.steps 1
  refine ⟨fun n => ?_, fun n => ?_, fun n => ?_⟩
  · rw [rerun_succ, h.pc, hpc]
  · rw [rerun_succ, h.output]
  · rw [rerun_succ, h.steps, hsteps]
    omega

theorem At.not_final {op : Operation} (h : m.At i) (hop : i.op.operation? = some op)
    (hresumes : resumes op m.stack = true) : ¬m.Final := by
  intro hfinal
  induction hn : m.stack.length using Nat.strongRecOn generalizing m with
  | _ n ih =>
      rcases execute_of_resumes m.program hop hresumes with
        ⟨next, hi⟩ | ⟨fault, left, hi, hleft, hlt⟩
      · have hpc : m.run.machine.pc = m.pc := hfinal.pc 1
        have hle := le_pc_follow (m.passed [i] next) (m.program.code.drop (m.pc + 1))
        rw [← follow_next hi, ← h.run_eq_follow, hpc] at hle
        change m.pc + 1 ≤ m.pc at hle
        omega
      · have hstack : m.run.machine.stack = left := by rw [h.run_eq hi]
        refine ih left.length (by omega) (h.run hi) ?_ hfinal.run ?_
        · rw [hstack]
          exact hleft
        · rw [hstack]

-- After a fault the machine stands at the instruction that raised it. Further runs leave it there,
-- and print nothing, exactly if repeated division comes to no result on the stack that is left.
-- Every fault that is no division by zero is raised again by each further run.
theorem run_fault_final_iff {pc : Nat} {op : Opcode}
    (h : m.run.error = some (.fault fault pc op)) :
    m.run.machine.pc = pc ∧
    (m.run.machine.Final ↔
      ∀ operation, op.operation? = some operation →
        resumes operation m.run.machine.stack = false) ∧
    (¬fault.IsDivision → m.run.machine.Final ∧
      ∀ n, (m.run.machine.rerun n).run.error = some (.fault fault pc op)) := by
  obtain ⟨i, stack, hat, hpc, rfl, hi⟩ := exists_at_of_run h
  refine ⟨hpc, ⟨fun hfinal operation hop => ?_, fun hresumes => ?_⟩, fun hfault => ?_⟩
  · cases hresumes : resumes operation m.run.machine.stack with
    | false => rfl
    | true => exact absurd hfinal (hat.not_final hop hresumes)
  · refine hat.final (P := fun left => (∃ stack fault, execute m.run.machine.program i stack =
      .error fault left) ∧ ∀ op, i.op.operation? = some op → resumes op left = false)
      ⟨⟨stack, fault, hi⟩, hresumes⟩ ?_
    rintro left ⟨⟨stack, fault, hi⟩, hresumes⟩
    obtain ⟨fault', left', hagain, hresumes'⟩ := execute_left_eq_error hi hresumes
    exact ⟨fault', left', hagain, ⟨left, fault', hagain⟩, hresumes'⟩
  · have hagain := execute_persists hi hfault
    have hP : ∀ stack, stack = m.run.machine.stack → ∃ fault left,
        execute m.run.machine.program i stack = .error fault left ∧
          left = m.run.machine.stack := by
      rintro _ rfl
      exact ⟨fault, _, hagain, rfl⟩
    refine ⟨hat.final (P := (· = m.run.machine.stack)) rfl hP, fun n => ?_⟩
    obtain ⟨hatn, hprogram, hstack, hpcn, -⟩ := hat.rerun (P := (· = m.run.machine.stack)) rfl hP n
    rw [← hprogram, ← hstack] at hagain
    rw [hatn.run_eq hagain, hpcn, hpc]

-- A text where an integer is wanted stays on the stack, so every further run finds it there.
theorem run_fault_final_text :
    (load ⟨[.ofText []], [⟨Operation.sconst.code, 0⟩, ⟨Operation.iconst.code, 0⟩,
      .of .idiv]⟩).run.error = some (.fault (.operandKind .integer .text) 2 Operation.idiv.code) ∧
    (load ⟨[.ofText []], [⟨Operation.sconst.code, 0⟩, ⟨Operation.iconst.code, 0⟩,
      .of .idiv]⟩).run.machine.Final := by
  have herror : (load ⟨[.ofText []], [⟨Operation.sconst.code, 0⟩, ⟨Operation.iconst.code, 0⟩,
      .of .idiv]⟩).run.error =
        some (.fault (.operandKind .integer .text) 2 Operation.idiv.code) := by
    decide
  obtain ⟨-, -, hfinal⟩ := run_fault_final_iff herror
  exact ⟨herror, (hfinal (by simp [Fault.IsDivision])).1⟩

-- One divided by zero takes both operands off the stack. The second run divides six by three, goes
-- on and prints the result.
theorem run_not_final_after_division :
    let m := load ⟨[], [⟨Operation.iconst.code, 6⟩, ⟨Operation.iconst.code, 3⟩,
      ⟨Operation.iconst.code, 1⟩, ⟨Operation.iconst.code, 0⟩, .of .idiv, .of .iprint, .of .halt]⟩
    m.run.error = some (.fault .divisionByZero 4 Operation.idiv.code) ∧
      m.run.machine.run.error = none ∧ m.run.machine.run.output = "2\n" ∧
      m.run.machine.run.machine.pc = 6 ∧ ¬m.run.machine.Final := by
  refine ⟨by decide, by decide, by decide +kernel, by decide, fun hfinal => ?_⟩
  exact absurd (hfinal.output 0) (by decide +kernel)

end Machine

end Tuga
