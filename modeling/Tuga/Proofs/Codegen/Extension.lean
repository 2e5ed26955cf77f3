import Tuga.Proofs.Codegen.Alike
import Tuga.Proofs.Codegen.Refinement

namespace Tuga

open Machine

-- The operations that take a constant from the pool.
def Operation.loads : Operation → Bool
  | dconst | sconst => true
  | _ => false

-- An instruction that asks for no constant at or behind the given index.
def Instruction.Bounded (i : Instruction) (size : Nat) : Prop :=
  i.op.operation?.any Operation.loads = true → i.arg.toInt < size

namespace Instruction.Bounded

variable {i : Instruction} {o : Operation} {size size' : Nat}

theorem mono (h : i.Bounded size) (hle : size ≤ size') : i.Bounded size' := by
  intro hloads
  have hlt := h hloads
  omega

theorem of_not_loads (ho : o.loads = false) (arg : Int32) (size : Nat) :
    Bounded ⟨o.code, arg⟩ size := by
  simp [Bounded, Opcode.operation?_code, ho]

-- An index that wraps around becomes smaller.
theorem of_lt {index : Nat} (h : index < size) (op : Opcode) :
    Bounded ⟨op, Int32.ofNat index⟩ size := by
  intro _
  have hle : (Int32.ofNat index).toInt ≤ index := by
    rw [Int32.toInt_ofNat', show Int32.size = 0x100000000 from rfl, Int.bmod_def]
    split <;> omega
  change (Int32.ofNat index).toInt < size
  omega

end Instruction.Bounded

namespace Machine

variable {b b' : Bytecode} {i : Instruction}

theorem constant?_grows (h : b.constants <+: b'.constants) {index : Int32}
    (hindex : index.toInt < b.constants.length) : b'.constant? index = b.constant? index := by
  rw [Bytecode.constant?, Bytecode.constant?]
  split
  · rfl
  · rename_i hpos
    rw [Int32.lt_iff_toInt_lt, Int32.toInt_zero] at hpos
    obtain ⟨more, hmore⟩ := h
    rw [← hmore, List.getElem?_append_left (by omega)]

theorem execute_grows (h : b.constants <+: b'.constants) (hi : i.Bounded b.constants.length) :
    execute b' i = execute b i := by
  rw [execute, execute]
  cases hop : i.op.operation? with
  | none => rfl
  | some op =>
      cases op with
      | dconst | sconst =>
          have hlt : i.arg.toInt < b.constants.length := hi (by rw [hop]; rfl)
          simp only [perform, loadConstant, constant?_grows h hlt]
      | _ => rfl

-- Induction on the code, for every machine: a step does the same with either pool, and code
-- without an error would go on to the halt.
theorem follow_grows {m : Machine} {program : Bytecode} {code : List Instruction}
    {error : RunError} (hgrows : m.program.constants <+: program.constants)
    (hcode : ∀ i ∈ code, i.Bounded m.program.constants.length) (hroom : m.sink.room = none)
    (h : (m.follow (code ++ [.of .halt])).error = some error) (rest : List Instruction) :
    ({ m with program }.follow (code ++ rest)).output =
        (m.follow (code ++ [.of .halt])).output ∧
      ({ m with program }.follow (code ++ rest)).error = some error := by
  induction code generalizing m with
  | nil =>
      rw [List.nil_append, follow_halt] at h
      cases h
  | cons i code ih =>
      rw [List.forall_mem_cons] at hcode
      have hexecute := execute_grows hgrows hcode.1
      have hrest (stack : Stack) := @ih (m.passed [i] stack) hgrows hcode.2 hroom
      rw [List.cons_append] at h ⊢
      rw [List.cons_append]
      cases hi : execute m.program i m.stack with
      | ok effect stack =>
          have hi' : execute program i m.stack = .ok effect stack := by rw [hexecute, hi]
          cases effect with
          | next =>
              rw [follow_next hi] at h ⊢
              rw [follow_next (m := { m with program }) hi']
              exact hrest stack h
          | print v =>
              rw [follow_print hi hroom] at h ⊢
              rw [follow_print (m := { m with program }) hi' hroom]
              obtain ⟨houtput, herror⟩ := hrest stack h
              exact ⟨congrArg ((v.render ++ [10]) ++ ·) houtput, herror⟩
          | halt =>
              rw [Machine.follow, show execute (m.dispatch i.op).program i (m.dispatch i.op).stack =
                .ok .halt stack from hi] at h
              cases h
      | error fault stack =>
          have hi' : execute program i m.stack = .error fault stack := by rw [hexecute, hi]
          rw [follow_error hi] at h ⊢
          rw [follow_error (m := { m with program }) hi']
          exact ⟨rfl, h⟩

-- A program that stops with an error stops in the same way if its pool grows and more code stands
-- in place of its halt.
theorem run_grows {code rest : List Instruction} {error : RunError}
    (hgrows : b.constants <+: b'.constants) (hcode : b.code = code ++ [.of .halt])
    (hcode' : b'.code = code ++ rest) (hbounded : ∀ i ∈ code, i.Bounded b.constants.length)
    (h : (load b).run.error = some error) :
    (load b').run.output = (load b).run.output ∧ (load b').run.error = some error := by
  have hrun (program : Bytecode) : (load program).run = (load program).follow program.code := by
    rw [run, if_neg (by simp [load])]
    rfl
  rw [hrun, hcode] at h
  rw [hrun b, hrun b', hcode, hcode']
  exact follow_grows (m := load b) hgrows hbounded rfl h rest

end Machine

namespace Codegen

-- Generation of code whose indices lie in the pool it leaves.
def Bounds (x : Gen (List Instruction)) : Prop :=
  ∀ pool code pool', x pool = .ok (code, pool') →
    pool.length ≤ pool'.length ∧ ∀ i ∈ code, i.Bounded pool'.length

def Loadless (code : List Instruction) : Prop :=
  ∀ i ∈ code, ∀ size, i.Bounded size

theorem loadless_nil : Loadless [] := by
  simp [Loadless]

theorem loadless_of {o : Operation} (ho : o.loads = false) : Loadless [.of o] :=
  List.forall_mem_singleton.mpr (.of_not_loads ho 0)

theorem loadless_widening (type target : NodeType) : Loadless (widening type target) := by
  rw [widening]
  split
  · exact loadless_of rfl
  · exact loadless_nil

theorem loadless_toText (type : NodeType) : Loadless (toText type) := by
  unfold toText
  split
  · exact loadless_of rfl
  · exact loadless_of rfl
  · exact loadless_of rfl
  · exact loadless_nil

theorem loadless_printing (type : NodeType) : Loadless (printing type) := by
  unfold printing
  split
  · exact loadless_of rfl
  · exact loadless_of rfl
  · exact loadless_of rfl
  · exact loadless_of rfl
  · exact loadless_nil

theorem loads_arithmetic? {op : Operator} {real : Bool} {o : Operation}
    (h : arithmetic? op real = some o) : o.loads = false := by
  cases op <;> cases h <;> cases real <;> rfl

theorem loads_compare? {op : Operator} {l r common : NodeType} {o : Operation}
    (h : compare? op l r = some (common, o)) : o.loads = false := by
  have hequality {equal notEqual : Operation} (he : equal.loads = false)
      (hn : notEqual.loads = false) {o : Operation} (ho : equality? op equal notEqual = some o) :
      o.loads = false := by
    cases op <;> cases ho
    · exact he
    · exact hn
  have hcomparison (real : Bool) : (comparison op real).loads = false := by
    cases op <;> cases real <;> rfl
  unfold compare? at h
  split at h
  · obtain ⟨o', ho', ⟨⟩⟩ := Option.map_eq_some_iff.mp h
    exact hequality rfl rfl ho'
  · obtain ⟨o', ho', ⟨⟩⟩ := Option.map_eq_some_iff.mp h
    exact hequality rfl rfl ho'
  · obtain ⟨-, ⟨⟩⟩ := Option.ite_none_right_eq_some.mp h
    exact hcomparison _
  · cases h

namespace Bounds

variable {types : TypeMap} {x y : Gen (List Instruction)}

theorem throw (error : CodegenError) : Bounds (MonadExcept.throw error) := by
  intro pool code pool' h
  cases h

theorem pure {code : List Instruction} (hcode : Loadless code) : Bounds (Pure.pure code) := by
  intro pool code' pool' h
  obtain ⟨rfl, rfl⟩ := stateT_pure_eq_ok.mp h
  exact ⟨Nat.le_refl _, fun i hi => hcode i hi _⟩

theorem load (o : Operation) (c : Constant) : Bounds (Codegen.load o c) := by
  intro pool code pool' h
  obtain ⟨rfl, rfl⟩ := load_eq_ok h
  obtain ⟨d, hd, -⟩ := getElem?_pooled pool c
  obtain ⟨hlt, -⟩ := List.getElem?_eq_some_iff.mp hd
  exact ⟨(prefix_pooled pool c).length_le, List.forall_mem_singleton.mpr (.of_lt hlt _)⟩

theorem typed {e : Expr} {f : NodeType → Gen (List Instruction)} (hf : ∀ type, Bounds (f type)) :
    Bounds (typeOf types e >>= f) := by
  rw [typeOf]
  split
  · exact .throw _
  · exact .throw _
  · rw [pure_bind]
    exact hf _

theorem seq (hx : Bounds x) (hy : Bounds y) :
    Bounds (x >>= fun is => y >>= fun js => Pure.pure (is ++ js)) := by
  intro pool code pool' h
  obtain ⟨is, mid, his, h⟩ := stateT_bind_eq_ok.mp h
  obtain ⟨js, last, hjs, h⟩ := stateT_bind_eq_ok.mp h
  obtain ⟨rfl, rfl⟩ := stateT_pure_eq_ok.mp h
  obtain ⟨hle, his⟩ := hx pool is mid his
  obtain ⟨hle', hjs⟩ := hy mid js last hjs
  refine ⟨Nat.le_trans hle hle', List.forall_mem_append.mpr ⟨fun i hi => ?_, hjs⟩⟩
  exact (his i hi).mono hle'

theorem append (hx : Bounds x) {tail : List Instruction} (htail : Loadless tail) :
    Bounds (x >>= fun is => Pure.pure (is ++ tail)) := by
  have h := hx.seq (.pure htail)
  simpa only [pure_bind] using h

theorem operation {left right : Expr} {convert : NodeType → List Instruction} {o : Operation}
    (hx : Bounds x) (hy : Bounds y) (hconvert : ∀ type, Loadless (convert type))
    (ho : o.loads = false) : Bounds (Codegen.operation types convert left right x y o) := by
  have hoperand {e : Expr} {x : Gen (List Instruction)} (hx : Bounds x) :
      Bounds (operand types convert e x) :=
    .typed fun type => hx.append (hconvert type)
  have h := ((hoperand (e := left) hx).seq (hoperand (e := right) hy)).append (loadless_of ho)
  simpa only [Codegen.operation, bind_assoc, pure_bind] using h

end Bounds

theorem bounds_expression (types : TypeMap) (e : Expr) : Bounds (expression types e) := by
  induction e with
  | int info value =>
      rw [expression]
      split
      · exact .pure (List.forall_mem_singleton.mpr (.of_not_loads rfl _))
      · exact .throw _
  | real info value => exact .load _ _
  | text info quoted => exact .load _ _
  | bool info value => cases value <;> exact .pure (loadless_of rfl)
  | paren info inner ih => exact ih
  | neg info operand ih =>
      refine .typed fun type => ih.append (loadless_of ?_)
      split <;> rfl
  | not info operand ih => exact ih.append (loadless_of rfl)
  | binary info level op left right ihl ihr =>
      have hbinary {convert : NodeType → List Instruction} {o : Operation}
          (hconvert : ∀ type, Loadless (convert type)) (ho : o.loads = false) :
          Bounds (operation types convert left right (expression types left)
            (expression types right) o) := ihl.operation ihr hconvert ho
      cases level with
      | additive =>
          refine .typed fun type => ?_
          split
          · exact hbinary loadless_toText rfl
          · dsimp only
            split
            · rename_i ho
              exact hbinary (loadless_widening · type) (loads_arithmetic? ho)
            · exact .throw _
      | multiplicative =>
          refine .typed fun type => ?_
          split
          · exact hbinary (loadless_widening · _) rfl
          · dsimp only
            split
            · rename_i ho
              exact hbinary (loadless_widening · type) (loads_arithmetic? ho)
            · exact .throw _
      | relational | equality =>
          refine .typed fun l => .typed fun r => ?_
          split
          · rename_i ho
            exact hbinary (loadless_widening · _) (loads_compare? ho)
          · exact .throw _
      | conjunction | disjunction => exact hbinary (loadless_widening · _) rfl

theorem bounds_statements (types : TypeMap) (ss : List Statement) :
    Bounds (statements types ss) := by
  induction ss with
  | nil => exact .pure loadless_nil
  | cons s ss ih =>
      have hprinting : Bounds (typeOf types s.value >>= fun type => pure (printing type)) :=
        .typed fun type => .pure (loadless_printing type)
      have hstatement : Bounds (statement types s) := by
        have h := (bounds_expression types s.value).seq hprinting
        simpa only [statement, bind_assoc, pure_bind] using h
      exact hstatement.seq ih

theorem statements_append_eq_ok {types : TypeMap} {ss ss' : List Statement}
    {pool pool' : List Constant} {code : List Instruction} :
    statements types (ss ++ ss') pool = .ok (code, pool') ↔
      ∃ is mid more, statements types ss pool = .ok (is, mid) ∧
        statements types ss' mid = .ok (more, pool') ∧ code = is ++ more := by
  induction ss generalizing pool code with
  | nil =>
      constructor
      · intro h
        exact ⟨[], pool, code, rfl, h, rfl⟩
      · rintro ⟨is, mid, more, his, hmore, rfl⟩
        obtain ⟨rfl, rfl⟩ := stateT_pure_eq_ok.mp his
        exact hmore
  | cons s ss ih =>
      rw [List.cons_append, statements_cons_eq_ok]
      constructor
      · rintro ⟨is, mid, more, his, hmore, rfl⟩
        obtain ⟨js, mid', last, hjs, hlast, rfl⟩ := ih.mp hmore
        refine ⟨is ++ js, mid', last, ?_, hlast, (List.append_assoc is js last).symm⟩
        exact statements_cons_eq_ok.mpr ⟨is, mid, js, his, hjs, rfl⟩
      · rintro ⟨front, mid', last, hfront, hlast, rfl⟩
        obtain ⟨is, mid, js, his, hjs, rfl⟩ := statements_cons_eq_ok.mp hfront
        refine ⟨is, mid, js ++ last, his, ih.mpr ⟨js, mid', last, hjs, hlast, rfl⟩, ?_⟩
        exact List.append_assoc is js last

theorem Agree.eq_of_ok {α : Type} {x y : Gen α} (h : Agree x y) {pool : List Constant}
    {r r' : α × List Constant} (hx : x pool = .ok r) (hy : y pool = .ok r') : r = r' := by
  have heq := h pool
  rw [hx, hy] at heq
  exact Except.ok.inj heq

end Codegen

namespace Program

variable {p whole : Program} {b b' : Bytecode} {types types' : TypeMap}
  {front back : List Statement}

-- The code of a program that starts with the statements of another starts with the code of these,
-- and so does its pool.
theorem generate_starts (hb : p.generate types = .ok b) (hb' : whole.generate types' = .ok b')
    (hwhole : whole.statements = front ++ back)
    (hfront : List.Forall₂ (fun s s' => s.value.Alike types' types s'.value) front p.statements)
    (hback : ∀ s ∈ back, s.value.Annotated types') :
    b.constants <+: b'.constants ∧ ∃ code rest, b.code = code ++ [.of .halt] ∧
      b'.code = code ++ rest ∧ ∀ i ∈ code, i.Bounded b.constants.length := by
  obtain ⟨code, hcode, hhalt⟩ := generate_eq_ok hb
  obtain ⟨code', hcode', hhalt'⟩ := generate_eq_ok hb'
  rw [hwhole] at hcode'
  obtain ⟨is, mid, more, his, hmore, rfl⟩ := Codegen.statements_append_eq_ok.mp hcode'
  obtain ⟨rfl, rfl⟩ := Prod.mk.inj ((Codegen.agree_statements hfront).eq_of_ok his hcode)
  refine ⟨(Codegen.statements_emits hback hmore).grows, is, more ++ [.of .halt], hhalt, ?_, ?_⟩
  · exact hhalt'.trans (List.append_assoc _ _ _)
  · exact (Codegen.bounds_statements types p.statements [] _ _ hcode).2

end Program

end Tuga
