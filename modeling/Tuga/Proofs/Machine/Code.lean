import Tuga.Machine.Run
import Tuga.Proofs.Evaluation

namespace Tuga

-- The faults of dividing, each with the operations that raise it.
inductive Fault.RaisedBy : Fault → Opcode → Prop
  | idiv : RaisedBy .divisionByZero Operation.idiv.code
  | ddiv : RaisedBy .divisionByZero Operation.ddiv.code
  | imod : RaisedBy .moduloByZero Operation.imod.code

namespace Machine

-- Code that takes one stack to another and prints nothing.
inductive Runs (program : Bytecode) : List Instruction → Stack → Stack → Prop
  | nil (stack : Stack) : Runs program [] stack stack
  | cons {i : Instruction} {code : List Instruction} {stack next last : Stack}
      (hi : execute program i stack = .ok .next next) (hcode : Runs program code next last) :
      Runs program (i :: code) stack last

-- Code that prints nothing and comes to a division by zero.
inductive Faults (program : Bytecode) (fault : Fault) : List Instruction → Stack → Prop
  | here {i : Instruction} {code : List Instruction} {stack left : Stack}
      (hi : execute program i stack = .error fault left) (hraised : fault.RaisedBy i.op) :
      Faults program fault (i :: code) stack
  | later {i : Instruction} {code : List Instruction} {stack next : Stack}
      (hi : execute program i stack = .ok .next next) (hcode : Faults program fault code next) :
      Faults program fault (i :: code) stack

variable {program : Bytecode} {fault : Fault} {code code' : List Instruction}
  {stack next last : Stack}

theorem Runs.append (h : Runs program code stack next) (h' : Runs program code' next last) :
    Runs program (code ++ code') stack last := by
  induction h with
  | nil => exact h'
  | cons hi _ ih => exact .cons hi (ih h')

theorem Runs.faults (h : Runs program code stack next) (h' : Faults program fault code' next) :
    Faults program fault (code ++ code') stack := by
  induction h with
  | nil => exact h'
  | cons hi _ ih => exact .later hi (ih h')

theorem Faults.append (h : Faults program fault code stack) :
    Faults program fault (code ++ code') stack := by
  induction h with
  | here hi hraised => exact .here hi hraised
  | later hi _ ih => exact .later hi ih

-- Code that replaces operands, the top one first, by the result.
structure Computes (program : Bytecode) (code : List Instruction) (operands : Stack)
    (result : Except Failure Value) : Prop where
  value : ∀ v, result = .ok v → ∀ stack, Runs program code (operands ++ stack) (v :: stack)
  fault : ∀ failure, result = .error failure → ∃ fault, failure.fault? = some fault ∧
    ∀ stack, Faults program fault code (operands ++ stack)

namespace Computes

variable {result leftResult rightResult : Except Failure Value}

theorem nil (v : Value) : Computes program [] [v] (.ok v) where
  value := by
    rintro w ⟨rfl⟩ stack
    exact .nil _
  fault := by simp

-- Code after the code of its top operand. The operands under it are out of reach of the first.
theorem bind {under : Stack} {f : Value → Except Failure Value}
    (h : Computes program code [] result)
    (h' : ∀ v, result = .ok v → Computes program code' (v :: under) (f v)) :
    Computes program (code ++ code') under (result >>= f) := by
  cases result with
  | ok v =>
      constructor
      · intro w hw stack
        exact (h.value v rfl (under ++ stack)).append ((h' v rfl).value w hw stack)
      · intro failure hfailure
        obtain ⟨fault, hfault, hfaults⟩ := (h' v rfl).fault failure hfailure
        refine ⟨fault, hfault, fun stack => ?_⟩
        exact (h.value v rfl (under ++ stack)).faults (hfaults stack)
  | error failure =>
      constructor
      · intro w hw
        cases hw
      · rintro _ ⟨rfl⟩
        obtain ⟨fault, hfault, hfaults⟩ := h.fault failure rfl
        exact ⟨fault, hfault, fun stack => (hfaults (under ++ stack)).append⟩

theorem convert {under : Stack} {v w : Value} (h : Computes program code [v] (.ok w))
    (h' : Computes program code' (w :: under) result) :
    Computes program (code ++ code') (v :: under) result where
  value := by
    intro x hx stack
    exact (h.value w rfl (under ++ stack)).append (h'.value x hx stack)
  fault := by
    intro failure hfailure
    obtain ⟨fault, hfault, hfaults⟩ := h'.fault failure hfailure
    refine ⟨fault, hfault, fun stack => ?_⟩
    exact (h.value w rfl (under ++ stack)).faults (hfaults stack)

end Computes

theorem execute_code (program : Bytecode) (op : Operation) (arg : Int32) :
    execute program ⟨op.code, arg⟩ = perform program arg op := by
  simp [execute, Opcode.operation?_code]

theorem loadConstant_eq {kind : ConstantKind} {value : Constant → Value} {index : Int32}
    {c : Constant} (hc : program.constant? index = some c) (hkind : c.kind = kind)
    (stack : Stack) :
    loadConstant program kind value index stack = .ok .next (value c :: stack) := by
  simp only [loadConstant, hc, hkind, if_true]
  rfl

section Operands

variable {α : Type} {kind : Kind} {view : Value → Option α} {l r v : Value} {x y : α}

theorem binary_pop {f : α → α → Except Fault Value} (hl : view l = some x) (hr : view r = some y)
    (stack : Stack) :
    binary (pop kind view) f (r :: l :: stack) =
      match f x y with
      | .ok value => .ok .next (value :: stack)
      | .error fault => .error fault stack := by
  simp only [binary, pop, Bind.bind, EStateM.bind, hl, hr]
  cases f x y <;> rfl

namespace Computes

theorem instruction {i : Instruction} {operands : Stack}
    (h : ∀ stack, execute program i (operands ++ stack) = .ok .next (v :: stack)) :
    Computes program [i] operands (.ok v) where
  value := by
    rintro w ⟨rfl⟩ stack
    exact .cons (h stack) (.nil _)
  fault := by simp

theorem binary (view : Value → Option α) {op : Operation} {f : α → α → Except Fault Value}
    (hop : perform program 0 op = Machine.binary (pop kind view) f) (hl : view l = some x)
    (hr : view r = some y) (hf : f x y = .ok v) : Computes program [.of op] [r, l] (.ok v) := by
  refine instruction fun stack => ?_
  rw [Instruction.of, execute_code, hop]
  exact (binary_pop hl hr stack).trans (by rw [hf])

theorem binary_error (view : Value → Option α) {op : Operation}
    {f : α → α → Except Fault Value} {failure : Failure}
    (hop : perform program 0 op = Machine.binary (pop kind view) f) (hl : view l = some x)
    (hr : view r = some y) (hf : f x y = .error fault) (hfault : failure.fault? = some fault)
    (hraised : fault.RaisedBy op.code) : Computes program [.of op] [r, l] (.error failure) where
  value := by simp
  fault := by
    rintro _ ⟨rfl⟩
    refine ⟨fault, hfault, fun stack => ?_⟩
    have hi : execute program (.of op) (r :: l :: stack) = .error fault stack := by
      rw [Instruction.of, execute_code, hop]
      exact (binary_pop hl hr stack).trans (by rw [hf])
    exact .here hi hraised

end Computes

end Operands

end Machine

end Tuga
