import Mathlib.Data.List.TakeWhile
import Tuga.Bytecode.Lines
import Tuga.Proofs.Bytecode.Replacement
import Tuga.Proofs.Text.Words

namespace Tuga

open Text

namespace Operation

theorem mem_all (op : Operation) : op ∈ all := by
  cases op <;> decide

-- What every mnemonic satisfies is evaluated once, over the list of all operations.
theorem name_spec (op : Operation) :
    (∀ b ∈ op.name, isVisible b = true) ∧ op.name ≠ [] ∧ op.name.length < 8 := by
  have hall : ∀ op ∈ all,
      op.name.all isVisible = true ∧ op.name ≠ [] ∧ op.name.length < 8 := by
    decide +kernel
  simpa only [List.all_eq_true] using hall op op.mem_all

theorem isVisible_name (op : Operation) : ∀ b ∈ op.name, isVisible b = true :=
  op.name_spec.1

theorem name_ne_nil (op : Operation) : op.name ≠ [] :=
  op.name_spec.2.1

theorem ofName?_name (op : Operation) : ofName? op.name = some op := by
  have hall : ∀ op ∈ all, ofName? op.name = some op := by decide +kernel
  exact hall op op.mem_all

end Operation

theorem Opcode.eq_code {code : Opcode} {op : Operation} (h : code.operation? = some op) :
    code = op.code := by
  obtain ⟨byte⟩ := code
  have hordinal := Operation.ordinal_of_ofOrdinal? h
  rw [Operation.code, hordinal]
  simp

namespace Instruction

-- An instruction that a file can hold is one of an operation, whose argument is 0 if it has no
-- operand.
theorem Plain.exists_operation {i : Instruction} (h : i.Plain) :
    ∃ (op : Operation) (arg : Int32), i = ⟨op.code, arg⟩ ∧ (op.hasOperand = false → arg = 0) := by
  obtain ⟨code, arg⟩ := i
  obtain ⟨op, hop⟩ := (Opcode.isValid_iff code).mp h.1
  have hoperand := Opcode.hasOperand_of_operation hop
  obtain rfl := Opcode.eq_code hop
  exact ⟨op, arg, rfl, fun hnone => h.2 (hoperand.trans hnone)⟩

theorem render_eq (op : Operation) (arg : Int32) :
    render ⟨op.code, arg⟩ =
      if op.hasOperand then op.name ++ 32 :: Text.ofInt arg.toInt else op.name := by
  have hop := Opcode.operation?_code op
  simp [render, Opcode.hasOperand_of_operation hop, Opcode.name, hop]

section Operand

theorem isSign_eq_false {b : UInt8} (h : isDigitByte b = true) : isSign b = false := by
  simp only [isDigitByte, UInt8.le_iff_toNat_le, Bool.and_eq_true, decide_eq_true_eq] at h
  change 48 ≤ b.toNat ∧ b.toNat ≤ 57 at h
  simp [isSign, ← UInt8.toNat_inj]
  omega

theorem takeWhile_ofNat (n : Nat) : (Text.ofNat n).takeWhile isDigitByte = Text.ofNat n :=
  List.takeWhile_eq_self_iff.mpr fun _ => isDigitByte_of_mem_ofNat

theorem head?_ofNat_not_sign (n : Nat) : (Text.ofNat n).head?.any isSign = false := by
  obtain ⟨b, digits, hdigits⟩ := List.exists_cons_of_ne_nil (ofNat_ne_nil n)
  have hb : isDigitByte b = true := isDigitByte_of_mem_ofNat (hdigits ▸ List.mem_cons_self)
  simp [hdigits, isSign_eq_false hb]

theorem operand?_ofInt (arg : Int32) : operand? (Text.ofInt arg.toInt) = .ok arg := by
  have hlow := arg.le_toInt
  have hhigh := arg.toInt_lt
  have harg : Int32.ofInt arg.toInt = arg := Int32.ofInt_toInt arg
  generalize arg.toInt = n at hlow hhigh harg
  cases n with
  | ofNat n =>
      have hn : (Int.ofNat n : Int) = n := rfl
      rw [hn] at hlow hhigh harg
      simp only [operand?, Text.ofInt, head?_ofNat_not_sign, Bool.false_eq_true, if_false,
        List.take_zero, List.length_nil, List.drop_zero, takeWhile_ofNat, toNat_ofNat,
        List.isEmpty_eq_false_iff.mpr (ofNat_ne_nil n), reduceCtorEq]
      rw [if_neg (by simp; omega), if_neg (by simp; omega), harg]
  | negSucc n =>
      have hn : Int.negSucc n = -((n + 1 : Nat) : Int) := rfl
      rw [hn] at hlow hhigh harg
      have hsign : (45 :: Text.ofNat (n + 1)).head?.any isSign = true := rfl
      simp only [operand?, Text.ofInt, hsign, if_true, List.take_succ_cons, List.take_zero,
        List.length_cons, List.length_nil, Nat.zero_add, List.drop_succ_cons, List.drop_zero,
        takeWhile_ofNat, toNat_ofNat, List.isEmpty_eq_false_iff.mpr (ofNat_ne_nil (n + 1)),
        Bool.false_eq_true, if_false]
      rw [if_neg (by simp; omega), if_neg (by simp; omega), harg]

theorem isVisible_ofInt (n : Int) : ∀ b ∈ Text.ofInt n, isVisible b = true := by
  have hnat : ∀ n, ∀ b ∈ Text.ofNat n, isVisible b = true :=
    fun n b hb => isVisible_of_isDigitByte (isDigitByte_of_mem_ofNat hb)
  cases n with
  | ofNat n => exact hnat n
  | negSucc n => exact List.forall_mem_cons.mpr ⟨by decide, hnat (n + 1)⟩

theorem ofInt_ne_nil (n : Int) : Text.ofInt n ≠ [] := by
  cases n with
  | ofNat n => exact ofNat_ne_nil n
  | negSucc n => exact List.cons_ne_nil _ _

end Operand

section Lines

variable {i : Instruction}

theorem ofLine_render (h : i.Plain) : ofLine i.render = .ok (some i) := by
  obtain ⟨op, arg, rfl, harg⟩ := h.exists_operation
  rw [render_eq]
  by_cases hoperand : op.hasOperand = true
  · rw [if_pos hoperand, ofLine, words_blank_between op.isVisible_name (isVisible_ofInt _)
      op.name_ne_nil (ofInt_ne_nil _)]
    simp only [op.ofName?_name, hoperand, if_true, operand?_ofInt]
  · rw [if_neg hoperand, ofLine, words_visible op.isVisible_name op.name_ne_nil]
    simp only [op.ofName?_name, hoperand]
    simp [Instruction.of, harg (by simpa using hoperand)]

theorem isUtf8_render (h : i.Plain) : i.render.isUtf8 = true := by
  have hvisible : ∀ {b : UInt8}, isVisible b = true → b.toNat < 0x80 := by
    intro b hb
    rw [isVisible_iff] at hb
    omega
  obtain ⟨op, arg, rfl, -⟩ := h.exists_operation
  rw [render_eq]
  apply isUtf8_of_ascii
  intro b hb
  split at hb
  case isTrue =>
    rcases List.mem_append.mp hb with hb | hb
    · exact hvisible (op.isVisible_name b hb)
    · rcases List.mem_cons.mp hb with rfl | hb
      · decide
      · exact hvisible (isVisible_ofInt _ b hb)
  case isFalse => exact hvisible (op.isVisible_name b hb)

theorem length_render_lt (h : i.Plain) : i.render.length < 2 ^ 64 := by
  obtain ⟨op, arg, rfl, -⟩ := h.exists_operation
  have hname := op.name_spec.2.2
  have hdigits : (Text.ofInt arg.toInt).length ≤ 2 ^ 31 + 2 := by
    have hlow := arg.le_toInt
    have hhigh := arg.toInt_lt
    generalize arg.toInt = n at hlow hhigh
    cases n with
    | ofNat n =>
        have := length_ofNat_le n
        simp only [Text.ofInt, Int.ofNat_eq_natCast] at hhigh ⊢
        omega
    | negSucc n =>
        have := length_ofNat_le (n + 1)
        simp only [Text.ofInt, List.length_cons]
        omega
  rw [render_eq]
  split
  · rw [List.length_append, List.length_cons]
    omega
  · omega

theorem ofLinesFrom_render {code : List Instruction} (h : ∀ i ∈ code, i.Plain) (line : Nat) :
    ofLinesFrom line (code.map render) = .ok code := by
  induction code generalizing line with
  | nil => rfl
  | cons i code ih =>
      rw [List.forall_mem_cons] at h
      rw [List.map_cons, ofLinesFrom, ofLine_render h.1, ih h.2]
      rfl

-- The lines of a program hold its code.
theorem ofLines_lines {b : Bytecode} (h : ∀ i ∈ b.code, i.Plain) : ofLines b.lines = .ok b.code :=
  ofLinesFrom_render h 1

end Lines

end Instruction

end Tuga
