import Tuga.Proofs.Bytecode.Cursor

namespace Tuga

open Text

theorem Operation.ordinal_of_ofOrdinal? {n : Nat} {op : Operation} (h : ofOrdinal? n = some op) :
    op.ordinal = n := by
  have hall : all.map ordinal = List.range 45 := by decide
  have hn := List.getElem?_map (f := ordinal) (l := all) (i := n)
  rw [hall, show all[n]? = some op from h] at hn
  obtain ⟨_, heq⟩ := List.getElem?_eq_some_iff.mp hn
  rw [List.getElem_range] at heq
  exact heq.symm

-- The loads of constants are the operations with the least numbers.
theorem Operation.hasOperand_iff (op : Operation) : op.hasOperand ↔ op.ordinal ≤ 2 := by
  cases op <;> decide

theorem Opcode.isValid_iff_le (code : Opcode) : code.isValid ↔ code.byte ≤ 44 := by
  rw [isValid, Option.isSome_iff_ne_none, ne_eq, operation?_eq_none_iff, UInt8.not_lt]

theorem Opcode.hasOperand_iff_le (code : Opcode) : code.hasOperand ↔ code.byte ≤ 2 := by
  cases h : code.operation? with
  | none =>
      have hbyte := operation?_eq_none_iff.mp h
      simp only [hasOperand, h, Option.any_none, Bool.false_eq_true, false_iff, UInt8.not_le]
      exact Nat.lt_trans (by decide) hbyte
  | some op =>
      rw [hasOperand_of_operation h, op.hasOperand_iff, Operation.ordinal_of_ofOrdinal? h]
      rfl

theorem Instruction.plain_iff (i : Instruction) :
    i.Plain ↔ i.op.byte ≤ 44 ∧ (2 < i.op.byte → i.arg = 0) := by
  rw [Plain, i.op.isValid_iff_le, ← Bool.not_eq_true, i.op.hasOperand_iff_le, UInt8.not_le]

theorem Instruction.bytes_eq (i : Instruction) :
    i.bytes = i.op.byte :: if i.op.byte ≤ 2 then bigEndian 4 i.arg.toUInt32.toNat else [] := by
  simp only [bytes, i.op.hasOperand_iff_le]
  split
  · rfl
  · rfl

-- A file that is laid out as pool entries and instructions: the number of entries, the entries,
-- and the instructions, each a byte and four more for an operand.
structure Bytecode.Layout (file : Text) (entries : List Entry) (code : List Instruction) :
    Prop where
  count : entries.length < 2 ^ 31
  fits : ∀ entry ∈ entries, entry.Fits
  known : ∀ i ∈ code, i.op.byte ≤ 44
  settled : ∀ i ∈ code, 2 < i.op.byte → i.arg = 0
  file_eq : file = bigEndian 4 entries.length ++ entries.flatMap Entry.bytes ++
    code.flatMap fun i =>
      i.op.byte :: if i.op.byte ≤ 2 then bigEndian 4 i.arg.toUInt32.toNat else []

namespace Bytecode

theorem layout_iff {file : Text} {entries : List Entry} {code : List Instruction} :
    Layout file entries code ↔
      ∃ image : Image, image.bytes = file ∧ image.entries = entries ∧ image.code = code := by
  simp only [Image.bytes, show Instruction.bytes = _ from funext Instruction.bytes_eq]
  constructor
  · rintro ⟨count, fits, known, settled, rfl⟩
    have plain : ∀ i ∈ code, i.Plain := fun i hi => i.plain_iff.mpr ⟨known i hi, settled i hi⟩
    exact ⟨⟨entries, code, count, fits, plain⟩, rfl, rfl, rfl⟩
  · rintro ⟨image, rfl, rfl, rfl⟩
    exact ⟨image.count, image.fits, fun i hi => (i.plain_iff.mp (image.plain i hi)).1,
      fun i hi => (i.plain_iff.mp (image.plain i hi)).2, rfl⟩

theorem decode_eq_ok_iff_layout {file : Text} {b : Bytecode} :
    decode file = .ok b ↔
      ∃ entries code, Layout file entries code ∧ b = ⟨entries.map Entry.constant, code⟩ := by
  rw [decode_eq_ok]
  constructor
  · rintro ⟨image, hbytes, rfl⟩
    exact ⟨image.entries, image.code, layout_iff.mpr ⟨image, hbytes, rfl, rfl⟩, rfl⟩
  · rintro ⟨entries, code, hlayout, rfl⟩
    obtain ⟨image, hbytes, rfl, rfl⟩ := layout_iff.mp hlayout
    exact ⟨image, hbytes, rfl⟩

theorem Layout.unique {file : Text} {entries entries' : List Entry}
    {code code' : List Instruction} (h : Layout file entries code)
    (h' : Layout file entries' code') : entries = entries' ∧ code = code' := by
  obtain ⟨image, hbytes, rfl, rfl⟩ := layout_iff.mp h
  obtain ⟨other, hbytes', rfl, rfl⟩ := layout_iff.mp h'
  obtain rfl := Image.bytes_inj (hbytes.trans hbytes'.symm)
  exact ⟨rfl, rfl⟩

theorem replace_eq (file : Text) (old : Bytecode) :
    replace file old =
      match decode file with
      | .ok b => .ok () b
      | .error e => .error e old := by
  rw [replace]
  cases decode file <;> rfl

-- Replacing a program accepts exactly the files laid out as a program, each in one way. Any other
-- file gives an error that is true of it and leaves the program as it was. No byte beyond the end
-- of the file is looked at.
theorem replace_exact_atomic (file : Text) (old : Bytecode) :
    (∀ b, replace file old = .ok () b ↔
      ∃ entries code, Layout file entries code ∧ b = ⟨entries.map Entry.constant, code⟩) ∧
    (∀ entries code entries' code', Layout file entries code → Layout file entries' code' →
      entries = entries' ∧ code = code') ∧
    ((¬∃ entries code, Layout file entries code) →
      ∃ e, replace file old = .error e old ∧ e.Describes file) ∧
    ∃ outcome, ((Cursor.decode file).run 0).run = some outcome ∧
      outcome.map Prod.fst = decode file := by
  have hunique : ∀ entries code entries' code', Layout file entries code →
      Layout file entries' code' → entries = entries' ∧ code = code' :=
    fun _ _ _ _ h h' => h.unique h'
  simp only [← decode_eq_ok_iff_layout, replace_eq]
  cases hdecode : decode file with
  | ok decoded =>
      obtain ⟨entries, code, hlayout, -⟩ := decode_eq_ok_iff_layout.mp hdecode
      refine ⟨fun b => by simp, hunique, fun hnone => ?_, ?_⟩
      · exact absurd ⟨entries, code, hlayout⟩ hnone
      · exact ⟨_, Cursor.run_decode_of_ok hdecode, rfl⟩
  | error e =>
      obtain ⟨hrun, hdescribes⟩ := Cursor.run_decode_of_error hdecode
      exact ⟨fun b => by simp, hunique, fun _ => ⟨e, rfl, hdescribes⟩, _, hrun, rfl⟩

end Bytecode

end Tuga
