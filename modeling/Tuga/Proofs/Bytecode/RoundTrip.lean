import Tuga.Proofs.Bytecode.Layout
import Tuga.Proofs.Text.Unquote

namespace Tuga

open Text

namespace Constant

-- The entry with its text changed; reals stay as they are.
def mapText (f : Text → Text) (c : Constant) : Constant :=
  if c.kind = .text then { c with text := f c.text } else c

def entry (c : Constant) : Entry :=
  if c.kind = .real then .real c.real.bits else .text c.text.unquote.utf16

@[simp] theorem mapText_ofReal (f : Text → Text) (value : Real64) :
    (ofReal value).mapText f = ofReal value := rfl

@[simp] theorem mapText_ofText (f : Text → Text) (value : Text) :
    (ofText value).mapText f = ofText (f value) := rfl

@[simp] theorem entry_ofReal (value : Real64) : (ofReal value).entry = .real value.bits := rfl

@[simp] theorem entry_ofText (value : Text) :
    (ofText value).entry = .text value.unquote.utf16 := rfl

end Constant

-- The instruction with no argument where no operand holds one.
def Instruction.settled (i : Instruction) : Instruction :=
  { i with arg := if i.op.hasOperand then i.arg else 0 }

namespace Bytecode

def mapTexts (f : Text → Text) (b : Bytecode) : Bytecode :=
  { b with constants := b.constants.map (·.mapText f) }

theorem fileForm_eq_mapTexts (b : Bytecode) : b.fileForm = b.mapTexts unquote := rfl

-- The program as far as a file can say it: well-formed texts, and arguments for operands only.
def normalised (b : Bytecode) : Bytecode :=
  { constants := b.constants.map (·.mapText repaired), code := b.code.map Instruction.settled }

-- What can be written without loss of structure: reals and texts, known operations, and counts
-- that four bytes with the first bit clear can hold.
structure Writable (b : Bytecode) : Prop where
  constants : ∀ c ∈ b.constants, (∃ value, c = .ofReal value) ∨ ∃ value, c = .ofText value
  code : ∀ i ∈ b.code, i.op.isValid = true
  count : b.constants.length < 0x80000000
  units : ∀ c ∈ b.constants, c.text.unquote.utf16.length < 0x80000000

def image (b : Bytecode) (h : b.Writable) : Image where
  entries := b.constants.map Constant.entry
  code := b.code.map Instruction.settled
  count := by simpa using h.count
  fits := by
    intro entry he
    obtain ⟨c, hc, rfl⟩ := List.mem_map.mp he
    rcases h.constants c hc with ⟨value, rfl⟩ | ⟨value, rfl⟩
    · trivial
    · exact h.units _ hc
  plain := by
    intro i hi
    obtain ⟨j, hj, rfl⟩ := List.mem_map.mp hi
    exact ⟨h.code j hj, fun hoperand => if_neg (by simpa [Instruction.settled] using hoperand)⟩

theorem encodeConstants_eq {constants : List Constant} (index : Nat)
    (h : ∀ c ∈ constants, (∃ value, c = .ofReal value) ∨ ∃ value, c = .ofText value) :
    encodeConstants index constants = .ok ((constants.map Constant.entry).flatMap Entry.bytes) := by
  induction constants generalizing index with
  | nil => rfl
  | cons c constants ih =>
      rw [List.forall_mem_cons] at h
      have hbytes : c.bytes? = some c.entry.bytes := by
        rcases h.1 with ⟨value, rfl⟩ | ⟨value, rfl⟩ <;> rfl
      rw [encodeConstants, hbytes, ih (index + 1) h.2]
      rfl

theorem encodeCode_eq {code : List Instruction} (index : Nat)
    (h : ∀ i ∈ code, i.op.isValid = true) :
    encodeCode index code = .ok ((code.map Instruction.settled).flatMap Instruction.bytes) := by
  induction code generalizing index with
  | nil => rfl
  | cons i code ih =>
      rw [List.forall_mem_cons] at h
      obtain ⟨op, hop⟩ := (Opcode.isValid_iff i.op).mp h.1
      have hoperand := Opcode.hasOperand_of_operation hop
      have hbytes : i.bytes? = some i.settled.bytes := by
        by_cases hload : op.hasOperand = true
        · simp [Instruction.bytes?, Instruction.bytes, Instruction.settled, hop, hoperand, hload]
        · simp [Instruction.bytes?, Instruction.bytes, Instruction.settled, hop, hoperand, hload]
      rw [encodeCode, hbytes, ih (index + 1) h.2]
      rfl

theorem encode_eq_ok (b : Bytecode) (h : b.Writable) : b.encode = .ok (b.image h).bytes := by
  rw [encode, encodeConstants_eq 0 h.constants, encodeCode_eq 0 h.code]
  simp only [Image.bytes, image, List.length_map]
  rfl

theorem program_image (b : Bytecode) (h : b.Writable) :
    (b.image h).program = b.fileForm.normalised := by
  simp only [Image.program, image, normalised, fileForm_eq_mapTexts, mapTexts, List.map_map,
    Bytecode.mk.injEq, and_true]
  apply List.map_congr_left
  intro c hc
  rcases h.constants c hc with ⟨value, rfl⟩ | ⟨value, rfl⟩
  · rfl
  · simp [Entry.constant, ofUtf16_utf16]

theorem map_eq_self_iff {α : Type} (f : α → α) (l : List α) :
    l.map f = l ↔ ∀ a ∈ l, f a = a := by
  simpa using List.map_inj_left (l := l) (f := f) (g := id)

-- Only ill-formed texts and spare arguments are lost in a file.
theorem normalised_fileForm_eq_iff (b : Bytecode) :
    b.fileForm.normalised = b.fileForm ↔
      (∀ c ∈ b.constants, c.kind = .text → c.text.unquote.isUtf8 = true) ∧
        ∀ i ∈ b.code, i.op.hasOperand = false → i.arg = 0 := by
  have htexts : ∀ c : Constant, (c.mapText unquote).mapText repaired = c.mapText unquote ↔
      (c.kind = .text → c.text.unquote.isUtf8 = true) := by
    intro c
    by_cases hkind : c.kind = .text
    · simp only [Constant.mapText, hkind, if_true, true_imp_iff, Constant.mk.injEq, true_and,
        repaired_eq_self_iff]
    · simp [Constant.mapText, hkind]
  have hcode : ∀ i : Instruction, i.settled = i ↔ (i.op.hasOperand = false → i.arg = 0) := by
    rintro ⟨op, arg⟩
    by_cases hoperand : op.hasOperand = true
    · simp [Instruction.settled, hoperand]
    · simp [Instruction.settled, hoperand, eq_comm]
  simp only [fileForm_eq_mapTexts, mapTexts, normalised, Bytecode.mk.injEq, map_eq_self_iff,
    List.forall_mem_map, htexts, hcode]

-- A written program is read back in its file form, up to ill-formed texts and spare arguments.
theorem decode_encode_normalised (b : Bytecode) (h : b.Writable) :
    ∃ file, b.encode = .ok file ∧ decode file = .ok b.fileForm.normalised ∧
      (decode file = .ok b.fileForm ↔
        (∀ c ∈ b.constants, c.kind = .text → c.text.unquote.isUtf8 = true) ∧
          ∀ i ∈ b.code, i.op.hasOperand = false → i.arg = 0) := by
  have hdecode : decode (b.image h).bytes = .ok b.fileForm.normalised :=
    decode_eq_ok.mpr ⟨b.image h, rfl, program_image b h⟩
  refine ⟨(b.image h).bytes, encode_eq_ok b h, hdecode, ?_⟩
  rw [hdecode, Except.ok.injEq, normalised_fileForm_eq_iff]

-- A quoted text with an ill-formed byte, a real that is not a number, a negative operand and a
-- spare argument.
theorem decode_encode_spare_argument :
    ∃ file, (Bytecode.mk [.ofText [34, 0xF0, 0x9F, 0x98, 0x80, 0xFF, 34],
        .ofReal ⟨0x7FF0000000000001⟩] [⟨⟨0⟩, -5⟩, ⟨⟨40⟩, 7⟩]).encode = .ok file ∧
      decode file = .ok ⟨[.ofText [0xF0, 0x9F, 0x98, 0x80, 0xEF, 0xBF, 0xBD],
        .ofReal ⟨0x7FF0000000000001⟩], [⟨⟨0⟩, -5⟩, ⟨⟨40⟩, 0⟩]⟩ := by
  have hconstants : ∀ c ∈ [Constant.ofText [34, 0xF0, 0x9F, 0x98, 0x80, 0xFF, 34],
      Constant.ofReal ⟨0x7FF0000000000001⟩],
      (∃ value, c = .ofReal value) ∨ ∃ value, c = .ofText value := by
    simp only [List.forall_mem_cons]
    exact ⟨Or.inr ⟨_, rfl⟩, Or.inl ⟨_, rfl⟩, by simp⟩
  obtain ⟨file, hencode, hdecode, -⟩ := decode_encode_normalised
    ⟨_, [⟨⟨0⟩, -5⟩, ⟨⟨40⟩, 7⟩]⟩ ⟨hconstants, by decide, by decide, by decide⟩
  exact ⟨file, hencode, hdecode.trans (by decide)⟩

-- What was read from a file can be written.
theorem writable_program (image : Image) : image.program.Writable where
  constants := by
    intro c hc
    obtain ⟨entry, -, rfl⟩ := List.mem_map.mp hc
    cases entry with
    | real bits => exact Or.inl ⟨⟨bits⟩, rfl⟩
    | text us => exact Or.inr ⟨ofUtf16 us, rfl⟩
  code := fun i hi => (image.plain i hi).1
  count := by simpa [Image.program] using image.count
  units := by
    intro c hc
    obtain ⟨entry, he, rfl⟩ := List.mem_map.mp hc
    cases entry with
    | real bits =>
        change (unquote []).utf16.length < 0x80000000
        decide
    | text us =>
        have hfits : us.length < 0x80000000 := image.fits _ he
        obtain ⟨codes, hscalar, htext, hlength⟩ := exists_unquote_ofUtf16 us
        simp only [Entry.constant, Constant.ofText, htext, utf16_ofCodes hscalar]
        omega

-- An entry is written back as it was read exactly if it is no text or a paired and unquoted one.
theorem entry_constant_eq_iff (entry : Entry) :
    entry.constant.entry = entry ↔
      ∀ units, entry = .text units → Paired units ∧ ¬Quoted 34 units := by
  cases entry with
  | real bits => simp [Entry.constant]
  | text us => simp [Entry.constant, utf16_unquote_ofUtf16_iff]

theorem settled_of_plain {i : Instruction} (h : i.Plain) : i.settled = i := by
  obtain ⟨op, arg⟩ := i
  by_cases hoperand : op.hasOperand = true
  · simp [Instruction.settled, hoperand]
  · simpa [Instruction.settled, hoperand, eq_comm] using h.2 (by simpa using hoperand)

theorem image_program_eq_iff (image : Image) :
    image.program.image (writable_program image) = image ↔
      ∀ units, Entry.text units ∈ image.entries → Paired units ∧ ¬Quoted 34 units := by
  have hcode : image.code.map Instruction.settled = image.code :=
    (map_eq_self_iff _ _).mpr fun i hi => settled_of_plain (image.plain i hi)
  have hentries : (image.program.image (writable_program image)).entries = image.entries ↔
      ∀ units, Entry.text units ∈ image.entries → Paired units ∧ ¬Quoted 34 units := by
    simp only [Bytecode.image, Image.program, List.map_map, map_eq_self_iff, Function.comp_apply,
      entry_constant_eq_iff]
    constructor
    · intro h units hunits
      exact h _ hunits units rfl
    · rintro h entry hentry units rfl
      exact h units hentry
  rw [← hentries]
  constructor
  · intro h
    rw [h]
  · intro h
    exact Image.ext h hcode

theorem normalised_program (image : Image) :
    image.program.fileForm.normalised = image.program.fileForm := by
  refine (normalised_fileForm_eq_iff _).mpr ⟨?_, fun i hi => (image.plain i hi).2⟩
  intro c hc hkind
  obtain ⟨entry, -, rfl⟩ := List.mem_map.mp hc
  cases entry with
  | real bits => exact absurd hkind (show ConstantKind.real ≠ .text by decide)
  | text us =>
      obtain ⟨codes, hscalar, htext, -⟩ := exists_unquote_ofUtf16 us
      simp only [Entry.constant, Constant.ofText, htext, isUtf8_ofCodes hscalar]

-- A file that can be read is the form of one image. What was read can be written, gives the file
-- again exactly if every text of the image is paired and unquoted, and is read back unquoted.
theorem encode_decode_iff {file : Text} {b : Bytecode} (h : decode file = .ok b) :
    ∃ image : Image, (∀ other : Image, other.bytes = file ↔ other = image) ∧ image.program = b ∧
      ∃ again, b.encode = .ok again ∧
        (again = file ↔
          ∀ units, Entry.text units ∈ image.entries → Paired units ∧ ¬Quoted 0x22 units) ∧
        decode again = .ok b.fileForm := by
  obtain ⟨image, rfl, rfl⟩ := decode_eq_ok.mp h
  have hw := writable_program image
  refine ⟨image, fun other => ⟨Image.bytes_inj, fun heq => by rw [heq]⟩, rfl, _,
    encode_eq_ok _ hw, ?_, ?_⟩
  · rw [← image_program_eq_iff image]
    exact ⟨Image.bytes_inj, fun heq => by rw [heq]⟩
  · rw [← normalised_program image]
    exact decode_eq_ok.mpr ⟨_, rfl, program_image _ hw⟩

-- A file whose only text is two quotes is not written back.
theorem encode_decode_quotes :
    decode [0, 0, 0, 1, 3, 0, 0, 0, 2, 0, 34, 0, 34, 40] = .ok ⟨[.ofText [34, 34]], [⟨⟨40⟩, 0⟩]⟩ ∧
      ∃ again, (Bytecode.mk [.ofText [34, 34]] [⟨⟨40⟩, 0⟩]).encode = .ok again ∧
        again ≠ [0, 0, 0, 1, 3, 0, 0, 0, 2, 0, 34, 0, 34, 40] ∧
        decode again = .ok ⟨[.ofText []], [⟨⟨40⟩, 0⟩]⟩ := by
  have hfile : decode [0, 0, 0, 1, 3, 0, 0, 0, 2, 0, 34, 0, 34, 40] =
      .ok ⟨[.ofText [34, 34]], [⟨⟨40⟩, 0⟩]⟩ := by decide
  obtain ⟨image, himage, -, again, hencode, hagain, hdecode⟩ := encode_decode_iff hfile
  refine ⟨hfile, again, hencode, ?_, hdecode⟩
  have hquotes : image.entries = [.text [34, 34]] :=
    congrArg Image.entries ((himage ⟨[.text [34, 34]], [⟨⟨40⟩, 0⟩], by decide, by
      simp [Entry.Fits], by simp [Instruction.Plain]; decide⟩).mp (by decide)).symm
  intro heq
  exact (hagain.mp heq [34, 34] (by simp [hquotes])).2 ⟨by decide, rfl, rfl⟩

end Bytecode

end Tuga
