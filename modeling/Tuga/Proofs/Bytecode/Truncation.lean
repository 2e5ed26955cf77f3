import Tuga.Proofs.Bytecode.Fields

namespace Tuga

open Text

namespace Bytecode

-- What is refused for another cause than its end is refused whatever follows.
theorem Refuses.append {place : Place} {rest : Text} {cause : DecodeCause}
    (h : Refuses place rest cause) (hcause : cause ≠ .truncated) (more : Text) :
    Refuses place (rest ++ more) cause := by
  cases h with
  | truncated hlt hplace => exact absurd rfl hcause
  | tag rest hreal htext => exact .tag (rest ++ more) hreal htext
  | opcode rest hbyte => exact .opcode (rest ++ more) hbyte
  | count rest hlength hle =>
      rw [List.append_assoc]
      exact .count (rest ++ more) hlength hle
  | length rest hlength hle =>
      rw [List.append_assoc]
      exact .length (rest ++ more) hlength hle

theorem decode_append_of_error {file : Text} {e : DecodeError} (h : decode file = .error e)
    (hcause : e.cause ≠ .truncated) (more : Text) : decode (file ++ more) = .error e := by
  obtain ⟨before, place, rest, rfl, hreached, hrefuses, hitem, hoffset⟩ :=
    decode_eq_error_iff.mp h
  rw [List.append_assoc]
  exact decode_eq_error_iff.mpr
    ⟨before, place, rest ++ more, rfl, hreached, hrefuses.append hcause more, hitem, hoffset⟩

theorem decodeCode_flatMap_append {code : List Instruction} (h : ∀ i ∈ code, i.Plain)
    (offset : Nat) (rest : Text) :
    decodeCode offset (code.flatMap Instruction.bytes ++ rest) =
      (decodeCode (offset + (code.flatMap Instruction.bytes).length) rest).map (code ++ ·) := by
  induction code generalizing offset with
  | nil => cases hrest : decodeCode offset rest <;> simp [hrest, Except.map]
  | cons i code ih =>
      rw [List.forall_mem_cons] at h
      rw [List.flatMap_cons, List.append_assoc, decodeCode_bytes_append h.1, ih h.2,
        List.length_append, ← Nat.add_assoc]
      cases decodeCode (offset + i.bytes.length + (code.flatMap Instruction.bytes).length) rest <;>
        rfl

end Bytecode

namespace Image

-- Where the code of a file begins.
def codeStart (image : Image) : Nat :=
  4 + (image.entries.flatMap Entry.bytes).length

-- The offset between two instructions, at the start of the code or at its end.
def IsBoundary (image : Image) (offset : Nat) : Prop :=
  ∃ code, code <+: image.code ∧
    offset = image.codeStart + (code.flatMap Instruction.bytes).length

-- The image of a file without the instructions behind the first ones.
def keep (image : Image) {code : List Instruction} (h : code <+: image.code) : Image :=
  { image with code, plain := fun i hi => image.plain i (h.subset hi) }

theorem length_bytes_keep (image : Image) {code : List Instruction} (h : code <+: image.code) :
    (image.keep h).bytes.length = image.codeStart + (code.flatMap Instruction.bytes).length := by
  simp only [bytes, keep, codeStart, List.length_append, length_bigEndian]

theorem bytes_keep_prefix (image : Image) {code : List Instruction} (h : code <+: image.code) :
    (image.keep h).bytes <+: image.bytes := by
  obtain ⟨more, hmore⟩ := h
  exact ⟨more.flatMap Instruction.bytes, by simp [bytes, keep, ← hmore]⟩

-- A file that starts another one holds its constants and the first of its instructions.
theorem exists_keep_of_prefix {image start : Image} (h : start.bytes <+: image.bytes) :
    ∃ hcode : start.code <+: image.code, start = image.keep hcode := by
  obtain ⟨more, hmore⟩ := h
  have hcount := image.count
  have hcount' := start.count
  simp only [bytes, List.append_assoc] at hmore
  obtain ⟨hhead, htail⟩ := List.append_inj hmore (by simp)
  have hlength := bigEndian_inj (by omega) (by omega) hhead
  obtain ⟨hentries, hcode⟩ := Entry.flatMap_bytes_append_inj hlength start.fits image.fits htail
  have hread : Bytecode.decodeCode 0 (image.code.flatMap Instruction.bytes) = .ok image.code :=
    Bytecode.decodeCode_eq_ok.mpr ⟨image.plain, rfl⟩
  rw [← hcode, Bytecode.decodeCode_flatMap_append start.plain] at hread
  obtain ⟨code, -, happend⟩ := map_eq_ok.mp hread
  exact ⟨⟨code, happend⟩, Image.ext hentries rfl⟩

end Image

namespace Bytecode

-- A file that is cut off before its end lacks its end, or is a file with the same constants and
-- fewer instructions. It is one exactly if the cut is between two instructions.
theorem decode_cut {file : Text} {b : Bytecode} (h : decode file = .ok b) :
    ∃ image : Image, image.bytes = file ∧ image.program = b ∧
      ∀ cut, cut <+: file → cut ≠ file →
        ((∃ offset item, decode cut = .error ⟨offset, item, .truncated⟩) ∨
          ∃ code, code <+: b.code ∧ code ≠ b.code ∧ decode cut = .ok ⟨b.constants, code⟩) ∧
        ((∃ b', decode cut = .ok b') ↔ image.IsBoundary cut.length) := by
  obtain ⟨image, rfl, rfl⟩ := decode_eq_ok.mp h
  refine ⟨image, rfl, rfl, fun cut hprefix hne => ⟨?_, ?_, ?_⟩⟩
  · cases hcut : decode cut with
    | error e =>
        refine .inl ⟨e.offset, e.item, congrArg Except.error ?_⟩
        by_cases hcause : e.cause = .truncated
        · rw [← hcause]
        · obtain ⟨more, hmore⟩ := hprefix
          rw [← hmore, decode_append_of_error hcut hcause more] at h
          cases h
    | ok b' =>
        obtain ⟨start, rfl, rfl⟩ := decode_eq_ok.mp hcut
        obtain ⟨hcode, hstart⟩ := Image.exists_keep_of_prefix hprefix
        refine .inr ⟨start.code, hcode, fun heq => hne ?_, ?_⟩
        · have hcode : start.code = image.code := heq
          rw [hstart, Image.bytes, Image.bytes]
          simp only [Image.keep, hcode]
        · rw [hstart]
          rfl
  · rintro ⟨b', hcut⟩
    obtain ⟨start, rfl, rfl⟩ := decode_eq_ok.mp hcut
    obtain ⟨hcode, hstart⟩ := Image.exists_keep_of_prefix hprefix
    refine ⟨start.code, hcode, ?_⟩
    rw [← image.length_bytes_keep hcode, ← hstart]
  · rintro ⟨code, hcode, hlength⟩
    have hkeep := image.bytes_keep_prefix hcode
    rw [← image.length_bytes_keep hcode] at hlength
    have hcut : (image.keep hcode).bytes = cut :=
      (List.prefix_of_prefix_length_le hkeep hprefix (Nat.le_of_eq hlength.symm)).eq_of_length
        hlength.symm
    exact ⟨_, decode_eq_ok.mpr ⟨image.keep hcode, hcut, rfl⟩⟩

-- A cut behind the load of a constant leaves a file, a cut inside its operand does not.
theorem decode_cut_operand :
    let file : Text := [0, 0, 0, 1, 1, 63, 240, 0, 0, 0, 0, 0, 0, 1, 0, 0, 0, 0, 16, 40]
    let b : Bytecode := ⟨[.ofReal ⟨0x3ff0000000000000⟩],
      [⟨Operation.dconst.code, 0⟩, .of .dprint, .of .halt]⟩
    decode file = .ok b ∧ decode (file.take 18) = .ok ⟨b.constants, [⟨Operation.dconst.code, 0⟩]⟩ ∧
      decode (file.take 16) = .error ⟨14, .operand .dconst, .truncated⟩ ∧
      ∃ image : Image, image.bytes = file ∧ image.IsBoundary 18 ∧ ¬image.IsBoundary 16 := by
  intro file b
  have hfile : decode file = .ok b := by decide
  have hwhole : decode (file.take 18) = .ok ⟨b.constants, [⟨Operation.dconst.code, 0⟩]⟩ := by
    decide
  have hpart : decode (file.take 16) = .error ⟨14, .operand .dconst, .truncated⟩ := by decide
  obtain ⟨image, hbytes, -, hcut⟩ := decode_cut hfile
  have h18 := (hcut (file.take 18) (List.take_prefix 18 file) (by decide)).2
  have h16 := (hcut (file.take 16) (List.take_prefix 16 file) (by decide)).2
  refine ⟨hfile, hwhole, hpart, image, hbytes, h18.mp ⟨_, hwhole⟩, fun hboundary => ?_⟩
  obtain ⟨b', hb'⟩ := h16.mpr hboundary
  rw [hpart] at hb'
  cases hb'

end Bytecode

end Tuga
