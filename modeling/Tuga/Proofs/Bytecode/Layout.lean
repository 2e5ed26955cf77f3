import Tuga.Proofs.Bytecode.BigEndian
import Tuga.Proofs.Computation

namespace Tuga

open Text Bytecode

-- A pool entry as a file holds it.
inductive Entry where
  | real (bits : UInt64)
  | text (units : List UInt16)
  deriving DecidableEq, Repr

namespace Entry

def bytes : Entry → Text
  | real bits => 1 :: bigEndian 8 bits.toNat
  | text units => 3 :: (bigEndian 4 units.length ++ unitBytes units)

-- The number of units is a count of four bytes whose first bit is clear.
def Fits : Entry → Prop
  | real _ => True
  | text units => units.length < 0x80000000

-- The pool entry that a file's entry stands for.
def constant : Entry → Constant
  | real bits => .ofReal ⟨bits⟩
  | text units => .ofText (ofUtf16 units)

end Entry

namespace Instruction

-- The bytes of an instruction whose operation is known.
def bytes (i : Instruction) : Text :=
  if i.op.hasOperand then i.op.byte :: bigEndian 4 i.arg.toUInt32.toNat else [i.op.byte]

-- What a file can hold: a known operation, and no argument without an operand.
def Plain (i : Instruction) : Prop :=
  i.op.isValid = true ∧ (i.op.hasOperand = false → i.arg = 0)

end Instruction

-- What a file says.
structure Image where
  entries : List Entry
  code : List Instruction
  count : entries.length < 0x80000000
  fits : ∀ entry ∈ entries, entry.Fits
  plain : ∀ i ∈ code, i.Plain

namespace Image

def bytes (image : Image) : Text :=
  bigEndian 4 image.entries.length ++ image.entries.flatMap Entry.bytes ++
    image.code.flatMap Instruction.bytes

-- The program that an image stands for.
def program (image : Image) : Bytecode :=
  { constants := image.entries.map Entry.constant, code := image.code }

theorem ext {image other : Image} (hentries : image.entries = other.entries)
    (hcode : image.code = other.code) : image = other := by
  cases image
  cases other
  cases hentries
  cases hcode
  rfl

end Image

namespace Bytecode

theorem Rest.take_eq_ok {rest after : Rest} {n : Nat} {item : DecodeItem} {bytes : Text} :
    rest.take n item = .ok (bytes, after) ↔
      rest.data = bytes ++ after.data ∧ bytes.length = n ∧ after.offset = rest.offset + n := by
  simp only [Rest.take]
  split
  · rename_i h
    simp only [List.length_take] at h
    simp only [reduceCtorEq, false_iff]
    rintro ⟨hdata, hlength, -⟩
    rw [hdata, List.length_append] at h
    omega
  · rename_i h
    simp only [List.length_take] at h
    cases after with
    | mk offset data =>
        simp only [Except.ok.injEq, Prod.mk.injEq, Rest.mk.injEq]
        constructor
        · rintro ⟨rfl, rfl, rfl⟩
          exact ⟨(List.take_append_drop n rest.data).symm, by simp; omega, rfl⟩
        · rintro ⟨hdata, hlength, rfl⟩
          rw [hdata, ← hlength]
          simp

theorem Rest.count_eq_ok {rest after : Rest} {item : DecodeItem} {n : Nat} :
    rest.count item = .ok (n, after) ↔
      n < 0x80000000 ∧ rest.data = bigEndian 4 n ++ after.data ∧
        after.offset = rest.offset + 4 := by
  simp only [Rest.count, bind_eq_ok]
  constructor
  · rintro ⟨⟨bytes, after'⟩, htake, h⟩
    obtain ⟨hdata, hlength, hoffset⟩ := Rest.take_eq_ok.mp htake
    split at h
    · rename_i hlt
      cases h
      rw [bigEndian_ofBigEndian hlength]
      exact ⟨hlt, hdata, hoffset⟩
    · cases h
  · rintro ⟨hlt, hdata, hoffset⟩
    refine ⟨(bigEndian 4 n, after), Rest.take_eq_ok.mpr ⟨hdata, by simp, hoffset⟩, ?_⟩
    rw [ofBigEndian_bigEndian_of_lt (by omega), if_pos hlt]
    rfl

private theorem bits_eq (bytes : Text) (h : bytes.length = 8) :
    bigEndian 8 (UInt64.ofNat (ofBigEndian bytes)).toNat = bytes := by
  have hlt := ofBigEndian_lt bytes
  rw [h] at hlt
  rw [UInt64.toNat_ofNat', Nat.mod_eq_of_lt (by omega), bigEndian_ofBigEndian h]

private theorem ofNat_bits (bits : UInt64) :
    UInt64.ofNat (ofBigEndian (bigEndian 8 bits.toNat)) = bits := by
  have hlt := bits.toNat_lt
  rw [ofBigEndian_bigEndian_of_lt (by omega), UInt64.ofNat_toNat]

-- What is read after the tag of a constant, which stood at `start`.
def Rest.payload (start : Nat) (kind : ConstantKind) (after : Rest) :
    Except DecodeError (Constant × Rest) :=
  if kind = .real then do
    let (bytes, after) ← after.take 8 .realConstant
    return (.ofReal ⟨UInt64.ofNat (ofBigEndian bytes)⟩, after)
  else if kind = .text then do
    let (n, after) ← after.count .textLength
    let (bytes, after) ← after.take (2 * n) .textConstant
    return (.ofText (ofUtf16 (units bytes)), after)
  else throw ⟨start, .constantTag, .unknownTag kind.tag⟩

theorem Rest.constant_eq (rest : Rest) :
    rest.constant = rest.take 1 .constantTag >>= fun read =>
      Rest.payload rest.offset ⟨read.1.headD 0⟩ read.2 := rfl

theorem Rest.payload_real_eq_ok {start : Nat} {rest after : Rest} {c : Constant} :
    Rest.payload start .real rest = .ok (c, after) ↔
      ∃ bits : UInt64, .ofReal ⟨bits⟩ = c ∧ rest.data = bigEndian 8 bits.toNat ++ after.data ∧
        after.offset = rest.offset + 8 := by
  simp only [Rest.payload, if_pos, bind_eq_ok]
  constructor
  · rintro ⟨⟨bytes, afterBits⟩, htake, h⟩
    obtain ⟨hdata, hlength, hoffset⟩ := Rest.take_eq_ok.mp htake
    cases h
    refine ⟨UInt64.ofNat (ofBigEndian bytes), rfl, ?_, hoffset⟩
    rw [bits_eq bytes hlength, hdata]
  · rintro ⟨bits, rfl, hdata, hoffset⟩
    refine ⟨(bigEndian 8 bits.toNat, after), Rest.take_eq_ok.mpr ⟨hdata, by simp, hoffset⟩, ?_⟩
    rw [ofNat_bits]
    rfl

theorem Rest.payload_text_eq_ok {start : Nat} {rest after : Rest} {c : Constant} :
    Rest.payload start .text rest = .ok (c, after) ↔
      ∃ us : List UInt16, us.length < 0x80000000 ∧ .ofText (ofUtf16 us) = c ∧
        rest.data = bigEndian 4 us.length ++ (unitBytes us ++ after.data) ∧
        after.offset = rest.offset + 4 + 2 * us.length := by
  have hkind : ConstantKind.text ≠ .real := by decide
  simp only [Rest.payload, if_neg hkind, if_pos, bind_eq_ok]
  constructor
  · rintro ⟨⟨n, afterCount⟩, hcount, ⟨bytes, afterUnits⟩, htake, h⟩
    obtain ⟨hlt, hdata, hoffset⟩ := Rest.count_eq_ok.mp hcount
    obtain ⟨hdata', hlength, hoffset'⟩ := Rest.take_eq_ok.mp htake
    obtain ⟨hbytes, rfl⟩ := unitBytes_units hlength
    cases h
    refine ⟨units bytes, hlt, rfl, ?_, ?_⟩
    · rw [hbytes, hdata, hdata']
    · rw [hoffset', hoffset]
  · rintro ⟨us, hlt, rfl, hdata, hoffset⟩
    refine ⟨(us.length, ⟨rest.offset + 4, unitBytes us ++ after.data⟩),
      Rest.count_eq_ok.mpr ⟨hlt, hdata, rfl⟩, (unitBytes us, after),
      Rest.take_eq_ok.mpr ⟨rfl, by simp, hoffset⟩, ?_⟩
    rw [units_unitBytes]
    rfl

-- Reading a constant takes the bytes of one entry.
theorem Rest.constant_eq_ok {rest after : Rest} {c : Constant} :
    rest.constant = .ok (c, after) ↔
      ∃ entry : Entry, entry.Fits ∧ entry.constant = c ∧ rest.data = entry.bytes ++ after.data ∧
        after.offset = rest.offset + entry.bytes.length := by
  rw [Rest.constant_eq, bind_eq_ok]
  constructor
  · rintro ⟨⟨tag, afterTag⟩, htag, h⟩
    obtain ⟨hdata, hlength, hoffset⟩ := Rest.take_eq_ok.mp htag
    obtain ⟨byte, rfl⟩ := List.length_eq_one_iff.mp hlength
    change Rest.payload rest.offset ⟨byte⟩ afterTag = .ok (c, after) at h
    by_cases hreal : ConstantKind.mk byte = .real
    · obtain rfl : byte = 1 := congrArg ConstantKind.tag hreal
      obtain ⟨bits, rfl, hdata', hoffset'⟩ := Rest.payload_real_eq_ok.mp h
      refine ⟨.real bits, trivial, rfl, ?_, ?_⟩
      · rw [hdata, hdata']
        rfl
      · rw [hoffset', hoffset, Entry.bytes, List.length_cons, length_bigEndian]
    by_cases htext : ConstantKind.mk byte = .text
    · obtain rfl : byte = 3 := congrArg ConstantKind.tag htext
      obtain ⟨us, hlt, rfl, hdata', hoffset'⟩ := Rest.payload_text_eq_ok.mp h
      refine ⟨.text us, hlt, rfl, ?_, ?_⟩
      · rw [hdata, hdata']
        simp [Entry.bytes]
      · simp only [hoffset', hoffset, Entry.bytes, List.length_cons, List.length_append,
          length_bigEndian, length_unitBytes]
        omega
    · simp only [Rest.payload, if_neg hreal, if_neg htext] at h
      cases h
  · rintro ⟨entry, hfits, rfl, hdata, hoffset⟩
    cases entry with
    | real bits =>
        refine ⟨([1], ⟨rest.offset + 1, bigEndian 8 bits.toNat ++ after.data⟩),
          Rest.take_eq_ok.mpr ⟨hdata, rfl, rfl⟩, Rest.payload_real_eq_ok.mpr ⟨bits, rfl, rfl, ?_⟩⟩
        rw [hoffset, Entry.bytes, List.length_cons, length_bigEndian]
    | text us =>
        refine ⟨([3], ⟨rest.offset + 1, bigEndian 4 us.length ++ (unitBytes us ++ after.data)⟩),
          Rest.take_eq_ok.mpr ⟨by rw [hdata]; simp [Entry.bytes], rfl, rfl⟩,
          Rest.payload_text_eq_ok.mpr ⟨us, hfits, rfl, rfl, ?_⟩⟩
        simp only [hoffset, Entry.bytes, List.length_cons, List.length_append, length_bigEndian,
          length_unitBytes]
        omega

theorem Rest.constants_eq_ok {n : Nat} {rest after : Rest} {cs : List Constant} :
    Rest.constants n rest = .ok (cs, after) ↔
      ∃ entries : List Entry, entries.length = n ∧ (∀ entry ∈ entries, entry.Fits) ∧
        entries.map Entry.constant = cs ∧
        rest.data = entries.flatMap Entry.bytes ++ after.data ∧
        after.offset = rest.offset + (entries.flatMap Entry.bytes).length := by
  induction n generalizing rest cs with
  | zero =>
      simp only [Rest.constants, Except.ok.injEq, Prod.mk.injEq]
      constructor
      · rintro ⟨rfl, rfl⟩
        exact ⟨[], rfl, by simp, rfl, rfl, rfl⟩
      · rintro ⟨entries, hlength, -, rfl, hdata, hoffset⟩
        rw [List.length_eq_zero_iff.mp hlength] at hdata hoffset ⊢
        cases rest
        cases after
        simp_all
  | succ n ih =>
      simp only [Rest.constants, bind_eq_ok]
      constructor
      · rintro ⟨⟨c, next⟩, hone, ⟨cs', after'⟩, hmore, h⟩
        cases h
        obtain ⟨entry, hfits, rfl, hdata, hoffset⟩ := Rest.constant_eq_ok.mp hone
        obtain ⟨entries, rfl, hall, rfl, hdata', hoffset'⟩ := ih.mp hmore
        refine ⟨entry :: entries, rfl, List.forall_mem_cons.mpr ⟨hfits, hall⟩, rfl, ?_, ?_⟩
        · rw [hdata, hdata', List.flatMap_cons, List.append_assoc]
        · rw [hoffset', hoffset, List.flatMap_cons, List.length_append]
          omega
      · rintro ⟨entries, hlength, hall, rfl, hdata, hoffset⟩
        cases entries with
        | nil => simp at hlength
        | cons entry entries =>
            rw [List.forall_mem_cons] at hall
            rw [List.flatMap_cons, List.append_assoc] at hdata
            rw [List.flatMap_cons, List.length_append] at hoffset
            refine ⟨(entry.constant, ⟨rest.offset + entry.bytes.length,
              entries.flatMap Entry.bytes ++ after.data⟩),
              Rest.constant_eq_ok.mpr ⟨entry, hall.1, rfl, hdata, rfl⟩,
              (entries.map Entry.constant, after),
              ih.mpr ⟨entries, by simpa using hlength, hall.2, rfl, rfl, ?_⟩, rfl⟩
            rw [hoffset, Nat.add_assoc]

end Bytecode

namespace Opcode

theorem isValid_iff (code : Opcode) : code.isValid = true ↔ ∃ op, code.operation? = some op := by
  rw [isValid, Option.isSome_iff_exists]

theorem hasOperand_of_operation {code : Opcode} {op : Operation} (h : code.operation? = some op) :
    code.hasOperand = op.hasOperand := by
  simp [hasOperand, h]

end Opcode

namespace Bytecode

private theorem argument_eq (b₁ b₂ b₃ b₄ : UInt8) :
    bigEndian 4 (Int32.ofNat (ofBigEndian [b₁, b₂, b₃, b₄])).toUInt32.toNat = [b₁, b₂, b₃, b₄] := by
  have hlt := ofBigEndian_lt [b₁, b₂, b₃, b₄]
  simp only [List.length_cons, List.length_nil] at hlt
  rw [Int32.toUInt32_ofNat', UInt32.toNat_ofNat', Nat.mod_eq_of_lt (by omega)]
  exact bigEndian_ofBigEndian rfl

private theorem ofNat_argument (arg : Int32) :
    Int32.ofNat (ofBigEndian (bigEndian 4 arg.toUInt32.toNat)) = arg := by
  have hlt := arg.toUInt32.toNat_lt
  rw [ofBigEndian_bigEndian_of_lt (by omega), ← Int32.toNat_toBitVec, Int32.ofNat_bitVecToNat,
    Int32.ofBitVec_toBitVec]

theorem decodeCode_bytes_append {i : Instruction} (h : i.Plain) (offset : Nat) (rest : Text) :
    decodeCode offset (i.bytes ++ rest) =
      (decodeCode (offset + i.bytes.length) rest).map (i :: ·) := by
  obtain ⟨⟨byte⟩, arg⟩ := i
  obtain ⟨op, hop⟩ := (Opcode.isValid_iff ⟨byte⟩).mp h.1
  have hoperand := Opcode.hasOperand_of_operation hop
  by_cases hload : op.hasOperand = true
  · have hbytes : bigEndian 4 arg.toUInt32.toNat = [UInt8.ofNat (arg.toUInt32.toNat / 256 ^ 3),
        UInt8.ofNat (arg.toUInt32.toNat / 256 ^ 2), UInt8.ofNat (arg.toUInt32.toNat / 256 ^ 1),
        UInt8.ofNat (arg.toUInt32.toNat / 256 ^ 0)] := by
      simp only [bigEndian_succ]
      rfl
    have harg := ofNat_argument arg
    rw [hbytes] at harg
    simp only [Instruction.bytes, hoperand, hload, if_true, hbytes, List.cons_append,
      List.nil_append, decodeCode, hop, harg, List.length_cons, List.length_nil]
  · have harg : arg = 0 := h.2 (by rw [hoperand]; simpa using hload)
    simp only [Instruction.bytes, hoperand, hload, Bool.false_eq_true, if_false,
      List.singleton_append, decodeCode, hop, harg, List.length_singleton]

-- The code of a file is decoded exactly if it is made of instructions that a file can hold.
theorem decodeCode_eq_ok {offset : Nat} {data : Text} {code : List Instruction} :
    decodeCode offset data = .ok code ↔
      (∀ i ∈ code, i.Plain) ∧ data = code.flatMap Instruction.bytes := by
  constructor
  · intro h
    fun_induction decodeCode offset data generalizing code with
    | case1 offset =>
        cases h
        simp
    | case2 offset byte rest hop => cases h
    | case3 offset byte op hop hload b₁ b₂ b₃ b₄ rest arg =>
        rename_i ih
        obtain ⟨code, hcode, rfl⟩ := map_eq_ok.mp h
        obtain ⟨hplain, rfl⟩ := ih hcode
        have hoperand := Opcode.hasOperand_of_operation hop
        refine ⟨List.forall_mem_cons.mpr ⟨⟨?_, ?_⟩, hplain⟩, ?_⟩
        · exact (Opcode.isValid_iff _).mpr ⟨op, hop⟩
        · simp [hoperand, hload]
        · rw [List.flatMap_cons, Instruction.bytes, hoperand, if_pos hload, argument_eq]
          rfl
    | case4 offset byte op hop hload rest hshort => cases h
    | case5 offset byte rest op hop hload ih =>
        obtain ⟨code, hcode, rfl⟩ := map_eq_ok.mp h
        obtain ⟨hplain, rfl⟩ := ih hcode
        have hoperand := Opcode.hasOperand_of_operation hop
        refine ⟨List.forall_mem_cons.mpr ⟨⟨?_, fun _ => rfl⟩, hplain⟩, ?_⟩
        · exact (Opcode.isValid_iff _).mpr ⟨op, hop⟩
        · simp [Instruction.bytes, hoperand, hload]
  · rintro ⟨hplain, rfl⟩
    induction code generalizing offset with
    | nil => rfl
    | cons i code ih =>
        rw [List.forall_mem_cons] at hplain
        rw [List.flatMap_cons, decodeCode_bytes_append hplain.1, ih hplain.2]
        rfl

-- A file is decoded exactly if it is the form of an image, and gives the program of that image.
theorem decode_eq_ok {file : Text} {b : Bytecode} :
    decode file = .ok b ↔ ∃ image : Image, image.bytes = file ∧ image.program = b := by
  simp only [decode, bind_eq_ok]
  constructor
  · rintro ⟨⟨n, rest⟩, hcount, ⟨cs, after⟩, hconstants, code, hcode, h⟩
    cases h
    obtain ⟨hlt, hdata, -⟩ := Rest.count_eq_ok.mp hcount
    obtain ⟨entries, rfl, hfits, rfl, hdata', -⟩ := Rest.constants_eq_ok.mp hconstants
    obtain ⟨hplain, hdata''⟩ := decodeCode_eq_ok.mp hcode
    refine ⟨⟨entries, code, hlt, hfits, hplain⟩, ?_, rfl⟩
    rw [Image.bytes, ← hdata'', List.append_assoc, ← hdata', ← hdata]
  · rintro ⟨image, rfl, rfl⟩
    have hfile : image.bytes = bigEndian 4 image.entries.length ++
        (image.entries.flatMap Entry.bytes ++ image.code.flatMap Instruction.bytes) := by
      rw [Image.bytes, List.append_assoc]
    refine ⟨(image.entries.length, ⟨4, _⟩),
      Rest.count_eq_ok.mpr ⟨image.count, hfile, rfl⟩, ?_⟩
    refine ⟨(image.entries.map Entry.constant, ⟨_, image.code.flatMap Instruction.bytes⟩),
      Rest.constants_eq_ok.mpr ⟨image.entries, rfl, image.fits, rfl, rfl, rfl⟩, ?_⟩
    exact ⟨image.code, decodeCode_eq_ok.mpr ⟨image.plain, rfl⟩, rfl⟩

end Bytecode

theorem Entry.bytes_append_inj {entry other : Entry} (hentry : entry.Fits) (hother : other.Fits)
    {s t : Text} (h : entry.bytes ++ s = other.bytes ++ t) : entry = other ∧ s = t := by
  cases entry with
  | real bits =>
      cases other with
      | real bits' =>
          simp only [Entry.bytes, List.cons_append, List.cons.injEq, true_and] at h
          obtain ⟨hbits, htail⟩ := List.append_inj h (by simp)
          refine ⟨congrArg Entry.real ?_, htail⟩
          rw [← ofNat_bits bits, hbits, ofNat_bits]
      | text us => simp [Entry.bytes] at h
  | text us =>
      cases other with
      | real bits' => simp [Entry.bytes] at h
      | text us' =>
          simp only [Entry.bytes, List.cons_append, List.append_assoc, List.cons.injEq,
            true_and] at h
          simp only [Entry.Fits] at hentry hother
          obtain ⟨hcount, htail⟩ := List.append_inj h (by simp)
          have hlength := bigEndian_inj (by omega) (by omega) hcount
          obtain ⟨hunits, htail⟩ := List.append_inj htail (by simp [hlength])
          refine ⟨congrArg Entry.text ?_, htail⟩
          rw [← units_unitBytes us, hunits, units_unitBytes]

theorem Entry.flatMap_bytes_append_inj {entries others : List Entry}
    (hlength : entries.length = others.length) (hentries : ∀ entry ∈ entries, entry.Fits)
    (hothers : ∀ entry ∈ others, entry.Fits) {s t : Text}
    (h : entries.flatMap Entry.bytes ++ s = others.flatMap Entry.bytes ++ t) :
    entries = others ∧ s = t := by
  induction entries generalizing others with
  | nil =>
      obtain rfl := List.length_eq_zero_iff.mp hlength.symm
      exact ⟨rfl, h⟩
  | cons entry entries ih =>
      cases others with
      | nil => simp at hlength
      | cons other others =>
          rw [List.forall_mem_cons] at hentries hothers
          rw [List.flatMap_cons, List.flatMap_cons, List.append_assoc, List.append_assoc] at h
          obtain ⟨rfl, htail⟩ := Entry.bytes_append_inj hentries.1 hothers.1 h
          obtain ⟨rfl, rfl⟩ := ih (by simpa using hlength) hentries.2 hothers.2 htail
          exact ⟨rfl, rfl⟩

-- A file is the form of at most one image.
theorem Image.bytes_inj {image other : Image} (h : image.bytes = other.bytes) : image = other := by
  have hcount := image.count
  have hcount' := other.count
  rw [Image.bytes, Image.bytes, List.append_assoc, List.append_assoc] at h
  obtain ⟨hhead, htail⟩ := List.append_inj h (by simp)
  have hlength := bigEndian_inj (by omega) (by omega) hhead
  obtain ⟨hentries, hcode⟩ :=
    Entry.flatMap_bytes_append_inj hlength image.fits other.fits htail
  refine Image.ext hentries ?_
  -- the code of a file can be read in one way only
  have hread : decodeCode 0 (image.code.flatMap Instruction.bytes) = .ok image.code :=
    decodeCode_eq_ok.mpr ⟨image.plain, rfl⟩
  have hread' : decodeCode 0 (other.code.flatMap Instruction.bytes) = .ok other.code :=
    decodeCode_eq_ok.mpr ⟨other.plain, rfl⟩
  rw [hcode, hread'] at hread
  exact (Except.ok.inj hread).symm

end Tuga
