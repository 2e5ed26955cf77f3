import Tuga.Proofs.Bytecode.Listing
import Tuga.Proofs.Codegen.Constants

namespace Tuga

open Machine Text

namespace Real64

theorem canonical_ofMagnitude {n : Nat} (h : n ≤ infiniteMagnitude) :
    (ofMagnitude false n).canonical = ofMagnitude false n := by
  have hlt : n < signBit := Nat.lt_of_le_of_lt h (by decide)
  have hbits : (ofMagnitude false n).bits.toNat = n :=
    UInt64.toNat_ofNat_of_lt' (Nat.lt_trans hlt (by decide))
  have hzero : ofMagnitude false n ≠ ⟨0x8000000000000000⟩ := by
    intro heq
    rw [heq] at hbits
    exact hlt.ne hbits.symm
  have hnan : (ofMagnitude false n).isNaN = false := by
    rw [isNaN, magnitude, hbits, Nat.mod_eq_of_lt hlt]
    exact decide_eq_false (Nat.not_lt.mpr h)
  rw [canonical, if_neg hzero, hnan, if_neg Bool.false_ne_true]

-- Rounding a ratio gives no NaN, and no negative zero unless it is asked for.
theorem canonical_ofRatio (num den : Nat) :
    (ofRatio false num den).canonical = ofRatio false num den := by
  rw [ofRatio]
  split
  · exact canonical_ofMagnitude (Nat.zero_le _)
  · exact canonical_ofMagnitude (Nat.min_le_right _ _)

end Real64

theorem Text.isUtf8_unquote {text : Text} (h : text.isUtf8 = true) :
    text.unquote.isUtf8 = true := by
  obtain ⟨codes, hscalar, hcodes, -⟩ := exists_unquote_ofUtf16 text.utf16
  rw [ofUtf16_utf16, (repaired_eq_self_iff text).mpr h] at hcodes
  rw [hcodes, isUtf8_ofCodes hscalar]

section Accepted

variable {source : Text} {b : Bytecode}

theorem exists_literal (h : (compile source).rejection = none)
    (hb : (compile source).bytecode = some b) {c : Constant} (hc : c ∈ b.constants) :
    ∃ t ∈ sourceTokens source, (t.kind = .real ∧ c = .ofReal (Parser.realValue t.literal)) ∨
      (t.kind = .text ∧ c = .ofText t.literal) := by
  rw [constants_of_rejection_eq_none h hb] at hc
  rcases mem_pooledAll hc with hnil | hc
  · cases hnil
  · obtain ⟨t, ht, hconstant⟩ := List.mem_filterMap.mp hc
    refine ⟨t, ht, ?_⟩
    rw [Token.constant?] at hconstant
    split at hconstant
    case h_1 hkind => exact .inl ⟨hkind, (Option.some.inj hconstant).symm⟩
    case h_2 hkind => exact .inr ⟨hkind, (Option.some.inj hconstant).symm⟩
    case h_3 => cases hconstant

-- A listing of a compiled program keeps its constants.
theorem map_canonical_eq (h : (compile source).rejection = none)
    (hb : (compile source).bytecode = some b) :
    b.constants.map Constant.canonical = b.constants := by
  rw [Bytecode.map_eq_self_iff]
  intro c hc
  obtain ⟨t, -, ⟨-, rfl⟩ | ⟨-, rfl⟩⟩ := exists_literal h hb hc
  · rw [Constant.canonical, Constant.ofReal, Parser.realValue, Real64.ofDecimal,
      Real64.canonical_ofRatio]
  · rfl

theorem isUtf8_text (h : (compile source).rejection = none)
    (hb : (compile source).bytecode = some b)
    (hutf8 : ∀ t ∈ sourceTokens source, t.kind = .text → t.literal.isUtf8 = true)
    {c : Constant} (hc : c ∈ b.constants) : c.text.isUtf8 = true := by
  obtain ⟨t, ht, ⟨-, rfl⟩ | ⟨hkind, rfl⟩⟩ := exists_literal h hb hc
  · rfl
  · exact hutf8 t ht hkind

end Accepted

-- A source without ill-formed literals runs alike from its program, from the file of it and from
-- its listing.
theorem run_paths_agree (source : Text) (h : (compile source).rejection = none)
    (hutf8 : ∀ t ∈ sourceTokens source, t.kind = .text → t.literal.isUtf8 = true) :
    ∃ b, (compile source).bytecode = some b ∧
      ∀ properties : List (Text × Text), (properties.map Prod.fst).Nodup →
        (∀ p ∈ properties, p.1.isUtf8 = true ∧ p.2.isUtf8 = true) →
        Listing.Within b properties →
        (∀ c ∈ b.constants, c.text.unquote.utf16.length < 0x80000000) →
        ∃ file loaded listing rebuilt, b.encode = .ok file ∧ Bytecode.decode file = .ok loaded ∧
          Listing.decode (Listing.encode b properties) = some listing ∧
          listing.toBytecode = .ok rebuilt ∧
          (load loaded).run = (load b.fileForm).run ∧
          (load rebuilt.fileForm).run = (load b.fileForm).run := by
  obtain ⟨b, hb, herrors, hgenerate⟩ := generate_of_rejection_eq_none h
  refine ⟨b, hb, fun properties hkeys hproperties hwithin hunits => ?_⟩
  have hcount : b.constants.length < 0x80000000 :=
    Nat.lt_of_le_of_lt hwithin.constants (by decide)
  obtain ⟨hwritable, hplain⟩ :=
    Program.generate_writable (Parser.built_parse source) herrors hgenerate hcount hunits
  have htexts : ∀ c ∈ b.constants, c.text.isUtf8 = true := fun c hc => isUtf8_text h hb hutf8 hc
  have hfile : Bytecode.decode (b.image hwritable).bytes = .ok b.fileForm := by
    rw [Bytecode.decode_eq_ok]
    refine ⟨b.image hwritable, rfl, (b.program_image hwritable).trans ?_⟩
    rw [Bytecode.normalised_fileForm_eq_iff]
    exact ⟨fun c hc _ => isUtf8_unquote (htexts c hc), fun i hi => (hplain i hi).2⟩
  have hall : (b.constants.all (·.text.isUtf8) && properties.all Listing.entryIsUtf8) = true := by
    rw [Bool.and_eq_true, List.all_eq_true, List.all_eq_true]
    exact ⟨htexts, fun p hp => Bool.and_eq_true_iff.mpr (hproperties p hp)⟩
  have hlisting := Listing.decode_encode_eq hplain hkeys hwithin
  rw [if_pos hall] at hlisting
  have hrebuilt := Listing.toBytecode_canonical (Listing.inKeyOrder properties)
    hwritable.constants hplain
  rw [map_canonical_eq h hb] at hlisting hrebuilt
  exact ⟨_, _, _, _, b.encode_eq_ok hwritable, hfile, hlisting, hrebuilt, rfl, rfl⟩

-- A text beyond the one-byte characters is printed, and then a real is divided by zero.
theorem run_paths_agree_division :
    ∃ b file loaded listing rebuilt,
      (compile "escreve \"é\"; escreve 1 / 0.0;").bytecode = some b ∧ b.encode = .ok file ∧
      Bytecode.decode file = .ok loaded ∧
      Listing.decode (Listing.encode b [("v", "1"), ("autor", "é")]) = some listing ∧
      listing.toBytecode = .ok rebuilt ∧ (load loaded).run = (load b.fileForm).run ∧
      (load rebuilt.fileForm).run = (load b.fileForm).run ∧
      (load b.fileForm).run.output = [0xC3, 0xA9, 10] ∧
      (load b.fileForm).run.error =
        some (.fault .divisionByZero 5 Operation.ddiv.code) ∧
      (load b.fileForm).run.machine.steps = 6 := by
  have hbytecode : (compile "escreve \"é\"; escreve 1 / 0.0;").bytecode =
      some ⟨[.ofText [34, 0xC3, 0xA9, 34], .ofReal ⟨0⟩], [⟨Operation.sconst.code, 0⟩, .of .sprint,
        ⟨Operation.iconst.code, 1⟩, .of .itod, ⟨Operation.dconst.code, 1⟩, .of .ddiv, .of .dprint,
        .of .halt]⟩ := by
    decide +kernel
  obtain ⟨b, hb, hpaths⟩ := run_paths_agree "escreve \"é\"; escreve 1 / 0.0;"
    (by decide +kernel) (by decide +kernel)
  obtain rfl := Option.some.inj (hbytecode.symm.trans hb)
  obtain ⟨file, loaded, listing, rebuilt, hencode, hdecode, hlisting, hrebuilt, hloaded, hrun⟩ :=
    hpaths [("v", "1"), ("autor", "é")] (by decide +kernel) (by decide +kernel)
      ⟨by decide, by decide, by decide, by decide +kernel, by decide⟩ (by decide)
  exact ⟨_, file, loaded, listing, rebuilt, hb, hencode, hdecode, hlisting, hrebuilt, hloaded, hrun,
    by decide +kernel, by decide +kernel, by decide +kernel⟩

end Tuga
