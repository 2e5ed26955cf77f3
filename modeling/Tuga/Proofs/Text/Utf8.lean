import Mathlib.Data.List.Basic
import Tuga.Text.Utf8

namespace Tuga

namespace Character

-- The code points that UTF-8 can carry: all up to U+10FFFF but the surrogates.
def IsScalar (code : Nat) : Prop :=
  code < 0xD800 ∨ 0xDFFF < code ∧ code ≤ 0x10FFFF

theorem isScalar_replacement : IsScalar replacement := by
  simp [IsScalar, replacement]

private theorem ofNat_eq {b : UInt8} {n : Nat} (h : n = b.toNat) : UInt8.ofNat n = b := by
  rw [h, UInt8.ofNat_toNat]

private theorem toNat_ofNat {n : Nat} (h : n < 256) : (UInt8.ofNat n).toNat = n := by
  simpa using h

private theorem isContinuation_iff (b : UInt8) :
    isContinuation b = true ↔ 128 ≤ b.toNat ∧ b.toNat ≤ 191 := by
  simp [isContinuation, UInt8.le_iff_toNat_le]

private theorem secondLow_toNat (a : UInt8) :
    (secondLow a).toNat =
      if a.toNat = 0xE0 then 0xA0 else if a.toNat = 0xF0 then 0x90 else 0x80 := by
  simp only [secondLow, ← UInt8.toNat_inj]
  repeat' split
  all_goals simp_all

private theorem secondHigh_toNat (a : UInt8) :
    (secondHigh a).toNat =
      if a.toNat = 0xED then 0x9F else if a.toNat = 0xF4 then 0x8F else 0xBF := by
  simp only [secondHigh, ← UInt8.toNat_inj]
  repeat' split
  all_goals simp_all

private theorem encode_two {a b : UInt8} (ha : 0xC2 ≤ a.toNat) (ha' : a.toNat ≤ 0xDF)
    (hb : isContinuation b) :
    IsScalar (a.toNat % 32 * 64 + bits b) ∧ encode (a.toNat % 32 * 64 + bits b) = [a, b] := by
  rw [isContinuation_iff] at hb
  refine ⟨Or.inl (by unfold bits; omega), ?_⟩
  unfold encode bits
  rw [if_neg (by omega), if_pos (by omega)]
  rw [ofNat_eq (b := a) (by omega), ofNat_eq (b := b) (by omega)]

private theorem encode_three {a b c : UInt8} (ha : 0xE0 ≤ a.toNat) (ha' : a.toNat ≤ 0xEF)
    (hb : (secondLow a).toNat ≤ b.toNat) (hb' : b.toNat ≤ (secondHigh a).toNat)
    (hc : isContinuation c) :
    IsScalar ((a.toNat % 16 * 64 + bits b) * 64 + bits c) ∧
      encode ((a.toNat % 16 * 64 + bits b) * 64 + bits c) = [a, b, c] := by
  rw [isContinuation_iff] at hc
  rw [secondLow_toNat] at hb
  rw [secondHigh_toNat] at hb'
  -- the first byte E0 asks for more than two bytes, ED for no surrogate
  have hlow : 0x800 ≤ (a.toNat % 16 * 64 + bits b) * 64 + bits c := by unfold bits; grind
  have hgap : IsScalar ((a.toNat % 16 * 64 + bits b) * 64 + bits c) := by
    unfold IsScalar bits; grind
  have hb128 : 128 ≤ b.toNat ∧ b.toNat ≤ 191 := by grind
  refine ⟨hgap, ?_⟩
  unfold IsScalar at hgap
  unfold encode
  rw [if_neg (by omega), if_neg (by omega), if_neg (by simp; omega),
    if_pos (by unfold bits; omega)]
  unfold bits
  rw [ofNat_eq (b := a) (by omega), ofNat_eq (b := b) (by omega), ofNat_eq (b := c) (by omega)]

private theorem encode_four {a b c d : UInt8} (ha : 0xF0 ≤ a.toNat) (ha' : a.toNat ≤ 0xF4)
    (hb : (secondLow a).toNat ≤ b.toNat) (hb' : b.toNat ≤ (secondHigh a).toNat)
    (hc : isContinuation c) (hd : isContinuation d) :
    IsScalar (((a.toNat % 8 * 64 + bits b) * 64 + bits c) * 64 + bits d) ∧
      encode (((a.toNat % 8 * 64 + bits b) * 64 + bits c) * 64 + bits d) = [a, b, c, d] := by
  rw [isContinuation_iff] at hc hd
  rw [secondLow_toNat] at hb
  rw [secondHigh_toNat] at hb'
  -- the first byte F0 asks for more than three bytes, F4 for nothing above U+10FFFF
  have hlow : 0x10000 ≤ ((a.toNat % 8 * 64 + bits b) * 64 + bits c) * 64 + bits d := by
    unfold bits; grind
  have hhigh : ((a.toNat % 8 * 64 + bits b) * 64 + bits c) * 64 + bits d ≤ 0x10FFFF := by
    unfold bits; grind
  have hb128 : 128 ≤ b.toNat ∧ b.toNat ≤ 191 := by grind
  refine ⟨Or.inr ⟨by omega, hhigh⟩, ?_⟩
  unfold encode
  rw [if_neg (by omega), if_neg (by omega), if_neg (by simp; omega), if_neg (by omega)]
  unfold bits
  rw [ofNat_eq (b := a) (by omega), ofNat_eq (b := b) (by omega), ofNat_eq (b := c) (by omega),
    ofNat_eq (b := d) (by omega)]

-- What a text starts with is an ill-formed byte, or exactly the encoding of a code point.
theorem leading_cases (a : UInt8) (rest : Text) :
    (leading a rest = illFormed a ∧ 0x80 ≤ a.toNat) ∨
      (leading a rest).isWellFormed = true ∧ IsScalar (leading a rest).code ∧
        encode (leading a rest).code = (leading a rest).bytes := by
  have hlt := a.toNat_lt
  by_cases hone : a < 0x80
  · right
    have ha : a.toNat < 128 := UInt8.lt_iff_toNat_lt.mp hone
    simp only [leading, if_pos hone]
    exact ⟨by simpa [isWellFormed] using hone, Or.inl (by omega), by simp [encode, ha]⟩
  have ha : 128 ≤ a.toNat := by simpa [UInt8.lt_iff_toNat_lt] using hone
  simp only [leading, if_neg hone, Bool.and_eq_true, decide_eq_true_eq, UInt8.le_iff_toNat_le,
    UInt8.reduceToNat]
  split
  · rename_i h
    split
    · split
      · rename_i hb
        exact Or.inr ⟨rfl, encode_two h.1 h.2 hb⟩
      · exact Or.inl ⟨rfl, ha⟩
    · exact Or.inl ⟨rfl, ha⟩
  split
  · rename_i h
    split
    · split
      · rename_i hb
        exact Or.inr ⟨rfl, encode_three h.1 h.2 hb.1.1 hb.1.2 hb.2⟩
      · exact Or.inl ⟨rfl, ha⟩
    · exact Or.inl ⟨rfl, ha⟩
  split
  · rename_i h
    split
    · split
      · rename_i hb
        exact Or.inr ⟨rfl, encode_four h.1 h.2 hb.1.1.1 hb.1.1.2 hb.1.2 hb.2⟩
      · exact Or.inl ⟨rfl, ha⟩
    · exact Or.inl ⟨rfl, ha⟩
  · exact Or.inl ⟨rfl, ha⟩

private theorem leading_two {a b : UInt8} (ha : 0xC2 ≤ a.toNat) (ha' : a.toNat ≤ 0xDF)
    (hb : isContinuation b) (rest : Text) :
    leading a (b :: rest) = ⟨a.toNat % 32 * 64 + bits b, [a, b]⟩ := by
  have h₁ : ¬a < 0x80 := by simp [UInt8.lt_iff_toNat_lt]; omega
  simp [leading, h₁, UInt8.le_iff_toNat_le, ha, ha', hb]

private theorem leading_three {a b c : UInt8} (ha : 0xE0 ≤ a.toNat) (ha' : a.toNat ≤ 0xEF)
    (hb : (secondLow a).toNat ≤ b.toNat) (hb' : b.toNat ≤ (secondHigh a).toNat)
    (hc : isContinuation c) (rest : Text) :
    leading a (b :: c :: rest) = ⟨(a.toNat % 16 * 64 + bits b) * 64 + bits c, [a, b, c]⟩ := by
  have h₁ : ¬a < 0x80 := by simp [UInt8.lt_iff_toNat_lt]; omega
  have h₂ : ¬a.toNat ≤ 0xDF := by omega
  simp [leading, h₁, h₂, UInt8.le_iff_toNat_le, ha, ha', hb, hb', hc]

private theorem leading_four {a b c d : UInt8} (ha : 0xF0 ≤ a.toNat) (ha' : a.toNat ≤ 0xF4)
    (hb : (secondLow a).toNat ≤ b.toNat) (hb' : b.toNat ≤ (secondHigh a).toNat)
    (hc : isContinuation c) (hd : isContinuation d) (rest : Text) :
    leading a (b :: c :: d :: rest) =
      ⟨((a.toNat % 8 * 64 + bits b) * 64 + bits c) * 64 + bits d, [a, b, c, d]⟩ := by
  have h₁ : ¬a < 0x80 := by simp [UInt8.lt_iff_toNat_lt]; omega
  have h₂ : ¬a.toNat ≤ 0xDF := by omega
  have h₃ : ¬a.toNat ≤ 0xEF := by omega
  simp [leading, h₁, h₂, h₃, UInt8.le_iff_toNat_le, ha, ha', hb, hb', hc, hd]

-- Reading the encoding of a code point gives the code point, whatever follows.
theorem leading_encode {code : Nat} (h : IsScalar code) (rest : Text) :
    ∃ a more, encode code = a :: more ∧ leading a (more ++ rest) = ⟨code, a :: more⟩ := by
  unfold IsScalar at h
  unfold encode
  split
  · rename_i h₁
    refine ⟨_, _, rfl, ?_⟩
    have ha := toNat_ofNat (n := code) (by omega)
    simp [leading, UInt8.lt_iff_toNat_lt, ha, h₁]
  split
  · rename_i h₁ h₂
    refine ⟨_, _, rfl, ?_⟩
    have ha := toNat_ofNat (n := 0xC0 + code / 64) (by omega)
    have hb := toNat_ofNat (n := 0x80 + code % 64) (by omega)
    rw [List.cons_append, leading_two (by omega) (by omega) ((isContinuation_iff _).mpr (by omega))]
    congr 1
    unfold bits
    omega
  rw [if_neg (by simp; omega)]
  split
  · rename_i h₁ h₂ h₃
    refine ⟨_, _, rfl, ?_⟩
    have ha := toNat_ofNat (n := 0xE0 + code / 4096) (by omega)
    have hb := toNat_ofNat (n := 0x80 + code / 64 % 64) (by omega)
    have hc := toNat_ofNat (n := 0x80 + code % 64) (by omega)
    rw [List.cons_append, List.cons_append, leading_three (by omega) (by omega)
      (by rw [secondLow_toNat]; grind) (by rw [secondHigh_toNat]; grind)
      ((isContinuation_iff _).mpr (by omega))]
    congr 1
    unfold bits
    omega
  · rename_i h₁ h₂ h₃
    refine ⟨_, _, rfl, ?_⟩
    have ha := toNat_ofNat (n := 0xF0 + code / 262144) (by omega)
    have hb := toNat_ofNat (n := 0x80 + code / 4096 % 64) (by omega)
    have hc := toNat_ofNat (n := 0x80 + code / 64 % 64) (by omega)
    have hd := toNat_ofNat (n := 0x80 + code % 64) (by omega)
    rw [List.cons_append, List.cons_append, List.cons_append,
      leading_four (by omega) (by omega) (by rw [secondLow_toNat]; grind)
        (by rw [secondHigh_toNat]; grind) ((isContinuation_iff _).mpr (by omega))
        ((isContinuation_iff _).mpr (by omega))]
    congr 1
    unfold bits
    omega

theorem isWellFormed_encode (code : Nat) : isWellFormed ⟨code, encode code⟩ = true := by
  unfold encode
  split
  · rename_i h
    have ha := toNat_ofNat (n := code) (by omega)
    simp [isWellFormed, UInt8.lt_iff_toNat_lt, ha, h]
  repeat' split
  all_goals rfl

end Character

namespace Text

open Character

theorem charactersAfter_eq (skip : Nat) (text : Text) :
    charactersAfter skip text = characters (text.drop skip) := by
  induction text generalizing skip with
  | nil => cases skip <;> simp [characters, charactersAfter]
  | cons a rest ih =>
      cases skip with
      | zero => rfl
      | succ skip => simpa only [charactersAfter, List.drop_succ_cons] using ih skip

theorem characters_cons (a : UInt8) (rest : Text) :
    characters (a :: rest) =
      leading a rest :: characters (rest.drop ((leading a rest).bytes.length - 1)) := by
  rw [← charactersAfter_eq]
  rfl

theorem characters_encode_append {code : Nat} (h : IsScalar code) (rest : Text) :
    characters (encode code ++ rest) = ⟨code, encode code⟩ :: characters rest := by
  obtain ⟨a, more, hencode, hleading⟩ := leading_encode h rest
  rw [hencode, List.cons_append, characters_cons, hleading]
  simp

theorem characters_ofCodes {codes : List Nat} (h : ∀ code ∈ codes, IsScalar code) :
    characters (ofCodes codes) = codes.map fun code => ⟨code, encode code⟩ := by
  induction codes with
  | nil => rfl
  | cons code codes ih =>
      rw [List.forall_mem_cons] at h
      rw [ofCodes, List.flatMap_cons, characters_encode_append h.1]
      exact congrArg _ (ih h.2)

-- Code points survive being written as text.
theorem codes_ofCodes {codes : List Nat} (h : ∀ code ∈ codes, IsScalar code) :
    (ofCodes codes).codes = codes := by
  simp [Text.codes, characters_ofCodes h, Function.comp_def]

theorem isUtf8_ofCodes {codes : List Nat} (h : ∀ code ∈ codes, IsScalar code) :
    (ofCodes codes).isUtf8 = true := by
  simp [isUtf8, characters_ofCodes h, isWellFormed_encode]

-- A character of a text is an ill-formed byte or the encoding of its code point.
theorem mem_characters {text : Text} {c : Character} (hc : c ∈ text.characters) :
    (∃ a : UInt8, c = illFormed a ∧ 0x80 ≤ a.toNat) ∨
      c.isWellFormed = true ∧ IsScalar c.code ∧ encode c.code = c.bytes := by
  induction hn : text.length using Nat.strongRecOn generalizing text with
  | _ n ih =>
      cases text with
      | nil => simp [characters, charactersAfter] at hc
      | cons a rest =>
          rw [characters_cons] at hc
          rcases List.mem_cons.mp hc with rfl | hc
          · rcases leading_cases a rest with h | h
            · exact Or.inl ⟨a, h⟩
            · exact Or.inr h
          · refine ih _ ?_ hc rfl
            simp only [List.length_drop, List.length_cons] at hn ⊢
            omega

theorem isScalar_of_mem_codes {text : Text} {code : Nat} (hc : code ∈ text.codes) :
    IsScalar code := by
  obtain ⟨c, hmem, rfl⟩ := List.mem_map.mp hc
  rcases mem_characters hmem with ⟨a, rfl, -⟩ | h
  · exact isScalar_replacement
  · exact h.2.1

-- The text with the bytes of U+FFFD in place of each ill-formed byte.
def repaired (text : Text) : Text :=
  text.characters.flatMap fun c => if c.isWellFormed then c.bytes else encode replacement

-- Reading a text and writing its code points repairs it.
theorem ofCodes_codes (text : Text) : ofCodes text.codes = text.repaired := by
  rw [ofCodes, Text.codes, repaired, List.flatMap_map]
  apply List.flatMap_congr
  intro c hc
  rcases mem_characters hc with ⟨a, rfl, ha⟩ | h
  · have hill : (illFormed a).isWellFormed = false := by
      simpa [illFormed, isWellFormed, UInt8.le_iff_toNat_le] using ha
    rw [if_neg (by simp [hill])]
    rfl
  · simp [h]

theorem isUtf8_repaired (text : Text) : text.repaired.isUtf8 = true := by
  rw [← ofCodes_codes]
  exact isUtf8_ofCodes fun _ => isScalar_of_mem_codes

theorem repaired_eq_self_iff (text : Text) : text.repaired = text ↔ text.isUtf8 = true := by
  constructor
  · intro h
    rw [← h]
    exact isUtf8_repaired text
  · intro h
    calc text.repaired = ofCharacters text.characters := by
          apply List.flatMap_congr
          intro c hc
          simp [List.all_eq_true.mp h c hc]
      _ = text := ofCharacters_characters text

end Text

end Tuga
