import Mathlib.Data.List.Forall2
import Tuga.Cbor.Decode
import Tuga.Proofs.Bytecode.BigEndian
import Tuga.Proofs.Real.Narrow

namespace Tuga.Cbor

open Text

section Heads

theorem toNat_first {major info : Nat} (hmajor : major < 8) (hinfo : info < 32) :
    (UInt8.ofNat (major * 32 + info)).toNat / 32 = major ∧
      (UInt8.ofNat (major * 32 + info)).toNat % 32 = info := by
  rw [UInt8.toNat_ofNat']
  omega

theorem readHead_first {major info : Nat} (hmajor : major < 8) (hinfo : info < 24) (rest : Text) :
    readHead (UInt8.ofNat (major * 32 + info) :: rest) = some (⟨major, info, info⟩, rest) := by
  obtain ⟨hdiv, hmod⟩ := toNat_first hmajor (show info < 32 by omega)
  simp only [readHead, hdiv, hmod, if_pos hinfo]

theorem readHead_wide {major info width n : Nat} (hmajor : major < 8) (hlow : 24 ≤ info)
    (hhigh : info < 28) (hwidth : width = 2 ^ (info - 24)) (hn : n < 256 ^ width) (rest : Text) :
    readHead (UInt8.ofNat (major * 32 + info) :: (bigEndian width n ++ rest)) =
      some (⟨major, info, n⟩, rest) := by
  obtain ⟨hdiv, hmod⟩ := toNat_first hmajor (show info < 32 by omega)
  have htake : (bigEndian width n ++ rest).take width = bigEndian width n := by simp
  have hdrop : (bigEndian width n ++ rest).drop width = rest := by simp
  simp only [readHead, hdiv, hmod, Nat.pow_eq, ← hwidth, htake, hdrop, length_bigEndian,
    ofBigEndian_bigEndian_of_lt hn]
  rw [if_neg (by omega), if_pos hhigh, if_neg (by omega)]

-- The head of an item is read back; its length is never left open.
theorem readHead_head {major n : Nat} (hmajor : major < 8) (hn : n < 2 ^ 64) (rest : Text) :
    ∃ info, info ≠ openLength ∧
      readHead (head major n ++ rest) = some (⟨major, info, n⟩, rest) := by
  simp only [head]
  split
  case isTrue h => exact ⟨n, by rw [openLength]; omega, readHead_first hmajor h rest⟩
  split
  case isTrue h =>
    exact ⟨24, by decide, readHead_wide hmajor (by decide) (by decide) rfl h rest⟩
  split
  case isTrue h =>
    exact ⟨25, by decide, readHead_wide hmajor (by decide) (by decide) rfl h rest⟩
  split
  case isTrue h =>
    exact ⟨26, by decide, readHead_wide hmajor (by decide) (by decide) rfl h rest⟩
  case isFalse =>
    exact ⟨27, by decide, readHead_wide hmajor (by decide) (by decide) rfl hn rest⟩

theorem head_ne_nil (major n : Nat) : head major n ≠ [] := by
  simp only [head]
  repeat' split
  all_goals simp

end Heads

-- The text is read as the item wherever it stands, if there is room for the nesting of the item.
def Reads (nesting : Nat) (written : Text) (item : Cbor) : Prop :=
  ∀ fuel depth rest, written.length < fuel → nesting ≤ depth →
    readItem fuel depth false (written ++ rest) = some (item, rest)

namespace Reads

theorem mono {k l : Nat} {written : Text} {item : Cbor} (h : Reads k written item) (hle : k ≤ l) :
    Reads l written item :=
  fun fuel depth rest hfuel hdepth => h fuel depth rest hfuel (hle.trans hdepth)

theorem decode_eq {k : Nat} {written : Text} {item : Cbor} (h : Reads k written item)
    (hk : k ≤ maxDepth) : decode written = some item := by
  have hread := h (written.length + 1) maxDepth [] (Nat.lt_succ_self _) hk
  rw [List.append_nil] at hread
  rw [decode, hread]

end Reads

section Scalars

theorem reads_nat {n : Nat} (hn : n < 2 ^ 64) : Reads 0 (encodeNat n) (.unsigned n) := by
  intro fuel depth rest hfuel _
  obtain ⟨info, hinfo, hhead⟩ := readHead_head (show 0 < 8 by decide) hn rest
  obtain ⟨fuel, rfl⟩ := Nat.exists_eq_succ_of_ne_zero (Nat.ne_zero_of_lt hfuel)
  simp [readItem, encodeNat, hhead, hinfo]

theorem reads_text {text : Text} (hlength : text.length < 2 ^ 64) :
    Reads 0 (encodeText text) (.text [text]) := by
  intro fuel depth rest hfuel _
  obtain ⟨info, hinfo, hhead⟩ := readHead_head (show 3 < 8 by decide) hlength (text ++ rest)
  obtain ⟨fuel, rfl⟩ := Nat.exists_eq_succ_of_ne_zero (Nat.ne_zero_of_lt hfuel)
  simp [readItem, encodeText, hhead, hinfo, readString, readBytes]

theorem reads_wide_real (info : Nat) {width n : Nat} {x : Real64} (hlow : 24 ≤ info)
    (hhigh : info < 28) (hwidth : width = 2 ^ (info - 24)) (hn : n < 256 ^ width)
    (hreal : ofSimple ⟨7, info, n⟩ = some (.real x)) :
    Reads 0 (UInt8.ofNat (7 * 32 + info) :: bigEndian width n) (.real x) := by
  intro fuel depth rest hfuel _
  have hhead := readHead_wide (show 7 < 8 by decide) hlow hhigh hwidth hn rest
  obtain ⟨fuel, rfl⟩ := Nat.exists_eq_succ_of_ne_zero (Nat.ne_zero_of_lt hfuel)
  rw [List.cons_append, readItem, hhead]
  simp [hreal]

theorem ofNarrow_half_nan : Real64.ofNarrow .half 0x7E00 = Real64.nan := by decide

theorem ofNarrow_half_infinity (s : Bool) :
    Real64.ofNarrow .half (if s then 0xFC00 else 0x7C00) = Real64.infinity s := by
  cases s <;> decide

-- Reals keep their bits, except that there is one NaN.
theorem reads_real (x : Real64) :
    Reads 0 (encodeReal x) (.real (if x.isNaN then Real64.nan else x)) := by
  by_cases hnan : x.isNaN = true
  · rw [if_pos hnan, encodeReal, (Real64.view_eq_nan_iff x).mpr hnan]
    exact reads_wide_real 25 (n := 0x7E00) (by decide) (by decide) rfl (by decide)
      (by simp only [ofSimple, ofNarrow_half_nan])
  rw [if_neg hnan, encodeReal]
  cases hview : x.view with
  | nan => exact absurd ((Real64.view_eq_nan_iff x).mp hview) hnan
  | infinite s =>
      have hwritten : ([0xF9, if s then 0xFC else 0x7C, 0x00] : Text) =
          0xF9 :: bigEndian 2 (if s then 0xFC00 else 0x7C00) := by
        cases s <;> decide
      simp only [hwritten]
      rw [Real64.view_infinite hview]
      exact reads_wide_real 25 (by decide) (by decide) rfl (by cases s <;> decide)
        (by simp only [ofSimple, ofNarrow_half_infinity])
  | finite s m e =>
      cases hhalf : x.toNarrow? .half with
      | some bits =>
          obtain ⟨hlt, hbits⟩ := Real64.ofNarrow_toNarrow? (by decide) hhalf
          exact reads_wide_real 25 (by decide) (by decide) rfl hlt
            (by simp [ofSimple, hbits])
      | none =>
          cases hsingle : x.toNarrow? .single with
          | some bits =>
              obtain ⟨hlt, hbits⟩ := Real64.ofNarrow_toNarrow? (by decide) hsingle
              exact reads_wide_real 26 (by decide) (by decide) rfl hlt
                (by simp [ofSimple, hbits])
          | none =>
              exact reads_wide_real 27 (by decide) (by decide) rfl x.bits.toNat_lt
                (by simp [ofSimple])

end Scalars

section Containers

-- The parts of a container are shorter than the whole, and nest less.
theorem Reads.readElements {k fuel depth : Nat} {texts : List Text} {items : List Cbor} {h : Head}
    (hparts : List.Forall₂ (Reads k) texts items) (hinfo : h.info ≠ openLength)
    (hcount : (if h.major = 5 then 2 * h.number else h.number) = texts.length)
    (hfuel : texts.flatten.length < fuel) (hdepth : k ≤ depth) (rest : Text) :
    Cbor.readElements (readItem fuel depth false) h (texts.flatten ++ rest) =
      some (items, rest) := by
  rw [Cbor.readElements, if_neg hinfo, hcount]
  clear hcount
  induction hparts with
  | nil => rfl
  | cons hpart _ ih =>
      rw [List.flatten_cons, List.length_append] at hfuel
      simp [readMany, hpart fuel depth _ (by omega) hdepth, ih (by omega)]

theorem reads_array {k : Nat} {texts : List Text} {items : List Cbor}
    (h : List.Forall₂ (Reads k) texts items) (hcount : texts.length ≤ maxElements) :
    Reads (k + 1) (encodeArray texts) (.array items) := by
  intro fuel depth rest hfuel hdepth
  have hn : texts.length < 2 ^ 64 := Nat.lt_of_le_of_lt hcount (by decide)
  obtain ⟨info, hinfo, hhead⟩ := readHead_head (show 4 < 8 by decide) hn
    (texts.flatten ++ rest)
  obtain ⟨fuel, rfl⟩ := Nat.exists_eq_succ_of_ne_zero (Nat.ne_zero_of_lt hfuel)
  have hpos := List.length_pos_iff.mpr (head_ne_nil 4 texts.length)
  rw [encodeArray, List.length_append] at hfuel
  have hitems : readElements (readItem fuel (depth - 1) false) ⟨4, info, texts.length⟩
      (texts.flatten ++ rest) = some (items, rest) :=
    Reads.readElements h hinfo rfl (by omega) (by omega) rest
  rw [readItem, encodeArray, List.append_assoc, hhead]
  simp [hitems, ← h.length_eq, hcount, show depth ≠ 0 by omega]

def alternating {α : Type} (entries : List (α × α)) : List α :=
  entries.flatMap fun (key, value) => [key, value]

theorem flatten_alternating (entries : List (Text × Text)) :
    (alternating entries).flatten = entries.flatMap fun (key, value) => key ++ value := by
  induction entries with
  | nil => rfl
  | cons entry entries ih => simpa [alternating] using ih

theorem length_alternating {α : Type} (entries : List (α × α)) :
    (alternating entries).length = 2 * entries.length := by
  induction entries with
  | nil => rfl
  | cons entry entries ih =>
      simp only [alternating, List.flatMap_cons, List.length_append, List.length_cons,
        List.length_nil] at ih ⊢
      omega

theorem pairUp_alternating (entries : List (Cbor × Cbor)) :
    pairUp (alternating entries) = some entries := by
  induction entries with
  | nil => rfl
  | cons entry entries ih =>
      simp only [alternating, List.flatMap_cons, List.cons_append, List.nil_append, pairUp] at ih ⊢
      rw [ih]
      rfl

def ReadsEntry (nesting : Nat) (written : Text × Text) (entry : Cbor × Cbor) : Prop :=
  Reads nesting written.1 entry.1 ∧ Reads nesting written.2 entry.2

theorem forall₂_alternating {k : Nat} {written : List (Text × Text)} {entries : List (Cbor × Cbor)}
    (h : List.Forall₂ (ReadsEntry k) written entries) :
    List.Forall₂ (Reads k) (alternating written) (alternating entries) := by
  induction h with
  | nil => exact .nil
  | cons hentry _ ih => exact .cons hentry.1 (.cons hentry.2 ih)

theorem reads_map {k : Nat} {written : List (Text × Text)} {entries : List (Cbor × Cbor)}
    (h : List.Forall₂ (ReadsEntry k) written entries) (hcount : written.length ≤ maxElements) :
    Reads (k + 1) (encodeMap written) (.map entries) := by
  intro fuel depth rest hfuel hdepth
  have hn : written.length < 2 ^ 64 := Nat.lt_of_le_of_lt hcount (by decide)
  obtain ⟨info, hinfo, hhead⟩ :=
    readHead_head (show 5 < 8 by decide) hn ((alternating written).flatten ++ rest)
  obtain ⟨fuel, rfl⟩ := Nat.exists_eq_succ_of_ne_zero (Nat.ne_zero_of_lt hfuel)
  have hpos := List.length_pos_iff.mpr (head_ne_nil 5 written.length)
  rw [encodeMap, ← flatten_alternating, List.length_append] at hfuel
  have hitems : readElements (readItem fuel (depth - 1) false) ⟨5, info, written.length⟩
      ((alternating written).flatten ++ rest) = some (alternating entries, rest) :=
    Reads.readElements (forall₂_alternating h) hinfo (by simp [length_alternating]) (by omega)
      (by omega) rest
  rw [readItem, encodeMap, ← flatten_alternating, List.append_assoc, hhead]
  simp [hitems, pairUp_alternating, ← h.length_eq, hcount, show depth ≠ 0 by omega]

end Containers

end Tuga.Cbor
