import Tuga.Proofs.Text.Utf8
import Tuga.Text.Utf16

namespace Tuga.Text

open Character

-- Code units in which every surrogate belongs to a pair, a high one right before a low one.
inductive Paired : List UInt16 → Prop
  | nil : Paired []
  | plain {u : UInt16} {rest : List UInt16} (hhigh : isHighSurrogate u = false)
      (hlow : isLowSurrogate u = false) (hrest : Paired rest) : Paired (u :: rest)
  | pair {u v : UInt16} {rest : List UInt16} (hhigh : isHighSurrogate u = true)
      (hlow : isLowSurrogate v = true) (hrest : Paired rest) : Paired (u :: v :: rest)

private theorem isHighSurrogate_iff (u : UInt16) :
    isHighSurrogate u = true ↔ 0xD800 ≤ u.toNat ∧ u.toNat ≤ 0xDBFF := by
  simp [isHighSurrogate, UInt16.le_iff_toNat_le]

private theorem isLowSurrogate_iff (u : UInt16) :
    isLowSurrogate u = true ↔ 0xDC00 ≤ u.toNat ∧ u.toNat ≤ 0xDFFF := by
  simp [isLowSurrogate, UInt16.le_iff_toNat_le]

private theorem not_isHighSurrogate_iff (u : UInt16) :
    isHighSurrogate u = false ↔ u.toNat < 0xD800 ∨ 0xDBFF < u.toNat := by
  rw [← Bool.not_eq_true, isHighSurrogate_iff]
  omega

private theorem not_isLowSurrogate_iff (u : UInt16) :
    isLowSurrogate u = false ↔ u.toNat < 0xDC00 ∨ 0xDFFF < u.toNat := by
  rw [← Bool.not_eq_true, isLowSurrogate_iff]
  omega

private theorem toNat_unit {n : Nat} (h : n < 65536) : (UInt16.ofNat n).toNat = n := by
  simpa using h

private theorem unit_eq {u : UInt16} {n : Nat} (h : n = u.toNat) : UInt16.ofNat n = u := by
  rw [h, UInt16.ofNat_toNat]

theorem codesOfUtf16_plain {u : UInt16} (hhigh : isHighSurrogate u = false)
    (hlow : isLowSurrogate u = false) (rest : List UInt16) :
    codesOfUtf16 (u :: rest) = u.toNat :: codesOfUtf16 rest := by
  cases rest <;> simp [codesOfUtf16, hhigh, hlow]

theorem codesOfUtf16_pair {u v : UInt16} (hhigh : isHighSurrogate u = true)
    (hlow : isLowSurrogate v = true) (rest : List UInt16) :
    codesOfUtf16 (u :: v :: rest) =
      (0x10000 + (u.toNat - 0xD800) * 1024 + (v.toNat - 0xDC00)) :: codesOfUtf16 rest := by
  simp [codesOfUtf16, hhigh, hlow]

theorem unitsOf_cases {code : Nat} (h : IsScalar code) :
    (∃ u : UInt16, unitsOf code = [u] ∧ u.toNat = code ∧
      isHighSurrogate u = false ∧ isLowSurrogate u = false) ∨
    ∃ u v : UInt16, unitsOf code = [u, v] ∧ isHighSurrogate u = true ∧ isLowSurrogate v = true ∧
      0x10000 + (u.toNat - 0xD800) * 1024 + (v.toNat - 0xDC00) = code := by
  unfold IsScalar at h
  unfold unitsOf
  split
  · rename_i hbmp
    have hu := toNat_unit hbmp
    refine Or.inl ⟨_, rfl, hu, ?_, ?_⟩
    · rw [not_isHighSurrogate_iff, hu]; omega
    · rw [not_isLowSurrogate_iff, hu]; omega
  · have hu := toNat_unit (n := 0xD800 + (code - 0x10000) / 1024) (by omega)
    have hv := toNat_unit (n := 0xDC00 + (code - 0x10000) % 1024) (by omega)
    refine Or.inr ⟨_, _, rfl, ?_, ?_, ?_⟩
    · rw [isHighSurrogate_iff, hu]; omega
    · rw [isLowSurrogate_iff, hv]; omega
    · rw [hu, hv]; omega

theorem codesOfUtf16_unitsOf_append {code : Nat} (h : IsScalar code) (rest : List UInt16) :
    codesOfUtf16 (unitsOf code ++ rest) = code :: codesOfUtf16 rest := by
  rcases unitsOf_cases h with ⟨u, hunits, hcode, hhigh, hlow⟩ | ⟨u, v, hunits, hhigh, hlow, hcode⟩
  · rw [hunits, List.singleton_append, codesOfUtf16_plain hhigh hlow, hcode]
  · rw [hunits, List.cons_append, List.singleton_append, codesOfUtf16_pair hhigh hlow, hcode]

theorem codesOfUtf16_flatMap_unitsOf {codes : List Nat} (h : ∀ code ∈ codes, IsScalar code) :
    codesOfUtf16 (codes.flatMap unitsOf) = codes := by
  induction codes with
  | nil => rfl
  | cons code codes ih =>
      rw [List.forall_mem_cons] at h
      rw [List.flatMap_cons, codesOfUtf16_unitsOf_append h.1, ih h.2]

theorem paired_flatMap_unitsOf {codes : List Nat} (h : ∀ code ∈ codes, IsScalar code) :
    Paired (codes.flatMap unitsOf) := by
  induction codes with
  | nil => exact Paired.nil
  | cons code codes ih =>
      rw [List.forall_mem_cons] at h
      rw [List.flatMap_cons]
      rcases unitsOf_cases h.1 with ⟨u, hunits, -, hhigh, hlow⟩ | ⟨u, v, hunits, hhigh, hlow, -⟩
      · rw [hunits]
        exact Paired.plain hhigh hlow (ih h.2)
      · rw [hunits]
        exact Paired.pair hhigh hlow (ih h.2)

private theorem isScalar_lone (u : UInt16) :
    IsScalar (if isHighSurrogate u || isLowSurrogate u then replacement else u.toNat) := by
  have hlt := u.toNat_lt
  split
  · exact isScalar_replacement
  · rename_i h
    simp only [Bool.or_eq_true, not_or, Bool.not_eq_true, not_isHighSurrogate_iff,
      not_isLowSurrogate_iff] at h
    unfold IsScalar
    omega

theorem isScalar_of_mem_codesOfUtf16 (units : List UInt16) :
    ∀ code ∈ codesOfUtf16 units, IsScalar code := by
  fun_induction codesOfUtf16 units with
  | case1 => simp
  | case2 u =>
      intro code hc
      rw [List.mem_singleton.mp hc]
      exact isScalar_lone u
  | case3 u v rest h ih =>
      simp only [Bool.and_eq_true, isHighSurrogate_iff, isLowSurrogate_iff] at h
      refine List.forall_mem_cons.mpr ⟨?_, ih⟩
      unfold IsScalar
      omega
  | case4 u v rest h ih => exact List.forall_mem_cons.mpr ⟨isScalar_lone u, ih⟩

-- Writing back what was read keeps the number of units: a lone surrogate becomes one unit.
theorem length_flatMap_unitsOf (units : List UInt16) :
    ((codesOfUtf16 units).flatMap unitsOf).length = units.length := by
  fun_induction codesOfUtf16 units with
  | case1 => rfl
  | case2 u =>
      have hlt := u.toNat_lt
      split <;> simp [unitsOf, replacement, hlt]
  | case3 u v rest h ih =>
      simp only [List.flatMap_cons, List.length_append, ih, List.length_cons, unitsOf]
      rw [if_neg (by omega)]
      simp only [List.length_cons, List.length_nil]
      omega
  | case4 u v rest h ih =>
      have hlt := u.toNat_lt
      rw [List.flatMap_cons, List.length_append, ih]
      split <;> simp [unitsOf, replacement, hlt] <;> omega

-- Units come back from being read and written exactly if they are paired.
theorem flatMap_unitsOf_codesOfUtf16_iff (units : List UInt16) :
    (codesOfUtf16 units).flatMap unitsOf = units ↔ Paired units := by
  constructor
  · intro h
    rw [← h]
    exact paired_flatMap_unitsOf (isScalar_of_mem_codesOfUtf16 units)
  · intro h
    induction h with
    | nil => rfl
    | @plain u rest hhigh hlow _ ih =>
        have hlt := u.toNat_lt
        rw [codesOfUtf16_plain hhigh hlow, List.flatMap_cons, ih, unitsOf, if_pos hlt,
          UInt16.ofNat_toNat]
        rfl
    | @pair u v rest hhigh hlow _ ih =>
        rw [codesOfUtf16_pair hhigh hlow, List.flatMap_cons, ih, unitsOf, if_neg (by omega)]
        rw [isHighSurrogate_iff] at hhigh
        rw [isLowSurrogate_iff] at hlow
        rw [unit_eq (u := u) (by omega), unit_eq (u := v) (by omega)]
        rfl

-- A text written as units and read back is repaired.
theorem ofUtf16_utf16 (text : Text) : ofUtf16 text.utf16 = text.repaired := by
  rw [ofUtf16, utf16, codesOfUtf16_flatMap_unitsOf fun _ => isScalar_of_mem_codes, ofCodes_codes]

theorem utf16_ofCodes {codes : List Nat} (h : ∀ code ∈ codes, IsScalar code) :
    (ofCodes codes).utf16 = codes.flatMap unitsOf := by
  rw [utf16, codes_ofCodes h]

end Tuga.Text
