import Tuga.Proofs.Real.Representable
import Tuga.Real.Narrow

namespace Tuga.Real64

variable {f : Narrow} {x : Real64}

namespace Narrow

-- A positive number as a multiple of the last place that the format has for it.
structure Count (f : Narrow) (value : ℚ) (place : Int) (count : Nat) : Prop where
  value_eq : (count : ℚ) * 2 ^ place = value
  least : f.leastExponent ≤ place
  lt : count < 2 * 2 ^ f.fractionBits
  normal : place ≠ f.leastExponent → 2 ^ f.fractionBits ≤ count
  place_lt : place < f.bias - f.fractionBits + 1 ∨ place = f.leastExponent

theorem topField_eq (hf : 2 ≤ f.exponentBits) : (f.topField : Int) = 2 * f.bias + 1 := by
  obtain ⟨n, hn⟩ : ∃ n, f.exponentBits = n + 1 := ⟨f.exponentBits - 1, by omega⟩
  have hpos : 0 < 2 ^ n := Nat.pow_pos (by decide)
  simp only [topField, bias, hn, Nat.pow_eq, Nat.add_sub_cancel, Nat.pow_succ]
  omega

theorem one_le_bias (hf : 2 ≤ f.exponentBits) : 1 ≤ f.bias := by
  have hpow : 2 ^ 1 ≤ 2 ^ (f.exponentBits - 1) := Nat.pow_le_pow_right (by decide) (by omega)
  simp only [bias, Nat.pow_eq]
  omega

theorem magnitudeLimit_eq : f.magnitudeLimit = (f.topField + 1) * 2 ^ f.fractionBits := by
  have hpos : 0 < 2 ^ f.exponentBits := Nat.pow_pos (by decide)
  simp only [magnitudeLimit, topField, Nat.pow_eq, Nat.pow_add]
  congr 1
  omega

-- The bits below the sign that stand for a count.
def magnitudeOf (f : Narrow) (place : Int) (count : Nat) : Nat :=
  (place - f.leastExponent).toNat * 2 ^ f.fractionBits + count

namespace Count

variable {value : ℚ} {place : Int} {count : Nat}

-- A count without its leading bit stands in the field 0, any other one field above its place.
theorem field_eq (h : Count f value place count) :
    (count < 2 ^ f.fractionBits ∧ place = f.leastExponent ∧
      magnitudeOf f place count / 2 ^ f.fractionBits = 0 ∧
      magnitudeOf f place count % 2 ^ f.fractionBits = count) ∨
    (2 ^ f.fractionBits ≤ count ∧
      magnitudeOf f place count / 2 ^ f.fractionBits = (place - f.leastExponent).toNat + 1 ∧
      magnitudeOf f place count % 2 ^ f.fractionBits = count - 2 ^ f.fractionBits) := by
  have hpos : 0 < 2 ^ f.fractionBits := Nat.pow_pos (by decide)
  have hlt := h.lt
  by_cases hcount : count < 2 ^ f.fractionBits
  · have hplace : place = f.leastExponent := by
      by_contra hne
      have := h.normal hne
      omega
    refine .inl ⟨hcount, hplace, ?_, ?_⟩
    · simp [magnitudeOf, hplace, Nat.div_eq_of_lt hcount]
    · simp [magnitudeOf, hplace, Nat.mod_eq_of_lt hcount]
  · have hsplit : magnitudeOf f place count =
        (count - 2 ^ f.fractionBits) +
          2 ^ f.fractionBits * ((place - f.leastExponent).toNat + 1) := by
      rw [magnitudeOf, Nat.mul_comm, Nat.mul_add]
      omega
    have hfraction : count - 2 ^ f.fractionBits < 2 ^ f.fractionBits := by omega
    refine .inr ⟨by omega, ?_, ?_⟩
    · rw [hsplit, Nat.add_mul_div_left _ _ hpos, Nat.div_eq_of_lt hfraction, Nat.zero_add]
    · rw [hsplit, Nat.add_mul_mod_self_left, Nat.mod_eq_of_lt hfraction]

theorem field_lt (h : Count f value place count) (hf : 2 ≤ f.exponentBits) :
    magnitudeOf f place count / 2 ^ f.fractionBits < f.topField := by
  have htop := topField_eq hf
  have hbias := one_le_bias hf
  have hleast := h.least
  have hplace := h.place_lt
  have hdef : f.leastExponent = 1 - f.bias - f.fractionBits := rfl
  rcases h.field_eq with ⟨-, -, hfield, -⟩ | ⟨-, hfield, -⟩ <;> omega

theorem magnitudeOf_lt (h : Count f value place count) (hf : 2 ≤ f.exponentBits) :
    magnitudeOf f place count < f.magnitudeLimit := by
  have hpos : 0 < 2 ^ f.fractionBits := Nat.pow_pos (by decide)
  have hfield := h.field_lt hf
  rw [magnitudeLimit_eq, ← Nat.div_lt_iff_lt_mul hpos]
  omega

end Count

end Narrow

open Narrow

-- The pattern is chosen by counting: the value is a whole number of last places, and the leading
-- bit is in range.
theorem count_of_toNarrow? {s : Bool} {m bits : Nat} {e : Int} (hview : x.view = .finite s m e)
    (hm : m ≠ 0) (h : toNarrow? f x = some bits) :
    ∃ place count, Count f (m * 2 ^ e) place count ∧
      bits = (if s then f.magnitudeLimit else 0) + magnitudeOf f place count := by
  have hm' : 0 < m := Nat.pos_of_ne_zero hm
  have hpos : (0 : ℚ) < m * 2 ^ e := by positivity
  have hlog := log_mul_zpow hm' e
  simp only [toNarrow?, hview, hm, if_false, Nat.pow_eq] at h
  split at h
  case isTrue => cases h
  case isFalse hexact =>
    simp only [Bool.or_eq_true, decide_eq_true_eq, not_or, not_lt, ne_eq, not_not] at hexact
    obtain ⟨htop, hdvd⟩ := hexact
    generalize hplace : max (e + (m.log2 : Int) - f.fractionBits) f.leastExponent = place at h hdvd
    refine ⟨place, _, ?_, (Option.some.inj h).symm.trans (Nat.add_assoc _ _ _)⟩
    have hvalue : ((m * 2 ^ (e - place).toNat / 2 ^ (place - e).toNat : Nat) : ℚ) * 2 ^ place =
        m * 2 ^ e := by
      rcases Int.le_total e place with hle | hle
      · obtain ⟨k, rfl⟩ : ∃ k : Nat, place = e + k := ⟨(place - e).toNat, by omega⟩
        have hk : (e + k - e).toNat = k := by omega
        have hk' : (e - (e + k)).toNat = 0 := by omega
        rw [hk] at hdvd ⊢
        obtain ⟨c, rfl⟩ := Nat.dvd_of_mod_eq_zero hdvd
        rw [hk', pow_zero, mul_one, Nat.mul_div_cancel_left _ (Nat.pow_pos (by decide)),
          zpow_add₀ (by norm_num), zpow_natCast]
        push_cast
        ring
      · obtain ⟨k, rfl⟩ : ∃ k : Nat, e = place + k := ⟨(e - place).toNat, by omega⟩
        have hk : (place + k - place).toNat = k := by omega
        have hk' : (place - (place + k)).toNat = 0 := by omega
        rw [hk, hk', pow_zero, Nat.div_one, zpow_add₀ (by norm_num), zpow_natCast]
        push_cast
        ring
    generalize m * 2 ^ (e - place).toNat / 2 ^ (place - e).toNat = count at hvalue ⊢
    have hcount : 0 < count := by
      rcases Nat.eq_zero_or_pos count with rfl | hcount
      · simp [← hvalue] at hpos
      · exact hcount
    -- the two ways to write the value have the same leading bit
    have hsame : (count.log2 : Int) + place = m.log2 + e := by
      rw [← log_mul_zpow hcount, hvalue, hlog]
    refine ⟨hvalue, by omega, ?_, ?_, by omega⟩
    · rw [← Nat.pow_succ', ← Nat.log2_lt hcount.ne']
      omega
    · intro hne
      rw [← Nat.le_log2 hcount.ne']
      omega

theorem ofNarrow_sign_add (s : Bool) {magnitude : Nat} (h : magnitude < f.magnitudeLimit)
    (hfield : magnitude / 2 ^ f.fractionBits < f.topField) :
    ofNarrow f ((if s then f.magnitudeLimit else 0) + magnitude) =
      if magnitude / 2 ^ f.fractionBits = 0 then
        ofScaled s (magnitude % 2 ^ f.fractionBits) f.leastExponent
      else
        ofScaled s (2 ^ f.fractionBits + magnitude % 2 ^ f.fractionBits)
          (f.leastExponent + (magnitude / 2 ^ f.fractionBits : Nat) - 1) := by
  have hsign : decide (f.magnitudeLimit ≤ (if s then f.magnitudeLimit else 0) + magnitude) = s := by
    cases s <;> simp [h]
  have hmod : ((if s then f.magnitudeLimit else 0) + magnitude) % f.magnitudeLimit = magnitude := by
    cases s <;> simp [Nat.mod_eq_of_lt h]
  simp only [ofNarrow, hsign, hmod, Nat.pow_eq, hfield.ne, if_false]

theorem ofNarrow_toNarrow? (hf : 2 ≤ f.exponentBits) {bits : Nat} (h : toNarrow? f x = some bits) :
    bits < 2 * f.magnitudeLimit ∧ ofNarrow f bits = x := by
  cases hview : x.view with
  | nan => simp [toNarrow?, hview] at h
  | infinite s => simp [toNarrow?, hview] at h
  | finite s m e =>
      by_cases hm : m = 0
      · have hlimit : 0 < f.magnitudeLimit := Nat.pow_pos (by decide)
        have htop : 0 < f.topField := by
          have := topField_eq hf
          have := one_le_bias hf
          omega
        have hbits : bits = (if s then f.magnitudeLimit else 0) + 0 := by
          simpa [toNarrow?, hview, hm, eq_comm] using h
        rw [hbits, ofNarrow_sign_add s hlimit (by simpa using htop)]
        refine ⟨by split <;> omega, ?_⟩
        simpa using ofScaled_of_view hview (c := 0) (by simp [hm])
      · obtain ⟨place, count, hc, rfl⟩ := count_of_toNarrow? hview hm h
        have hlt := hc.magnitudeOf_lt hf
        rw [ofNarrow_sign_add s hlt (hc.field_lt hf)]
        refine ⟨by split <;> omega, ?_⟩
        rcases hc.field_eq with ⟨-, hplace, hfield, hfraction⟩ | ⟨hfull, hfield, hfraction⟩
        · rw [if_pos hfield, hfraction]
          exact ofScaled_of_view hview (hplace ▸ hc.value_eq)
        · have hplace : f.leastExponent + (((place - f.leastExponent).toNat + 1 : Nat) : Int) - 1 =
              place := by
            have := hc.least
            omega
          rw [if_neg (by omega), hfraction, hfield, hplace, Nat.add_sub_cancel' hfull]
          exact ofScaled_of_view hview hc.value_eq

end Tuga.Real64
