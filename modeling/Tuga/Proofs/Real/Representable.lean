import Mathlib.Algebra.Order.Field.Power
import Mathlib.Data.Int.Log
import Mathlib.Data.Rat.Cast.Order
import Mathlib.Data.Rat.Floor
import Mathlib.Tactic.FieldSimp
import Mathlib.Tactic.Linarith
import Mathlib.Tactic.Positivity
import Mathlib.Tactic.Ring
import Tuga.Real.Rounding

namespace Tuga.Real64

-- A significand and an exponent in the only form that a finite number has: all 53 bits are used
-- unless the exponent is the least one.
structure Representable (significand : Nat) (exponent : Int) : Prop where
  lt : significand < 2 ^ 53
  least : -1074 ≤ exponent
  normal : 2 ^ 52 ≤ significand ∨ exponent = -1074

section Powers

theorem scaleDen_pos (e : Int) : 0 < scaleDen e :=
  Nat.pow_pos (by decide)

theorem zpow_eq_div (e : Int) : (2 : ℚ) ^ e = (2 : ℚ) ^ e.toNat / scaleDen e := by
  rcases Int.le_total 0 e with he | he
  · obtain ⟨n, rfl⟩ := Int.eq_ofNat_of_zero_le he
    simp [scaleDen]
  · obtain ⟨n, rfl⟩ : ∃ n : Nat, e = -n := ⟨(-e).toNat, by omega⟩
    simp [scaleDen]

theorem scaleNum_div_scaleDen (m : Nat) (e : Int) :
    (scaleNum m e : ℚ) / scaleDen e = m * 2 ^ e := by
  rw [zpow_eq_div, scaleNum]
  push_cast [Nat.pow_eq]
  ring

theorem belowPower_iff (num : Nat) {den : Nat} (hden : 0 < den) (k : Int) :
    belowPower num den k = true ↔ (num : ℚ) / den < 2 ^ k := by
  have hscale : (0 : ℚ) < scaleDen k := by exact_mod_cast scaleDen_pos k
  have hden' : (0 : ℚ) < den := by exact_mod_cast hden
  rw [zpow_eq_div, div_lt_div_iff₀ hden' hscale, belowPower, decide_eq_true_eq,
    mul_comm ((2 : ℚ) ^ _)]
  exact_mod_cast Iff.rfl

theorem zpow_log2_le {n : Nat} (hn : 0 < n) : (2 : ℚ) ^ (n.log2 : Int) ≤ n := by
  rw [zpow_natCast]
  exact_mod_cast Nat.log2_self_le (by omega)

theorem lt_zpow_log2 (n : Nat) : (n : ℚ) < 2 ^ ((n.log2 : Int) + 1) := by
  have h : n < 2 ^ (n.log2 + 1) := Nat.lt_log2_self
  exact_mod_cast h

theorem zpow_le_iff {q : ℚ} (hq : 0 < q) {k : Int} : 2 ^ k ≤ q ↔ k ≤ Int.log 2 q := by
  simpa only [Nat.cast_ofNat] using Int.zpow_le_iff_le_log (b := 2) (by norm_num) hq

theorem lt_zpow_iff {q : ℚ} (hq : 0 < q) {k : Int} : q < 2 ^ k ↔ Int.log 2 q < k := by
  simpa only [Nat.cast_ofNat] using Int.lt_zpow_iff_log_lt (b := 2) (by norm_num) hq

end Powers

section Rounding

-- The leading bits of numerator and denominator leave two candidates for the leading bit of the
-- ratio; one comparison decides between them.
theorem lastPlace_eq_log {num den : Nat} (hnum : 0 < num) (hden : 0 < den) :
    lastPlace num den = max (Int.log 2 ((num : ℚ) / den) - 52) (-1074) := by
  have hden' : (0 : ℚ) < den := by exact_mod_cast hden
  have hratio : (0 : ℚ) < (num : ℚ) / den := by positivity
  have hlow : (2 : ℚ) ^ ((num.log2 : Int) - den.log2 - 1) ≤ (num : ℚ) / den := by
    rw [le_div_iff₀ hden']
    calc (2 : ℚ) ^ ((num.log2 : Int) - den.log2 - 1) * den
        ≤ 2 ^ ((num.log2 : Int) - den.log2 - 1) * 2 ^ ((den.log2 : Int) + 1) := by
          gcongr
          exact (lt_zpow_log2 den).le
      _ = 2 ^ (num.log2 : Int) := by
          rw [← zpow_add₀ (by norm_num)]
          congr 1
          omega
      _ ≤ num := zpow_log2_le hnum
  have hhigh : (num : ℚ) / den < 2 ^ ((num.log2 : Int) - den.log2 + 1) := by
    rw [div_lt_iff₀ hden']
    calc (num : ℚ) < 2 ^ ((num.log2 : Int) + 1) := lt_zpow_log2 num
      _ = 2 ^ ((num.log2 : Int) - den.log2 + 1) * 2 ^ (den.log2 : Int) := by
          rw [← zpow_add₀ (by norm_num)]
          congr 1
          omega
      _ ≤ 2 ^ ((num.log2 : Int) - den.log2 + 1) * den := by
          gcongr
          exact zpow_log2_le hden
  rw [zpow_le_iff hratio] at hlow
  rw [lt_zpow_iff hratio] at hhigh
  have hbelow := (belowPower_iff num hden ((num.log2 : Int) - den.log2)).trans
    (lt_zpow_iff hratio)
  simp only [lastPlace, fractionBits, leastExponent]
  split
  case isTrue h => have := hbelow.1 h; omega
  case isFalse h => have := mt hbelow.2 h; omega

theorem log_mul_zpow {m : Nat} (hm : 0 < m) (e : Int) :
    Int.log 2 ((m : ℚ) * 2 ^ e) = m.log2 + e := by
  have hm' : (0 : ℚ) < m := by exact_mod_cast hm
  have hpos : (0 : ℚ) < m * 2 ^ e := by positivity
  have hlow : (2 : ℚ) ^ ((m.log2 : Int) + e) ≤ m * 2 ^ e := by
    rw [zpow_add₀ (by norm_num)]
    gcongr
    exact zpow_log2_le hm
  have hhigh : (m : ℚ) * 2 ^ e < 2 ^ ((m.log2 : Int) + e + 1) := by
    rw [add_right_comm, zpow_add₀ (by norm_num)]
    gcongr
    exact lt_zpow_log2 m
  rw [zpow_le_iff hpos] at hlow
  rw [lt_zpow_iff hpos] at hhigh
  omega

theorem Representable.lastPlace_eq {num den m : Nat} {e : Int} (h : Representable m e)
    (hm : 0 < m) (hden : 0 < den) (hvalue : (num : ℚ) / den = m * 2 ^ e) :
    lastPlace num den = e := by
  have hm' : (0 : ℚ) < m := by exact_mod_cast hm
  have hden' : (0 : ℚ) < den := by exact_mod_cast hden
  have hnum : 0 < num := by
    rcases Nat.eq_zero_or_pos num with rfl | hnum
    · have : (0 : ℚ) < m * 2 ^ e := by positivity
      simp [← hvalue] at this
    · exact hnum
  have hlog : m.log2 < 53 := (Nat.log2_lt hm.ne').2 h.lt
  rw [lastPlace_eq_log hnum hden, hvalue, log_mul_zpow hm]
  have hleast := h.least
  rcases h.normal with hfull | rfl
  · have : 52 ≤ m.log2 := (Nat.le_log2 hm.ne').2 hfull
    omega
  · omega

theorem roundDiv_mul (m : Nat) {d : Nat} (hd : 0 < d) : roundDiv (m * d) d = m := by
  simp [roundDiv, Nat.mul_div_cancel m hd, hd.ne]

-- The bits of a finite number: the exponent counts from the least one, and the leading bit of the
-- significand, if it is there, adds one to it.
def finiteMagnitude (significand : Nat) (exponent : Int) : Nat :=
  (exponent + 1074).toNat * 2 ^ 52 + significand

theorem Representable.ofRatio_eq {num den m : Nat} {e : Int} (h : Representable m e)
    (hden : 0 < den) (hvalue : (num : ℚ) / den = m * 2 ^ e) (s : Bool) :
    ofRatio s num den =
      ofMagnitude s (if m = 0 then 0 else min (finiteMagnitude m e) infiniteMagnitude) := by
  have hden' : (0 : ℚ) < den := by exact_mod_cast hden
  rcases Nat.eq_zero_or_pos m with rfl | hm
  · have hnum : num = 0 := by simpa [hden.ne'] using hvalue
    simp [ofRatio, hnum, zero]
  · have hnum : num ≠ 0 := by
      rintro rfl
      have : (0 : ℚ) < m * 2 ^ e := by positivity
      simp [← hvalue] at this
    have hcross : num * scaleDen e = m * (den * 2 ^ e.toNat) := by
      have hscale : (0 : ℚ) < scaleDen e := by exact_mod_cast scaleDen_pos e
      rw [zpow_eq_div] at hvalue
      field_simp at hvalue
      have : (num * scaleDen e : ℚ) = m * (den * 2 ^ e.toNat) := by linarith
      exact_mod_cast this
    have hsignificand : roundDiv (num * scaleDen e) (den * Nat.pow 2 e.toNat) = m := by
      rw [Nat.pow_eq, hcross]
      exact roundDiv_mul m (by positivity)
    have hoffset : (e - leastExponent).toNat = (e + 1074).toNat := rfl
    simp only [ofRatio, hnum, hm.ne', if_false, h.lastPlace_eq hm hden hvalue, hsignificand,
      hoffset]
    rfl

end Rounding

section Views

theorem magnitude_lt (x : Real64) : x.magnitude < signBit :=
  Nat.mod_lt _ (by decide)

theorem ofMagnitude_magnitude (x : Real64) : ofMagnitude x.isNegative x.magnitude = x := by
  obtain ⟨bits⟩ := x
  have hbits : bits.toNat < 2 * signBit := bits.toNat_lt
  have hsum : bits.toNat % signBit + (if signBit ≤ bits.toNat then signBit else 0) =
      bits.toNat := by
    split
    case isTrue h =>
      rw [Nat.mod_eq_sub_mod h, Nat.mod_eq_of_lt (by omega)]
      omega
    case isFalse h => rw [Nat.mod_eq_of_lt (by omega), Nat.add_zero]
  simp only [ofMagnitude, isNegative, magnitude, decide_eq_true_eq, hsum, UInt64.ofNat_toNat]

-- A finite number is read in the only form it has, and its bits are those of this form.
theorem view_finite {x : Real64} {s : Bool} {m : Nat} {e : Int} (h : x.view = .finite s m e) :
    Representable m e ∧ x = ofMagnitude s (finiteMagnitude m e) ∧
      finiteMagnitude m e < infiniteMagnitude := by
  have hlt : x.magnitude < 2048 * 2 ^ 52 := magnitude_lt x
  have hsplit := Nat.div_add_mod x.magnitude (2 ^ 52)
  have hfraction := Nat.mod_lt x.magnitude (show 0 < 2 ^ 52 by decide)
  have hx := ofMagnitude_magnitude x
  have hpow : Nat.pow 2 fractionBits = 2 ^ 52 := rfl
  simp only [view] at h
  split at h
  case isTrue => split at h <;> cases h
  case isFalse htop =>
    rw [hpow] at htop
    have hmagnitude : x.magnitude < infiniteMagnitude := by
      rw [infiniteMagnitude, hpow]
      omega
    split at h
    case isTrue hfield =>
      rw [hpow] at h hfield
      cases h
      have hm : finiteMagnitude (x.magnitude % 2 ^ 52) (-1074) = x.magnitude := by
        simp only [finiteMagnitude]
        omega
      exact ⟨⟨by omega, le_refl _, .inr rfl⟩, by rw [leastExponent, hm, hx],
        by rwa [leastExponent, hm]⟩
    case isFalse hfield =>
      rw [hpow] at h hfield
      cases h
      have hm : finiteMagnitude (2 ^ 52 + x.magnitude % 2 ^ 52)
          (leastExponent + (x.magnitude / 2 ^ 52 : Nat) - 1) = x.magnitude := by
        simp only [finiteMagnitude, leastExponent]
        omega
      have hleast : leastExponent = -1074 := rfl
      exact ⟨⟨by omega, by omega, .inl (by omega)⟩, by rw [hm, hx], by rwa [hm]⟩

theorem view_infinite {x : Real64} {s : Bool} (h : x.view = .infinite s) : x = infinity s := by
  have hsplit := Nat.div_add_mod x.magnitude (2 ^ 52)
  have hpow : Nat.pow 2 fractionBits = 2 ^ 52 := rfl
  simp only [view, hpow] at h
  split at h
  case isTrue htop =>
    split at h
    case isTrue hfraction =>
      cases h
      have hmagnitude : x.magnitude = infiniteMagnitude := by
        rw [infiniteMagnitude, hpow]
        omega
      rw [infinity, ← hmagnitude, ofMagnitude_magnitude]
    case isFalse => cases h
  case isFalse => split at h <;> cases h

theorem view_eq_nan_iff (x : Real64) : x.view = .nan ↔ x.isNaN = true := by
  have hlt : x.magnitude < 2048 * 2 ^ 52 := magnitude_lt x
  have hsplit := Nat.div_add_mod x.magnitude (2 ^ 52)
  have hfraction := Nat.mod_lt x.magnitude (show 0 < 2 ^ 52 by decide)
  have hpow : Nat.pow 2 fractionBits = 2 ^ 52 := rfl
  simp only [view, isNaN, infiniteMagnitude, hpow, decide_eq_true_eq]
  split
  case isTrue htop =>
    split
    case isTrue => simp only [reduceCtorEq, false_iff]; omega
    case isFalse => simp only [true_iff]; omega
  case isFalse => split <;> (simp only [reduceCtorEq, false_iff]; omega)

-- Rounding gives back a finite number from its value, however the value is written.
theorem ofScaled_of_view {x : Real64} {s : Bool} {m c : Nat} {e p : Int}
    (h : x.view = .finite s m e) (hvalue : (c : ℚ) * 2 ^ p = m * 2 ^ e) :
    ofScaled s c p = x := by
  obtain ⟨hform, hx, hlt⟩ := view_finite h
  have hratio : (scaleNum c p : ℚ) / scaleDen p = m * 2 ^ e :=
    (scaleNum_div_scaleDen c p).trans hvalue
  rw [ofScaled, hform.ofRatio_eq (scaleDen_pos p) hratio, hx]
  split
  case isTrue hm =>
    -- the exponent of zero is the least one, as its significand has no leading bit
    have he : e = -1074 := hform.normal.resolve_left (by omega)
    rw [hm, he]
    rfl
  case isFalse => rw [Nat.min_eq_left hlt.le]

end Views

end Tuga.Real64
