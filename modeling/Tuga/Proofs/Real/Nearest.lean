import Mathlib.Order.Monotone.Basic
import Tuga.Proofs.Real.Representable

namespace Tuga.Real64

-- The value of the bits below the sign, as if there were no greatest exponent.
def valueOf (magnitude : Nat) : ℚ :=
  let field := magnitude / 2 ^ 52 - 1
  ((magnitude - field * 2 ^ 52 : Nat) : ℚ) * 2 ^ ((field : Int) - 1074)

-- The bits whose value is nearest to a number, a tie going to the even ones.
def Nearest (q : ℚ) (magnitude : Nat) : Prop :=
  ∀ other, other ≠ magnitude →
    |q - valueOf magnitude| < |q - valueOf other| ∨
      (|q - valueOf magnitude| = |q - valueOf other| ∧ magnitude % 2 = 0)

section Values

theorem valueOf_eq {significand field : Nat} (hle : significand ≤ 2 ^ 53)
    (hnormal : 2 ^ 52 ≤ significand ∨ field = 0) :
    valueOf (field * 2 ^ 52 + significand) = significand * 2 ^ ((field : Int) - 1074) := by
  rcases Nat.lt_or_eq_of_le hle with hlt | rfl
  · have hfield : (field * 2 ^ 52 + significand) / 2 ^ 52 - 1 = field := by omega
    simp only [valueOf, hfield, Nat.add_sub_cancel_left]
  · -- the leading bit carries into the exponent
    have hfield : (field * 2 ^ 52 + 2 ^ 53) / 2 ^ 52 - 1 = field + 1 := by omega
    have hrest : field * 2 ^ 52 + 2 ^ 53 - (field + 1) * 2 ^ 52 = 2 ^ 52 := by omega
    have hexponent : ((field + 1 : Nat) : Int) - 1074 = ((field : Int) - 1074) + 1 := by
      push_cast
      ring
    simp only [valueOf, hfield, hrest, hexponent]
    rw [zpow_add_one₀ (by norm_num)]
    push_cast
    ring

theorem exists_form (magnitude : Nat) :
    ∃ significand field, magnitude = field * 2 ^ 52 + significand ∧ significand < 2 ^ 53 ∧
      (2 ^ 52 ≤ significand ∨ field = 0) :=
  ⟨magnitude - (magnitude / 2 ^ 52 - 1) * 2 ^ 52, magnitude / 2 ^ 52 - 1, by omega, by omega,
    by omega⟩

theorem exists_unit (magnitude : Nat) :
    ∃ (significand : Nat) (unit : ℚ), 0 < unit ∧ significand < 2 ^ 53 ∧
      valueOf magnitude = significand * unit ∧
      valueOf (magnitude + 1) = (significand + 1) * unit := by
  obtain ⟨significand, field, rfl, hlt, hnormal⟩ := exists_form magnitude
  refine ⟨significand, 2 ^ ((field : Int) - 1074), by positivity, hlt,
    valueOf_eq hlt.le hnormal, ?_⟩
  rw [Nat.add_assoc, valueOf_eq hlt (by omega)]
  push_cast
  rfl

theorem valueOf_strictMono : StrictMono valueOf := by
  refine strictMono_nat_of_lt_succ fun magnitude => ?_
  obtain ⟨significand, unit, hunit, -, hvalue, hnext⟩ := exists_unit magnitude
  rw [hvalue, hnext]
  linarith

theorem valueOf_zero : valueOf 0 = 0 := by
  simp [valueOf]

theorem valueOf_succ_le (magnitude : Nat) :
    valueOf (magnitude + 1) ≤ 2 ^ 53 * (valueOf (magnitude + 1) - valueOf magnitude) := by
  obtain ⟨significand, unit, hunit, hlt, hvalue, hnext⟩ := exists_unit magnitude
  have hle : (significand : ℚ) + 1 ≤ 2 ^ 53 := by exact_mod_cast hlt
  rw [hvalue, hnext]
  nlinarith

theorem valueOf_le_mul_abs_sub {magnitude other : Nat} (h : other ≠ magnitude) :
    valueOf magnitude ≤ 2 ^ 53 * |valueOf magnitude - valueOf other| := by
  rcases Nat.lt_or_gt_of_ne h with hlt | hlt
  · obtain ⟨below, rfl⟩ : ∃ below, magnitude = below + 1 := ⟨magnitude - 1, by omega⟩
    have hgap := valueOf_succ_le below
    have hother : valueOf other ≤ valueOf below := valueOf_strictMono.monotone (by omega)
    have habs := le_abs_self (valueOf (below + 1) - valueOf other)
    linarith
  · have hgap := valueOf_succ_le magnitude
    have hother : valueOf (magnitude + 1) ≤ valueOf other := valueOf_strictMono.monotone hlt
    have hnext : valueOf magnitude < valueOf (magnitude + 1) :=
      valueOf_strictMono (Nat.lt_succ_self _)
    have habs := neg_abs_le (valueOf magnitude - valueOf other)
    linarith

theorem Representable.valueOf_eq {m : Nat} {e : Int} (h : Representable m e) :
    valueOf (finiteMagnitude m e) = m * 2 ^ e := by
  have hleast := h.least
  have hlt := h.lt
  have hnormal := h.normal
  rw [finiteMagnitude, Real64.valueOf_eq hlt.le (by omega)]
  congr 2
  omega

end Values

section Nearest

variable {q a b : ℚ} {magnitude other : Nat}

-- Which of two numbers is nearer depends on which side of their middle one stands.
theorem abs_sub_lt_iff_middle {x y : ℚ} (h : x < y) : |q - y| < |q - x| ↔ x + y < 2 * q := by
  have hsplit : (q - x) ^ 2 - (q - y) ^ 2 = (y - x) * (2 * q - (x + y)) := by ring
  rw [← sq_lt_sq, ← sub_pos, hsplit, mul_pos_iff_of_pos_left (sub_pos.mpr h), sub_pos]

theorem abs_sub_eq_iff_middle {x y : ℚ} (h : x < y) : |q - y| = |q - x| ↔ x + y = 2 * q := by
  have hsplit : (q - x) ^ 2 - (q - y) ^ 2 = (y - x) * (2 * q - (x + y)) := by ring
  rw [← sq_eq_sq_iff_abs_eq_abs, eq_comm, ← sub_eq_zero, hsplit, mul_eq_zero,
    or_iff_right (sub_pos.mpr h).ne', sub_eq_zero, eq_comm]

theorem abs_sub_lt_iff_middle' {x y : ℚ} (h : x < y) : |q - x| < |q - y| ↔ 2 * q < x + y := by
  have hsplit : (q - y) ^ 2 - (q - x) ^ 2 = (y - x) * (x + y - 2 * q) := by ring
  rw [← sq_lt_sq, ← sub_pos, hsplit, mul_pos_iff_of_pos_left (sub_pos.mpr h), sub_pos]

-- Nearest is what lies between the middles to both sides, which count if the bits are even.
theorem nearest_iff :
    Nearest q magnitude ↔
      (∀ other < magnitude, valueOf other + valueOf magnitude < 2 * q ∨
        (valueOf other + valueOf magnitude = 2 * q ∧ magnitude % 2 = 0)) ∧
      ∀ other > magnitude, 2 * q < valueOf magnitude + valueOf other ∨
        (valueOf magnitude + valueOf other = 2 * q ∧ magnitude % 2 = 0) := by
  constructor
  · intro h
    refine ⟨fun other hother => ?_, fun other hother => ?_⟩
    · have hlt := valueOf_strictMono hother
      rw [← abs_sub_lt_iff_middle hlt, ← abs_sub_eq_iff_middle hlt]
      exact h other hother.ne
    · have hlt := valueOf_strictMono hother
      rw [← abs_sub_lt_iff_middle' hlt, ← abs_sub_eq_iff_middle hlt, eq_comm]
      exact h other hother.ne'
  · rintro ⟨hbelow, habove⟩ other hne
    rcases Nat.lt_or_gt_of_ne hne with hother | hother
    · have hlt := valueOf_strictMono hother
      rw [abs_sub_lt_iff_middle hlt, abs_sub_eq_iff_middle hlt]
      exact hbelow other hother
    · have hlt := valueOf_strictMono hother
      rw [abs_sub_lt_iff_middle' hlt, eq_comm (a := |q - valueOf magnitude|),
        abs_sub_eq_iff_middle hlt]
      exact habove other hother

theorem nearest_valueOf (magnitude : Nat) : Nearest (valueOf magnitude) magnitude := by
  intro other hne
  left
  rw [sub_self, abs_zero, abs_pos, sub_ne_zero]
  exact fun h => hne (valueOf_strictMono.injective h.symm)

-- What is rounded to one number is an interval.
theorem Nearest.between (ha : Nearest a magnitude) (hb : Nearest b magnitude) (hle : a ≤ q)
    (hle' : q ≤ b) : Nearest q magnitude := by
  rw [nearest_iff] at ha hb ⊢
  refine ⟨fun other hother => ?_, fun other hother => ?_⟩
  · rcases ha.1 other hother with hlt | ⟨heq, heven⟩
    · exact .inl (by linarith)
    · rcases hle.lt_or_eq with hlt | rfl
      · exact .inl (by linarith)
      · exact .inr ⟨heq, heven⟩
  · rcases hb.2 other hother with hlt | ⟨heq, heven⟩
    · exact .inl (by linarith)
    · rcases hle'.lt_or_eq with hlt | rfl
      · exact .inl (by linarith)
      · exact .inr ⟨heq, heven⟩

theorem Nearest.unique (h : Nearest q magnitude) (h' : Nearest q other) : magnitude = other := by
  by_contra hne
  wlog hlt : magnitude < other generalizing magnitude other
  · exact this h' h (Ne.symm hne) (by omega)
  rcases (nearest_iff.mp h).2 other hlt with hright | ⟨heq, heven⟩
  · rcases (nearest_iff.mp h').1 magnitude hlt with hleft | ⟨heq, -⟩ <;> linarith
  · rcases (nearest_iff.mp h').1 magnitude hlt with hleft | ⟨-, heven'⟩
    · linarith
    · -- two even numbers have an odd one between them, which is nearer than both
      have hnext : valueOf (magnitude + 1) < valueOf other := valueOf_strictMono (by omega)
      rcases (nearest_iff.mp h).2 (magnitude + 1) (Nat.lt_succ_self _) with hmiddle | ⟨hmiddle, -⟩
        <;> linarith

theorem Nearest.mono (ha : Nearest a magnitude) (hb : Nearest b other) (hle : a ≤ b) :
    magnitude ≤ other := by
  by_contra hlt
  rw [Nat.not_le] at hlt
  -- the middle of the two values is not above `a` and not below `b`
  have hlow : valueOf other + valueOf magnitude ≤ 2 * a := by
    rcases (nearest_iff.mp ha).1 other hlt with h | ⟨h, -⟩ <;> linarith
  have hhigh : 2 * b ≤ valueOf other + valueOf magnitude := by
    rcases (nearest_iff.mp hb).2 magnitude hlt with h | ⟨h, -⟩ <;> linarith
  obtain rfl : a = b := by linarith
  exact absurd (ha.unique hb) hlt.ne'

theorem nearest_of_abs_sub_lt (h : 2 ^ 54 * |q - valueOf magnitude| < valueOf magnitude) :
    Nearest q magnitude := by
  intro other hne
  left
  have hgap := valueOf_le_mul_abs_sub hne
  have htriangle := abs_sub_le (valueOf magnitude) q (valueOf other)
  rw [abs_sub_comm (valueOf magnitude) q] at htriangle
  linarith

theorem nearest_lower (hle : valueOf magnitude ≤ q)
    (h : 2 * q < valueOf magnitude + valueOf (magnitude + 1) ∨
      (valueOf magnitude + valueOf (magnitude + 1) = 2 * q ∧ magnitude % 2 = 0)) :
    Nearest q magnitude := by
  refine nearest_iff.mpr ⟨fun other hother => ?_, fun other hother => ?_⟩
  · have hlt := valueOf_strictMono hother
    exact .inl (by linarith)
  · rcases Nat.eq_or_lt_of_le (Nat.succ_le_of_lt hother) with rfl | hbeyond
    · exact h
    · have hlt : valueOf (magnitude + 1) < valueOf other := valueOf_strictMono hbeyond
      rcases h with h | ⟨h, -⟩ <;> exact .inl (by linarith)

theorem nearest_upper (hlt : q < valueOf (magnitude + 1))
    (h : valueOf magnitude + valueOf (magnitude + 1) < 2 * q ∨
      (valueOf magnitude + valueOf (magnitude + 1) = 2 * q ∧ magnitude % 2 = 1)) :
    Nearest q (magnitude + 1) := by
  refine nearest_iff.mpr ⟨fun other hother => ?_, fun other hother => ?_⟩
  · rcases Nat.eq_or_lt_of_le (Nat.le_of_lt_succ hother) with rfl | hbeyond
    · exact h.imp_right fun ⟨heq, hodd⟩ => ⟨heq, by omega⟩
    · have hlt : valueOf other < valueOf magnitude := valueOf_strictMono hbeyond
      rcases h with h | ⟨h, -⟩ <;> exact .inl (by linarith)
  · have hlt := valueOf_strictMono hother
    exact .inl (by linarith)

end Nearest

section Rounding

-- The quotient is rounded by the fraction that is left: down below one half, up above it, and to
-- the even neighbour at one half.
theorem roundDiv_cases (num : Nat) {den : Nat} (hden : 0 < den) :
    let fraction : ℚ := (num % den : Nat) / den
    (roundDiv num den = num / den ∧
      (fraction < 1 / 2 ∨ (fraction = 1 / 2 ∧ num / den % 2 = 0))) ∨
    (roundDiv num den = num / den + 1 ∧
      (1 / 2 < fraction ∨ (fraction = 1 / 2 ∧ num / den % 2 = 1))) := by
  intro fraction
  have hden' : (0 : ℚ) < den := by exact_mod_cast hden
  have hless : fraction < 1 / 2 ↔ num % den * 2 < 1 * den := by
    rw [div_lt_div_iff₀ hden' (by norm_num)]
    exact_mod_cast Iff.rfl
  have hmore : 1 / 2 < fraction ↔ 1 * den < num % den * 2 := by
    rw [div_lt_div_iff₀ (by norm_num) hden']
    exact_mod_cast Iff.rfl
  have hequal : fraction = 1 / 2 ↔ num % den * 2 = 1 * den := by
    rw [div_eq_div_iff hden'.ne' (by norm_num)]
    exact_mod_cast Iff.rfl
  rw [hless, hmore, hequal]
  simp only [roundDiv, Bool.or_eq_true, Bool.and_eq_true, decide_eq_true_eq]
  split
  · right
    omega
  · left
    omega

theorem ratio_eq_units (num : Nat) {den : Nat} (hden : 0 < den) (place : Int) :
    (num : ℚ) / den =
      (num * scaleDen place : Nat) / (den * 2 ^ place.toNat : Nat) * 2 ^ place := by
  have hden' : (0 : ℚ) < den := by exact_mod_cast hden
  have hscale : (0 : ℚ) < scaleDen place := by exact_mod_cast scaleDen_pos place
  rw [zpow_eq_div]
  push_cast
  field_simp

theorem div_eq_add_fraction (n : Nat) {d : Nat} (hd : 0 < d) :
    (n : ℚ) / d = (n / d : Nat) + (n % d : Nat) / d := by
  have hd' : (0 : ℚ) < d := by exact_mod_cast hd
  have hsplit : (n : ℚ) = d * (n / d : Nat) + (n % d : Nat) := by
    exact_mod_cast (Nat.div_add_mod n d).symm
  nth_rewrite 1 [hsplit]
  field_simp

-- In units of its last place a ratio has 53 bits, or fewer if the place is the least one.
theorem lastPlace_bounds {num den : Nat} (hnum : 0 < num) (hden : 0 < den) :
    (num : ℚ) / den < 2 ^ 53 * 2 ^ lastPlace num den ∧
      (2 ^ 52 * 2 ^ lastPlace num den ≤ (num : ℚ) / den ∨ lastPlace num den = -1074) := by
  have hratio : (0 : ℚ) < (num : ℚ) / den := by positivity
  have hlow := (zpow_le_iff hratio).mpr (le_refl (Int.log 2 ((num : ℚ) / den)))
  have hhigh := (lt_zpow_iff hratio).mpr (Int.lt_succ (Int.log 2 ((num : ℚ) / den)))
  have hplace := lastPlace_eq_log hnum hden
  generalize Int.log 2 ((num : ℚ) / den) = top at hplace hlow hhigh
  generalize lastPlace num den = place at hplace ⊢
  have hpow : ∀ n : Nat, (2 : ℚ) ^ n * 2 ^ place = 2 ^ ((n : Int) + place) := by
    intro n
    rw [zpow_add₀ (by norm_num), zpow_natCast]
  rw [hpow, hpow]
  constructor
  · exact hhigh.trans_le (zpow_le_zpow_right₀ (by norm_num) (by omega))
  · by_cases hleast : place = -1074
    · exact .inr hleast
    · left
      rwa [show ((52 : Nat) : Int) + place = top by omega]

-- A number between two multiples of a place is rounded by the fraction: down below one half, up
-- above it, and to the even multiple at one half.
theorem nearest_of_fraction {whole rounded : Nat} {place : Int} {fraction : ℚ}
    (hleast : -1074 ≤ place) (hlt : whole < 2 ^ 53) (hnormal : 2 ^ 52 ≤ whole ∨ place = -1074)
    (hnonneg : 0 ≤ fraction) (hless : fraction < 1)
    (hcases : (rounded = whole ∧ (fraction < 1 / 2 ∨ (fraction = 1 / 2 ∧ whole % 2 = 0))) ∨
      (rounded = whole + 1 ∧ (1 / 2 < fraction ∨ (fraction = 1 / 2 ∧ whole % 2 = 1)))) :
    Nearest ((whole + fraction) * 2 ^ place) ((place + 1074).toNat * 2 ^ 52 + rounded) := by
  have hpow : (0 : ℚ) < 2 ^ place := by positivity
  have hplace : (((place + 1074).toNat : Nat) : Int) - 1074 = place := by omega
  have hbelow : valueOf ((place + 1074).toNat * 2 ^ 52 + whole) = whole * 2 ^ place := by
    rw [valueOf_eq hlt.le (by omega), hplace]
  have habove : valueOf ((place + 1074).toNat * 2 ^ 52 + whole + 1) = (whole + 1) * 2 ^ place := by
    rw [Nat.add_assoc, valueOf_eq hlt (by omega), hplace]
    push_cast
    rfl
  rcases hcases with ⟨rfl, hcase⟩ | ⟨rfl, hcase⟩
  · refine nearest_lower ?_ ?_
    · rw [hbelow]
      nlinarith
    · rw [hbelow, habove]
      rcases hcase with hcase | ⟨rfl, heven⟩
      · exact .inl (by nlinarith)
      · exact .inr ⟨by ring, by omega⟩
  · rw [← Nat.add_assoc]
    refine nearest_upper ?_ ?_
    · rw [habove]
      nlinarith
    · rw [hbelow, habove]
      rcases hcase with hcase | ⟨rfl, hodd⟩
      · exact .inl (by nlinarith)
      · exact .inr ⟨by ring, by omega⟩

theorem exists_nearest (s : Bool) {num den : Nat} (hnum : 0 < num) (hden : 0 < den) :
    ∃ magnitude, Nearest ((num : ℚ) / den) magnitude ∧
      ofRatio s num den = ofMagnitude s (min magnitude infiniteMagnitude) := by
  have hratio : ofRatio s num den = ofMagnitude s (min
      ((lastPlace num den + 1074).toNat * 2 ^ 52 +
        roundDiv (num * scaleDen (lastPlace num den)) (den * 2 ^ (lastPlace num den).toNat))
      infiniteMagnitude) := by
    simp only [ofRatio, hnum.ne', if_false]
    rfl
  refine ⟨_, ?_, hratio⟩
  obtain ⟨hhigh, hlow⟩ := lastPlace_bounds hnum hden
  have hleast : -1074 ≤ lastPlace num den := by
    rw [lastPlace_eq_log hnum hden]
    exact le_max_right _ _
  have hunit : 0 < den * 2 ^ (lastPlace num den).toNat := by positivity
  have hvalue := ratio_eq_units num hden (lastPlace num den)
  rw [hvalue] at hlow hhigh ⊢
  generalize lastPlace num den = place at hhigh hlow hleast hunit ⊢
  generalize num * scaleDen place = units at hhigh hlow ⊢
  generalize den * 2 ^ place.toNat = unit at hunit hhigh hlow ⊢
  have hpow : (0 : ℚ) < 2 ^ place := by positivity
  have hunit' : (0 : ℚ) < unit := by exact_mod_cast hunit
  rw [div_eq_add_fraction units hunit]
  refine nearest_of_fraction hleast ?_ ?_ (by positivity) ?_ (roundDiv_cases units hunit)
  · have hlt := lt_of_mul_lt_mul_right hhigh hpow.le
    rw [div_lt_iff₀ hunit'] at hlt
    rw [Nat.div_lt_iff_lt_mul hunit]
    exact_mod_cast hlt
  · refine hlow.imp_left fun hlow => ?_
    have hle := le_of_mul_le_mul_right hlow hpow
    rw [le_div_iff₀ hunit'] at hle
    rw [Nat.le_div_iff_mul_le hunit]
    exact_mod_cast hle
  · rw [div_lt_one hunit']
    exact_mod_cast Nat.mod_lt units hunit

end Rounding

section Patterns

theorem toNat_ofMagnitude (s : Bool) {magnitude : Nat} (h : magnitude < signBit) :
    (ofMagnitude s magnitude).bits.toNat = magnitude + if s then signBit else 0 := by
  have hlt : magnitude + (if s then signBit else 0) < 2 ^ 64 := by
    have hbit : signBit + signBit = 2 ^ 64 := rfl
    split <;> omega
  rw [ofMagnitude, UInt64.toNat_ofNat', Nat.mod_eq_of_lt hlt]

theorem magnitude_ofMagnitude (s : Bool) {magnitude : Nat} (h : magnitude < signBit) :
    (ofMagnitude s magnitude).magnitude = magnitude := by
  rw [Real64.magnitude, toNat_ofMagnitude s h]
  cases s <;> simp [Nat.mod_eq_of_lt h]

theorem isNegative_ofMagnitude (s : Bool) {magnitude : Nat} (h : magnitude < signBit) :
    (ofMagnitude s magnitude).isNegative = s := by
  rw [isNegative, toNat_ofMagnitude s h]
  cases s <;> simp [h]

theorem eq_of_magnitude_eq {x y : Real64} (hsign : x.isNegative = y.isNegative)
    (hmagnitude : x.magnitude = y.magnitude) : x = y := by
  rw [← ofMagnitude_magnitude x, ← ofMagnitude_magnitude y, hsign, hmagnitude]

theorem ofMagnitude_eq_iff {x : Real64} {s : Bool} {magnitude : Nat} (h : magnitude < signBit) :
    ofMagnitude s magnitude = x ↔ x.isNegative = s ∧ x.magnitude = magnitude := by
  constructor
  · rintro rfl
    exact ⟨isNegative_ofMagnitude s h, magnitude_ofMagnitude s h⟩
  · rintro ⟨rfl, rfl⟩
    exact ofMagnitude_magnitude x

-- A ratio is rounded to a finite number exactly if the number is nearest to it.
theorem ofRatio_eq_iff {x : Real64} {s : Bool} {num den : Nat}
    (hx : x.magnitude < infiniteMagnitude) (hden : 0 < den) :
    ofRatio s num den = x ↔ x.isNegative = s ∧ Nearest ((num : ℚ) / den) x.magnitude := by
  have hbit : infiniteMagnitude < signBit := by decide
  have hexists : ∃ magnitude, Nearest ((num : ℚ) / den) magnitude ∧
      ofRatio s num den = ofMagnitude s (min magnitude infiniteMagnitude) := by
    rcases Nat.eq_zero_or_pos num with rfl | hnum
    · refine ⟨0, ?_, rfl⟩
      simpa [valueOf_zero] using nearest_valueOf 0
    · exact exists_nearest s hnum hden
  obtain ⟨magnitude, hnearest, hratio⟩ := hexists
  rw [hratio, ofMagnitude_eq_iff (by omega)]
  refine and_congr_right fun _ => ⟨fun h => ?_, fun h => ?_⟩
  · obtain rfl : x.magnitude = magnitude := by omega
    exact hnearest
  · have := hnearest.unique h
    omega

theorem exists_view {x : Real64} (h : x.magnitude < infiniteMagnitude) :
    ∃ m e, x.view = .finite x.isNegative m e := by
  have hinfinite : infiniteMagnitude = 2047 * 2 ^ 52 := rfl
  have hpow : Nat.pow 2 fractionBits = 2 ^ 52 := rfl
  simp only [view, hpow]
  rw [if_neg (by omega)]
  split
  · exact ⟨_, _, rfl⟩
  · exact ⟨_, _, rfl⟩

theorem magnitude_of_view {x : Real64} {s : Bool} {m : Nat} {e : Int}
    (h : x.view = .finite s m e) :
    x.isNegative = s ∧ x.magnitude < infiniteMagnitude ∧ valueOf x.magnitude = m * 2 ^ e := by
  obtain ⟨hform, hx, hlt⟩ := view_finite h
  have hbit : finiteMagnitude m e < signBit := hlt.trans (by decide)
  rw [hx, isNegative_ofMagnitude s hbit, magnitude_ofMagnitude s hbit]
  exact ⟨rfl, hlt, hform.valueOf_eq⟩

end Patterns

end Tuga.Real64
