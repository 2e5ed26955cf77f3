import Tuga.Proofs.Real.Nearest
import Tuga.Proofs.Text.Digits
import Tuga.Real.Shortest

namespace Tuga.Decimal

open Real64

-- The number that a decimal stands for.
def value (d : Decimal) : ℚ := d.digits * 10 ^ d.exponent

section Powers

theorem zpow_ten_eq_div (e : Int) : (10 : ℚ) ^ e = 10 ^ e.toNat / 10 ^ (-e).toNat := by
  rcases Int.le_total 0 e with he | he
  · obtain ⟨n, rfl⟩ := Int.eq_ofNat_of_zero_le he
    simp
  · obtain ⟨n, rfl⟩ : ∃ n : Nat, e = -n := ⟨(-e).toNat, by omega⟩
    simp

-- A decimal is read as the number nearest to it.
theorem reads_iff {x : Real64} (hx : x.magnitude < infiniteMagnitude) (d : Decimal) :
    d.reads x = true ↔ x.isNegative = false ∧ Nearest d.value x.magnitude := by
  have hvalue : ((d.digits * 10 ^ d.exponent.toNat : Nat) : ℚ) / (10 ^ (-d.exponent).toNat : Nat) =
      d.value := by
    rw [value, zpow_ten_eq_div]
    push_cast
    ring
  rw [reads, decide_eq_true_eq, ofDecimal, Nat.pow_eq, Nat.pow_eq,
    ofRatio_eq_iff hx (Nat.pow_pos (by decide)), hvalue]

theorem length_bounds {n : Nat} (h : 0 < n) : 10 ^ (length n - 1) ≤ n ∧ n < 10 ^ length n :=
  Text.ofNat_bounds h

theorem exists_length_eq (n : Nat) : ∃ k, length n = k + 1 :=
  ⟨length n - 1, by have := List.length_pos_of_ne_nil (Text.ofNat_ne_nil n); rw [length]; omega⟩

theorem neg_zpow_le_div_iff {num den : Nat} (hden : 0 < den) (k : Nat) :
    (10 : ℚ) ^ (-(k : Int)) ≤ (num : ℚ) / den ↔ den ≤ num * 10 ^ k := by
  have hden' : (0 : ℚ) < den := by exact_mod_cast hden
  rw [zpow_neg, zpow_natCast, inv_eq_one_div, div_le_div_iff₀ (by positivity) hden', one_mul]
  exact_mod_cast Iff.rfl

-- The quotient has as many digits as the ratio before its point. Below one, the inverse ratio
-- leaves two candidates, and one comparison decides between them.
theorem leadingPower_bounds {num den : Nat} (hnum : 0 < num) (hden : 0 < den) :
    (10 : ℚ) ^ leadingPower num den ≤ (num : ℚ) / den ∧
      (num : ℚ) / den < 10 ^ (leadingPower num den + 1) := by
  have hden' : (0 : ℚ) < den := by exact_mod_cast hden
  rw [leadingPower]
  split
  case isTrue hle =>
    obtain ⟨hlow, hhigh⟩ := length_bounds (Nat.div_pos hle hden)
    obtain ⟨k, hk⟩ := exists_length_eq (num / den)
    rw [hk, Nat.add_sub_cancel, Nat.le_div_iff_mul_le hden] at hlow
    rw [hk, Nat.div_lt_iff_lt_mul hden] at hhigh
    have hexponent : ((k + 1 : Nat) : Int) - 1 = k := by omega
    have hexponent' : ((k + 1 : Nat) : Int) - 1 + 1 = (k + 1 : Nat) := by omega
    rw [hk, hexponent', hexponent, zpow_natCast, zpow_natCast, le_div_iff₀ hden',
      div_lt_iff₀ hden']
    exact ⟨by exact_mod_cast hlow, by exact_mod_cast hhigh⟩
  case isFalse hlt =>
    obtain ⟨hlow, hhigh⟩ := length_bounds (Nat.div_pos (Nat.le_of_not_le hlt) hnum)
    obtain ⟨k, hk⟩ := exists_length_eq (den / num)
    rw [hk, Nat.add_sub_cancel, Nat.le_div_iff_mul_le hnum, Nat.mul_comm] at hlow
    rw [hk, Nat.div_lt_iff_lt_mul hnum, Nat.mul_comm] at hhigh
    simp only [hk, Nat.add_sub_cancel, Nat.pow_eq]
    split
    case isTrue hfits =>
      have hexponent : 1 - ((k + 1 : Nat) : Int) = -(k : Int) := by omega
      rw [hexponent]
      refine ⟨(neg_zpow_le_div_iff hden k).mpr hfits, ?_⟩
      have hle : (num : ℚ) / den ≤ 10 ^ (-(k : Int)) := by
        rw [zpow_neg, zpow_natCast, inv_eq_one_div, div_le_div_iff₀ hden' (by positivity), one_mul]
        exact_mod_cast hlow
      exact hle.trans_lt (zpow_lt_zpow_right₀ (by norm_num) (by omega))
    case isFalse hbelow =>
      have hexponent : -((k + 1 : Nat) : Int) + 1 = -(k : Int) := by omega
      rw [hexponent, neg_zpow_le_div_iff hden, ← not_le, neg_zpow_le_div_iff hden]
      exact ⟨hhigh.le, hbelow⟩

end Powers

section Candidates

variable {x : Real64} {num den n : Nat} {k : Int} {d : Decimal}

-- A positive finite number as a ratio.
structure Ratio (x : Real64) (num den : Nat) : Prop where
  finite : x.magnitude < infiniteMagnitude
  isNegative : x.isNegative = false
  num_pos : 0 < num
  den_pos : 0 < den
  value_eq : (num : ℚ) / den = valueOf x.magnitude

-- How many times a ratio holds a power of ten.
def multiples (num den : Nat) (k : Int) : Nat :=
  num * 10 ^ (-k).toNat / (den * 10 ^ k.toNat)

theorem multiples_bounds (num : Nat) (hden : 0 < den) (k : Int) :
    multiples num den k * (10 : ℚ) ^ k ≤ (num : ℚ) / den ∧
      (num : ℚ) / den < (multiples num den k + 1) * 10 ^ k := by
  have hden' : (0 : ℚ) < den := by exact_mod_cast hden
  have hunit : 0 < den * 10 ^ k.toNat := by positivity
  have hlow := Nat.div_mul_le_self (num * 10 ^ (-k).toNat) (den * 10 ^ k.toNat)
  have hhigh := Nat.lt_mul_of_div_lt (Nat.lt_succ_self (multiples num den k)) hunit
  rw [zpow_ten_eq_div, mul_div_assoc', mul_div_assoc', div_le_div_iff₀ (by positivity) hden',
    div_lt_div_iff₀ hden' (by positivity)]
  constructor
  · calc (multiples num den k : ℚ) * 10 ^ k.toNat * den
        = (multiples num den k * (den * 10 ^ k.toNat) : Nat) := by push_cast; ring
      _ ≤ (num * 10 ^ (-k).toNat : Nat) := by exact_mod_cast hlow
      _ = num * 10 ^ (-k).toNat := by push_cast; rfl
  · calc (num : ℚ) * 10 ^ (-k).toNat = (num * 10 ^ (-k).toNat : Nat) := by push_cast; rfl
      _ < ((multiples num den k + 1) * (den * 10 ^ k.toNat) : Nat) := by exact_mod_cast hhigh
      _ = (multiples num den k + 1) * 10 ^ k.toNat * den := by push_cast; ring

theorem candidate?_eq_some (h : candidate? x num den k = some d) :
    d.reads x = true ∧ d.exponent = k ∧
      (d.digits = multiples num den k ∨ d.digits = multiples num den k + 1) := by
  rw [candidate?] at h
  split at h
  case h_1 => cases h
  case h_2 hbelow _ =>
    cases h
    exact ⟨hbelow, rfl, .inl rfl⟩
  case h_3 _ habove =>
    cases h
    exact ⟨habove, rfl, .inr rfl⟩
  case h_4 hbelow habove =>
    split at h
    · cases h
      exact ⟨hbelow, rfl, .inl rfl⟩
    · cases h
      exact ⟨habove, rfl, .inr rfl⟩

theorem candidate?_eq_none (h : candidate? x num den k = none) :
    reads x ⟨multiples num den k, k⟩ = false ∧ reads x ⟨multiples num den k + 1, k⟩ = false := by
  rw [candidate?] at h
  split at h
  case h_1 hbelow habove => exact ⟨hbelow, habove⟩
  case h_2 => cases h
  case h_3 => cases h
  case h_4 => split at h <;> cases h

namespace Ratio

theorem candidate?_ne_none (h : Ratio x num den)
    (hnearest : Nearest (multiples num den k * 10 ^ k) x.magnitude ∨
      Nearest ((multiples num den k + 1) * 10 ^ k) x.magnitude) :
    candidate? x num den k ≠ none := by
  intro hnone
  obtain ⟨hbelow, habove⟩ := candidate?_eq_none hnone
  rcases hnearest with hnearest | hnearest
  · have hreads := (reads_iff h.finite ⟨multiples num den k, k⟩).mpr ⟨h.isNegative, hnearest⟩
    rw [hbelow] at hreads
    cases hreads
  · have hreads := (reads_iff h.finite ⟨multiples num den k + 1, k⟩).mpr
      ⟨h.isNegative, by simpa [value] using hnearest⟩
    rw [habove] at hreads
    cases hreads

theorem zpow_le (h : Ratio x num den) :
    (10 : ℚ) ^ leadingPower num den ≤ valueOf x.magnitude := by
  rw [← h.value_eq]
  exact (leadingPower_bounds h.num_pos h.den_pos).1

theorem lt_zpow (h : Ratio x num den) :
    valueOf x.magnitude < 10 ^ (leadingPower num den + 1) := by
  rw [← h.value_eq]
  exact (leadingPower_bounds h.num_pos h.den_pos).2

theorem multiples_le (h : Ratio x num den) (k : Int) :
    multiples num den k * 10 ^ k ≤ valueOf x.magnitude := by
  rw [← h.value_eq]
  exact (multiples_bounds num h.den_pos k).1

theorem lt_multiples (h : Ratio x num den) (k : Int) :
    valueOf x.magnitude < (multiples num den k + 1) * 10 ^ k := by
  rw [← h.value_eq]
  exact (multiples_bounds num h.den_pos k).2

end Ratio

theorem zpow_grid (top : Int) (n : Nat) : (10 : ℚ) ^ top = 10 ^ n * 10 ^ (top - n) := by
  rw [← zpow_natCast, ← zpow_add₀ (by norm_num)]
  congr 1
  omega

namespace Ratio

-- On the grid with `n` digits behind the first one, the neighbours have `n + 1` digits.
theorem multiples_range (h : Ratio x num den) (n : Nat) :
    10 ^ n ≤ multiples num den (leadingPower num den - n) ∧
      multiples num den (leadingPower num den - n) < 10 ^ (n + 1) := by
  have hunit : (0 : ℚ) < 10 ^ (leadingPower num den - n) := by positivity
  have hlow := h.zpow_le.trans_lt (h.lt_multiples (leadingPower num den - n))
  have hhigh := (h.multiples_le (leadingPower num den - n)).trans_lt h.lt_zpow
  rw [zpow_grid _ n] at hlow
  have hexponent : leadingPower num den + 1 - ((n + 1 : Nat) : Int) = leadingPower num den - n := by
    omega
  rw [zpow_grid (leadingPower num den + 1) (n + 1), hexponent] at hhigh
  have hlow' := lt_of_mul_lt_mul_right hlow hunit.le
  have hhigh' := lt_of_mul_lt_mul_right hhigh hunit.le
  exact ⟨Nat.le_of_lt_succ (by exact_mod_cast hlow'), by exact_mod_cast hhigh'⟩

-- As soon as a multiple of a power of ten is rounded to the number, so is the neighbour on its side.
theorem candidate?_of_multiple (h : Ratio x num den) {c : Nat}
    (hc : Nearest (c * 10 ^ k) x.magnitude) : candidate? x num den k ≠ none := by
  have hself := nearest_valueOf x.magnitude
  have hle := h.multiples_le k
  have hlt := h.lt_multiples k
  have hunit : (0 : ℚ) < 10 ^ k := by positivity
  refine h.candidate?_ne_none ?_
  rcases le_or_gt ((c : ℚ) * 10 ^ k) (valueOf x.magnitude) with hside | hside
  · left
    have hc' : (c : ℚ) < multiples num den k + 1 :=
      lt_of_mul_lt_mul_right (hside.trans_lt hlt) hunit.le
    have hc'' : c ≤ multiples num den k := Nat.le_of_lt_succ (by exact_mod_cast hc')
    refine hc.between hself ?_ hle
    gcongr
  · right
    have hc' : (multiples num den k : ℚ) < c :=
      lt_of_mul_lt_mul_right (hle.trans_lt hside) hunit.le
    have hc'' : (multiples num den k : ℚ) + 1 ≤ c := by exact_mod_cast hc'
    refine hself.between hc hlt.le ?_
    gcongr

-- As soon as a decimal with `n + 1` digits is rounded to the number, there is a candidate on the
-- grid of these digits.
theorem candidate?_of_nearest (h : Ratio x num den) (hd : Nearest d.value x.magnitude)
    (hdigits : d.digits < 10 ^ (n + 1)) :
    candidate? x num den (leadingPower num den - n) ≠ none := by
  have htop := h.zpow_le
  rw [zpow_grid _ n] at htop
  generalize leadingPower num den - n = k at htop ⊢
  by_cases hgrid : k ≤ d.exponent
  · -- the decimal is on the grid
    have hvalue : d.value = (d.digits * 10 ^ (d.exponent - k).toNat : Nat) * 10 ^ k := by
      rw [value, zpow_grid d.exponent (d.exponent - k).toNat]
      have hexponent : d.exponent - ((d.exponent - k).toNat : Int) = k := by omega
      rw [hexponent]
      push_cast
      ring
    rw [hvalue] at hd
    exact h.candidate?_of_multiple hd
  · -- the decimal is not above the leading power of ten, which is on the grid
    have hbelow : d.value ≤ 10 ^ n * 10 ^ k := by
      have hpow : (10 : ℚ) ^ d.exponent ≤ 10 ^ (k - 1) :=
        zpow_le_zpow_right₀ (by norm_num) (by omega)
      have hdigits' : (d.digits : ℚ) ≤ 10 ^ (n + 1) := by exact_mod_cast hdigits.le
      calc d.value ≤ 10 ^ (n + 1) * 10 ^ (k - 1) := by
            rw [value]
            gcongr
        _ = 10 ^ n * 10 ^ k := by
            rw [pow_succ, zpow_sub_one₀ (by norm_num)]
            ring
    have hpower := hd.between (nearest_valueOf x.magnitude) hbelow htop
    exact h.candidate?_of_multiple (c := 10 ^ n) (by exact_mod_cast hpower)

-- Seventeen digits always suffice.
theorem candidate?_seventeen (h : Ratio x num den) :
    candidate? x num den (leadingPower num den - (16 : Nat)) ≠ none := by
  have hle := h.multiples_le (leadingPower num den - (16 : Nat))
  have hlt := h.lt_multiples (leadingPower num den - (16 : Nat))
  have htop := h.zpow_le
  rw [zpow_grid _ 16] at htop
  generalize leadingPower num den - (16 : Nat) = k at hle hlt htop ⊢
  have hunit : (0 : ℚ) < 10 ^ k := by positivity
  -- the nearer neighbour is half a unit of the last digit away, a part of `2 ^ 54` of the number
  rcases le_total (2 * (valueOf x.magnitude - multiples num den k * 10 ^ k)) (10 ^ k)
    with hhalf | hhalf
  · refine h.candidate?_ne_none (.inl (nearest_of_abs_sub_lt ?_))
    rw [abs_sub_comm, abs_of_nonneg (by linarith)]
    linarith
  · refine h.candidate?_ne_none (.inr (nearest_of_abs_sub_lt ?_))
    rw [abs_of_nonneg (by linarith)]
    linarith

end Ratio

end Candidates

section Search

-- The digits of a decimal without the zeros at their end.
def significant (d : Decimal) : Text :=
  Text.withoutZeros (Text.ofNat d.digits)

-- A decimal that is rounded to a number and has as few digits as any that is. It reaches the
-- powers of ten that the number reaches.
structure Shortest (d : Decimal) (magnitude : Nat) : Prop where
  digits_pos : 0 < d.digits
  nearest : Nearest d.value magnitude
  fewest (other : Decimal) (h : Nearest other.value magnitude) :
    d.significant.length ≤ length other.digits
  zpow_le (k : Int) (h : 10 ^ k ≤ valueOf magnitude) : 10 ^ k ≤ d.value

theorem lt_length {c n : Nat} (h : 10 ^ n ≤ c) : n < length c := by
  have hpos : 0 < c := Nat.lt_of_lt_of_le (Nat.pow_pos (by decide)) h
  exact (Nat.pow_lt_pow_iff_right (by decide)).mp (h.trans_lt (length_bounds hpos).2)

theorem length_le {c n : Nat} (hpos : 0 < c) (h : c < 10 ^ n) : length c ≤ n := by
  have hlt := (Nat.pow_lt_pow_iff_right (by decide)).mp ((length_bounds hpos).1.trans_lt h)
  omega

theorem exists_first {α : Type} {f : Nat → Option α} (last : Nat) (h : f last ≠ none) :
    ∃ n a, (List.range (last + 1)).findSome? f = some a ∧ f n = some a ∧ ∀ j < n, f j = none := by
  obtain ⟨a, ha⟩ : ∃ a, (List.range (last + 1)).findSome? f = some a := by
    rw [← Option.ne_none_iff_exists']
    intro hnone
    exact h (List.findSome?_eq_none_iff.mp hnone last (by simp))
  obtain ⟨before, n, after, hsplit, hfound, hnone⟩ := List.findSome?_eq_some_iff.mp ha
  refine ⟨n, a, ha, hfound, fun j hj => hnone j ?_⟩
  have hn : n ∈ List.range (last + 1) := by simp [hsplit]
  have hmem : j ∈ before ++ n :: after := by
    rw [← hsplit]
    simp only [List.mem_range] at hn ⊢
    omega
  have hsorted : (before ++ n :: after).Pairwise (· < ·) := hsplit ▸ List.pairwise_lt_range
  rcases List.mem_append.mp hmem with hmem | hmem
  · exact hmem
  · rcases List.mem_cons.mp hmem with rfl | hmem
    · omega
    · have hlt := List.rel_of_pairwise_cons (List.pairwise_append.mp hsorted).2.1 hmem
      omega

variable {x : Real64} {num den n : Nat} {d : Decimal}

-- Where no grid before has a candidate, every decimal that is rounded to the number has a digit for
-- each of these grids and one more.
theorem Ratio.pow_le_digits (h : Ratio x num den)
    (hnone : ∀ j < n, candidate? x num den (leadingPower num den - j) = none)
    (hd : Nearest d.value x.magnitude) : 10 ^ n ≤ d.digits := by
  by_contra hlt
  rw [Nat.not_le] at hlt
  cases n with
  | zero =>
      -- only zero is rounded to zero
      have hzero : d.value = valueOf 0 := by
        rw [value, valueOf_zero, Nat.lt_one_iff.mp hlt, Nat.cast_zero, zero_mul]
      have hmagnitude := hd.unique (hzero ▸ nearest_valueOf 0)
      have hpos : (0 : ℚ) < 10 ^ leadingPower num den := by positivity
      have hle := h.zpow_le
      rw [hmagnitude, valueOf_zero] at hle
      exact absurd hpos (not_lt.mpr hle)
  | succ j => exact h.candidate?_of_nearest hd hlt (hnone j (Nat.lt_succ_self j))

theorem Ratio.shortest_of_first (h : Ratio x num den)
    (hfound : candidate? x num den (leadingPower num den - n) = some d)
    (hnone : ∀ j < n, candidate? x num den (leadingPower num den - j) = none) :
    Shortest d x.magnitude := by
  obtain ⟨hreads, hexponent, hdigits⟩ := candidate?_eq_some hfound
  have hnearest := ((reads_iff h.finite d).mp hreads).2
  have hrange := h.multiples_range n
  have hlow : 10 ^ n ≤ d.digits := by omega
  have hhigh : d.digits ≤ 10 ^ (n + 1) := by omega
  have hpos : 0 < d.digits := Nat.lt_of_lt_of_le (Nat.pow_pos (by decide)) hlow
  refine ⟨hpos, hnearest, fun other hother => ?_, fun k hk => ?_⟩
  · refine Nat.le_trans ?_ (lt_length (h.pow_le_digits hnone hother))
    rcases Nat.lt_or_eq_of_le hhigh with hlt | heq
    · exact (Text.length_withoutZeros_le _).trans (length_le hpos hlt)
    · -- the neighbour above is a power of ten, so the search ends on the first grid
      have hvalue : value ⟨1, leadingPower num den + 1⟩ = d.value := by
        rw [value, value, heq, hexponent]
        push_cast
        rw [zpow_grid (leadingPower num den + 1) (n + 1), one_mul]
        congr 2
        push_cast
        ring
      have hone : 10 ^ n ≤ 1 := h.pow_le_digits hnone (hvalue ▸ hnearest)
      obtain rfl : n = 0 := by
        by_contra hn
        exact absurd hone (Nat.not_le.mpr (Nat.one_lt_pow hn (by decide)))
      rw [significant, heq]
      decide +kernel
  · have hle : k ≤ leadingPower num den := by
      have hlt := (zpow_lt_zpow_iff_right₀ (by norm_num : (1 : ℚ) < 10)).mp (hk.trans_lt h.lt_zpow)
      omega
    calc (10 : ℚ) ^ k ≤ 10 ^ leadingPower num den := zpow_le_zpow_right₀ (by norm_num) hle
      _ = 10 ^ n * 10 ^ (leadingPower num den - n) := zpow_grid _ n
      _ ≤ d.digits * 10 ^ (leadingPower num den - n) := by
          gcongr
          exact_mod_cast hlow
      _ = d.value := by rw [value, hexponent]

-- The decimal that is found for a positive number is a shortest one.
theorem shortest_of_view {s : Bool} {m : Nat} {e : Int} (h : x.view = .finite s m e) (hm : 0 < m) :
    Shortest (shortest m e) x.magnitude := by
  obtain ⟨-, hfinite, hvalue⟩ := magnitude_of_view h
  have hmagnitude := magnitude_ofMagnitude false (magnitude_lt x)
  have hratio : (scaleNum m e : ℚ) / scaleDen e = valueOf x.magnitude := by
    rw [scaleNum_div_scaleDen, hvalue]
  have hscaled : ofScaled false m e = ofMagnitude false x.magnitude := by
    rw [ofScaled, ofRatio_eq_iff (by rwa [hmagnitude]) (scaleDen_pos e), hmagnitude, hratio]
    exact ⟨isNegative_ofMagnitude false (magnitude_lt x), nearest_valueOf _⟩
  have hpositive : Ratio (ofMagnitude false x.magnitude) (scaleNum m e) (scaleDen e) :=
    { finite := by rwa [hmagnitude]
      isNegative := isNegative_ofMagnitude false (magnitude_lt x)
      num_pos := Nat.mul_pos hm (Nat.pow_pos (by decide))
      den_pos := scaleDen_pos e
      value_eq := by rw [hmagnitude, hratio] }
  obtain ⟨n, d, hfound, hcandidate, hnone⟩ := exists_first 16
    (f := fun n : Nat => candidate? (ofMagnitude false x.magnitude) (scaleNum m e) (scaleDen e)
      (leadingPower (scaleNum m e) (scaleDen e) - n)) hpositive.candidate?_seventeen
  have hshortest : shortest m e = d := by
    simp only [shortest, hscaled]
    rw [maxDigits, hfound, Option.getD_some]
  rw [hshortest, ← hmagnitude]
  exact hpositive.shortest_of_first hcandidate hnone

end Search

section Power

variable {d : Decimal} {magnitude : Nat}

-- The power of ten of the first digit.
def power (d : Decimal) : Int := d.exponent + length d.digits - 1

theorem zpow_le_value_iff (h : 0 < d.digits) (k : Int) : 10 ^ k ≤ d.value ↔ k ≤ d.power := by
  obtain ⟨hlow, hhigh⟩ := length_bounds h
  obtain ⟨n, hn⟩ := exists_length_eq d.digits
  rw [hn, Nat.add_sub_cancel] at hlow
  rw [hn] at hhigh
  have hpower : d.power = n + d.exponent := by
    rw [power, hn]
    omega
  have hunit : (0 : ℚ) < 10 ^ d.exponent := by positivity
  constructor
  · intro hle
    have hlt : d.value < 10 ^ (d.power + 1) := by
      rw [zpow_grid (d.power + 1) (n + 1), value, hpower]
      have hexponent : (n : Int) + d.exponent + 1 - (n + 1 : Nat) = d.exponent := by omega
      rw [hexponent]
      gcongr
      exact_mod_cast hhigh
    have := (zpow_lt_zpow_iff_right₀ (by norm_num : (1 : ℚ) < 10)).mp (hle.trans_lt hlt)
    omega
  · intro hle
    calc (10 : ℚ) ^ k ≤ 10 ^ d.power := zpow_le_zpow_right₀ (by norm_num) hle
      _ = 10 ^ n * 10 ^ d.exponent := by
          rw [hpower, zpow_add₀ (by norm_num), zpow_natCast]
      _ ≤ d.value := by
          rw [value]
          gcongr
          exact_mod_cast hlow

-- Where a power of ten is not rounded down, a shortest decimal reaches it with its number.
theorem Shortest.le_power_iff (h : Shortest d magnitude) {k : Int} {bits : Nat}
    (hbits : Nearest (10 ^ k) bits) (hle : 10 ^ k ≤ valueOf bits) :
    k ≤ d.power ↔ 10 ^ k ≤ valueOf magnitude := by
  rw [← zpow_le_value_iff h.digits_pos]
  constructor
  · intro hreach
    exact hle.trans (valueOf_strictMono.monotone (hbits.mono h.nearest hreach))
  · exact h.zpow_le k

end Power

end Tuga.Decimal
