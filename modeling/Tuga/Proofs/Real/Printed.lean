import Tuga.Proofs.Real.Shortest
import Tuga.Real.Format

namespace Tuga.Real64

-- The minus sign, if there is one.
def sign (negative : Bool) : Text := if negative then [45] else []

-- An exponent as it is written: no plus sign and no zeros in front.
@[ext]
structure Exponent where
  negative : Bool
  digits : Text
  isDigits : Text.Digits digits
  leading : digits.head? ≠ some 48

namespace Exponent

def text (e : Exponent) : Text := sign e.negative ++ e.digits

def value (e : Exponent) : Int :=
  if e.negative then -(Text.toNat e.digits : Int) else Text.toNat e.digits

def ofInt (k : Int) (h : k ≠ 0) : Exponent where
  negative := k < 0
  digits := Text.ofNat k.natAbs
  isDigits := Text.digits_ofNat _
  leading := Text.head?_ofNat_ne (by omega)

theorem text_ofInt {k : Int} (h : k ≠ 0) : (ofInt k h).text = Text.ofInt k := by
  cases k with
  | ofNat n => simp [ofInt, text, sign, Text.ofInt]
  | negSucc n => simp [ofInt, text, sign, Text.ofInt, Int.negSucc_lt_zero]

theorem value_ofInt {k : Int} (h : k ≠ 0) : (ofInt k h).value = k := by
  simp only [ofInt, value, Text.toNat_ofNat, decide_eq_true_eq]
  split <;> omega

end Exponent

-- Digits before and behind a point, and an exponent or none. Before an exponent, one digit that is
-- not zero stands in front of the point.
@[ext]
structure Printed where
  whole : Text
  fraction : Text
  exponent : Option Exponent
  whole_digits : Text.Digits whole
  fraction_digits : Text.Digits fraction
  leading : exponent ≠ none → whole.length = 1 ∧ whole.head? ≠ some 48

section Pointed

variable {digits : Text} {point : Int}

-- The number that digits stand for if the point is behind the first `point` of them.
def pointed (digits : Text) (point : Int) : ℚ :=
  Text.toNat digits * 10 ^ (point - digits.length)

theorem pointed_append_zeros (n : Nat) :
    pointed (digits ++ List.replicate n 48) point = pointed digits point := by
  rw [pointed, pointed, Text.toNat_append, Text.toNat_replicate, List.length_append,
    List.length_replicate, Decimal.zpow_grid (point - digits.length) n]
  push_cast
  rw [sub_sub]
  ring

theorem pointed_zeros_append (n : Nat) :
    pointed (List.replicate n 48 ++ digits) point = pointed digits (point - n) := by
  rw [pointed, pointed, Text.toNat_append, Text.toNat_replicate, List.length_append,
    List.length_replicate, zero_mul, zero_add]
  push_cast
  rw [sub_sub]

theorem pointed_significant (d : Decimal) : pointed d.significant (d.power + 1) = d.value := by
  obtain ⟨zeros, hzeros⟩ := Text.exists_trailing_zeros (Text.ofNat d.digits)
  have hpoint : d.power + 1 - (Text.ofNat d.digits).length = d.exponent := by
    rw [Decimal.power, Decimal.length]
    omega
  rw [Decimal.significant, ← pointed_append_zeros zeros, ← hzeros, pointed, Text.toNat_ofNat,
    hpoint, Decimal.value]

end Pointed

namespace Printed

def exponentText : Option Exponent → Text
  | none => []
  | some e => 69 :: e.text

def exponentValue : Option Exponent → Int
  | none => 0
  | some e => e.value

def text (t : Printed) : Text :=
  t.whole ++ 46 :: (t.fraction ++ exponentText t.exponent)

def value (t : Printed) : ℚ :=
  pointed (t.whole ++ t.fraction) (t.whole.length + exponentValue t.exponent)

-- The digits without the zeros at both ends.
def significant (t : Printed) : Text := Text.trim (· = 48) (t.whole ++ t.fraction)

end Printed

section Injective

variable {s s' : Bool}

theorem sign_append_inj {text text' : Text} (h : text.head? ≠ some 45)
    (h' : text'.head? ≠ some 45) (happend : sign s ++ text = sign s' ++ text') :
    s = s' ∧ text = text' := by
  cases s with
  | false =>
      cases s' with
      | false => exact ⟨rfl, happend⟩
      | true => exact absurd (congrArg List.head? happend) h
  | true =>
      cases s' with
      | false => exact absurd (congrArg List.head? happend).symm h'
      | true => exact ⟨rfl, (List.cons.inj happend).2⟩

theorem head?_digits_ne {digits : Text} (h : Text.Digits digits) (tail : Text) :
    (digits ++ tail).head? ≠ some 45 := by
  rw [List.head?_append_of_ne_nil _ h.ne_nil]
  intro hhead
  have hrange := h.range 45 (List.mem_of_mem_head? hhead)
  exact absurd hrange.1 (by decide)

theorem Exponent.text_inj {e e' : Exponent} (h : e.text = e'.text) : e = e' := by
  have hdigits := head?_digits_ne e.isDigits []
  have hdigits' := head?_digits_ne e'.isDigits []
  rw [List.append_nil] at hdigits hdigits'
  obtain ⟨hnegative, hdigits⟩ := sign_append_inj hdigits hdigits' h
  exact Exponent.ext hnegative hdigits

namespace Printed

theorem exponentText_inj {e e' : Option Exponent} (h : exponentText e = exponentText e') :
    e = e' := by
  cases e with
  | none =>
      cases e' with
      | none => rfl
      | some e' => cases h
  | some e =>
      cases e' with
      | none => cases h
      | some e' => rw [Exponent.text_inj (List.cons.inj h).2]

theorem ends_exponentText (e : Option Exponent) : Text.Ends (exponentText e) := by
  cases e with
  | none => exact Text.ends_nil
  | some e => exact Text.ends_cons (by decide) _

-- The parts are seen from the text.
theorem text_inj {t t' : Printed} (h : sign s ++ t.text = sign s' ++ t'.text) :
    s = s' ∧ t = t' := by
  have hpoint : ∀ tail, Text.Ends (46 :: tail) := Text.ends_cons (by decide)
  obtain ⟨hsign, htext⟩ := sign_append_inj (head?_digits_ne t.whole_digits _)
    (head?_digits_ne t'.whole_digits _) h
  obtain ⟨hwhole, hrest⟩ := Text.digits_append_inj t.whole_digits.isDigitByte_of_mem
    t'.whole_digits.isDigitByte_of_mem (hpoint _) (hpoint _) htext
  obtain ⟨hfraction, hexponent⟩ := Text.digits_append_inj t.fraction_digits.isDigitByte_of_mem
    t'.fraction_digits.isDigitByte_of_mem (ends_exponentText _) (ends_exponentText _)
    (List.cons.inj hrest).2
  exact ⟨hsign, Printed.ext hwhole hfraction (exponentText_inj hexponent)⟩

end Printed

end Injective

section Shapes

variable {digits : Text} {power : Int} {t : Printed}

-- A text shows digits, the first of which stands for a power of ten, and else only zeros.
def Printed.Shows (t : Printed) (digits : Text) (power : Int) : Prop :=
  ∃ before after : Nat,
    t.whole ++ t.fraction = List.replicate before 48 ++ (digits ++ List.replicate after 48) ∧
      t.whole.length + exponentValue t.exponent - before = power + 1

theorem Printed.Shows.value_eq (h : t.Shows digits power) :
    t.value = pointed digits (power + 1) := by
  obtain ⟨before, after, hdigits, hpoint⟩ := h
  rw [Printed.value, hdigits, pointed_zeros_append, hpoint, pointed_append_zeros]

theorem Printed.Shows.length_significant_le (h : t.Shows digits power)
    (hdigits : Text.Digits digits) (hhead : digits.head? ≠ some 48) :
    t.significant.length ≤ digits.length := by
  obtain ⟨before, after, heq, -⟩ := h
  rw [Printed.significant, heq]
  exact Text.length_trim_zeros_le before after hdigits hhead

theorem exists_withPoint {whole fraction : Text} (exponent : Option Exponent)
    (hwhole : Text.Digits whole) (hfraction : ∀ b ∈ fraction, Text.isDigitByte b = true)
    (hleading : exponent ≠ none → whole.length = 1 ∧ whole.head? ≠ some 48) :
    ∃ t : Printed, t.text = withPoint whole fraction ++ Printed.exponentText exponent ∧
      t.whole = whole ∧ t.exponent = exponent ∧
      ∃ zeros, t.fraction = fraction ++ List.replicate zeros 48 := by
  cases fraction with
  | nil =>
      refine ⟨⟨whole, [48], exponent, hwhole, ⟨by simp, by decide⟩, hleading⟩, ?_, rfl, rfl, 1, rfl⟩
      simp [Printed.text, withPoint]
  | cons b rest =>
      refine ⟨⟨whole, b :: rest, exponent, hwhole, .of_forall (List.cons_ne_nil b rest) hfraction,
        hleading⟩, ?_, rfl, rfl, 0, by simp⟩
      simp [Printed.text, withPoint]

theorem exists_positional (h : Text.Digits digits) (power : Int) :
    ∃ t : Printed, t.text = positional digits power ∧ t.exponent = none ∧ t.Shows digits power := by
  have hleading : ∀ whole : Text, (none : Option Exponent) ≠ none →
      whole.length = 1 ∧ whole.head? ≠ some 48 := fun _ hne => absurd rfl hne
  rw [positional]
  split
  case isTrue hpower =>
    -- zeros stand between the point and the digits
    have hfraction : ∀ b ∈ List.replicate (-power - 1).toNat 48 ++ digits,
        Text.isDigitByte b = true := by
      intro b hb
      rcases List.mem_append.mp hb with hb | hb
      · exact Text.isDigitByte_of_mem_replicate b hb
      · exact h.isDigitByte_of_mem b hb
    obtain ⟨t, htext, hwhole, hexponent, zeros, hzeros⟩ :=
      exists_withPoint none ⟨List.cons_ne_nil 48 [], by decide⟩ hfraction (hleading _)
    refine ⟨t, by rw [htext, Printed.exponentText, List.append_nil], hexponent,
      (-power - 1).toNat + 1, zeros, ?_, ?_⟩
    · rw [hwhole, hzeros, List.replicate_succ, List.append_assoc]
      rfl
    · rw [hwhole, hexponent, Printed.exponentValue, List.length_singleton]
      omega
  case isFalse hpower =>
    -- the point stands among the digits or behind them, with zeros up to it
    have hwhole : Text.Digits (digits.take (power.toNat + 1) ++
        List.replicate (power.toNat + 1 - digits.length) 48) :=
      .append (.of_forall (by simp [h.ne_nil]) fun b hb =>
        h.isDigitByte_of_mem b (List.mem_of_mem_take hb)) Text.isDigitByte_of_mem_replicate
    have hfraction : ∀ b ∈ digits.drop (power.toNat + 1), Text.isDigitByte b = true :=
      fun b hb => h.isDigitByte_of_mem b (List.mem_of_mem_drop hb)
    obtain ⟨t, htext, hwhole, hexponent, zeros, hzeros⟩ :=
      exists_withPoint none hwhole hfraction (hleading _)
    refine ⟨t, by rw [htext, Printed.exponentText, List.append_nil], hexponent,
      0, power.toNat + 1 - digits.length + zeros, ?_, ?_⟩
    · rw [hwhole, hzeros, List.replicate_zero, List.nil_append, List.replicate_add]
      rcases Nat.le_total digits.length (power.toNat + 1) with hle | hle
      · simp [List.take_of_length_le hle, List.drop_of_length_le hle]
      · rw [Nat.sub_eq_zero_of_le hle, List.replicate_zero, List.append_nil, List.nil_append,
          ← List.append_assoc, List.take_append_drop]
    · rw [hwhole, hexponent, Printed.exponentValue, List.length_append, List.length_take,
        List.length_replicate]
      omega

theorem exists_scientific (h : Text.Digits digits) (hhead : digits.head? ≠ some 48)
    (hpower : power ≠ 0) :
    ∃ t : Printed, t.text = scientific digits power ∧ t.exponent ≠ none ∧
      t.Shows digits power := by
  obtain ⟨b, rest, rfl⟩ := List.exists_cons_of_ne_nil h.ne_nil
  have hdigits := List.forall_mem_cons.mp h.isDigitByte_of_mem
  have hwhole : Text.Digits [b] := .of_forall (List.cons_ne_nil b []) (by simpa using hdigits.1)
  obtain ⟨t, htext, hwhole, hexponent, zeros, hzeros⟩ := exists_withPoint
    (some (Exponent.ofInt power hpower)) hwhole hdigits.2 fun _ => ⟨rfl, hhead⟩
  refine ⟨t, ?_, by simp [hexponent], 0, zeros, ?_, ?_⟩
  · rw [htext, Printed.exponentText, Exponent.text_ofInt]
    rfl
  · rw [hwhole, hzeros]
    rfl
  · rw [hwhole, hexponent, Printed.exponentValue, Exponent.value_ofInt, List.length_singleton]
    omega

theorem exists_formatDecimal {d : Decimal} (h : 0 < d.digits) :
    ∃ t : Printed, t.text = formatDecimal d ∧
      (t.exponent = none ↔ -3 ≤ d.power ∧ d.power < 7) ∧ t.Shows d.significant d.power := by
  obtain ⟨hdigits, hhead⟩ := Text.withoutZeros_ofNat h
  have hformat : formatDecimal d = if leastPositional ≤ d.power && d.power ≤ greatestPositional then
      positional d.significant d.power else scientific d.significant d.power := rfl
  have hrange : (leastPositional ≤ d.power && d.power ≤ greatestPositional) = true ↔
      -3 ≤ d.power ∧ d.power < 7 := by
    have hleast : leastPositional = -3 := rfl
    have hgreatest : greatestPositional = 6 := rfl
    rw [Bool.and_eq_true, decide_eq_true_eq, decide_eq_true_eq]
    omega
  rw [hformat]
  split
  case isTrue hinside =>
    obtain ⟨t, htext, hexponent, hshows⟩ := exists_positional hdigits d.power
    exact ⟨t, htext, iff_of_true hexponent (hrange.mp hinside), hshows⟩
  case isFalse houtside =>
    have hpower : d.power ≠ 0 := by
      rw [hrange] at houtside
      omega
    obtain ⟨t, htext, hexponent, hshows⟩ := exists_scientific hdigits hhead hpower
    exact ⟨t, htext, iff_of_false hexponent (mt hrange.mpr houtside), hshows⟩

end Shapes

section Format

variable {x : Real64}

-- One thousandth is rounded up.
theorem exists_nearest_thousandth :
    ∃ bits, Nearest (10 ^ (-3 : Int)) bits ∧ (10 : ℚ) ^ (-3 : Int) ≤ valueOf bits := by
  refine ⟨(⟨0x3F50624DD2F1A9FC⟩ : Real64).magnitude, ?_, ?_⟩
  · have hreads := (Decimal.reads_iff (x := ⟨0x3F50624DD2F1A9FC⟩) (by decide) ⟨1, -3⟩).mp
      (by decide +kernel)
    simpa [Decimal.value] using hreads.2
  · have hmagnitude : (⟨0x3F50624DD2F1A9FC⟩ : Real64).magnitude = 0x3F50624DD2F1A9FC := by decide
    rw [hmagnitude]
    norm_num [valueOf]

theorem exists_nearest_ten_million :
    ∃ bits, Nearest (10 ^ (7 : Int)) bits ∧ (10 : ℚ) ^ (7 : Int) ≤ valueOf bits := by
  have hvalue : valueOf 0x416312D000000000 = 10 ^ (7 : Int) := by norm_num [valueOf]
  exact ⟨0x416312D000000000, hvalue ▸ nearest_valueOf _, hvalue.ge⟩

-- What the text of a number says about it.
structure Prints (x : Real64) (t : Printed) : Prop where
  text : x.format = sign x.isNegative ++ t.text
  -- no exponent is written for zero and from one thousandth up to ten million
  exponent : t.exponent = none ↔
    x.magnitude = 0 ∨ (1 / 1000 ≤ valueOf x.magnitude ∧ valueOf x.magnitude < 10000000)
  -- what is written is rounded to the number again
  nearest : Nearest t.value x.magnitude
  -- no decimal that is rounded to the number has fewer digits
  fewest (other : Decimal) (h : Nearest other.value x.magnitude) :
    t.significant.length ≤ Decimal.length other.digits

theorem format_of_view {s : Bool} {m : Nat} {e : Int} (h : x.view = .finite s m e) :
    x.format = sign s ++
      if m = 0 then ("0.0" : Text) else formatDecimal (Decimal.shortest m e) := by
  rw [format, h]
  cases s <;> rfl

theorem exists_prints_zero {e : Int} (h : x.view = .finite x.isNegative 0 e) :
    ∃ t, Prints x t := by
  obtain ⟨-, -, hvalue⟩ := magnitude_of_view h
  rw [Nat.cast_zero, zero_mul, ← valueOf_zero] at hvalue
  have hmagnitude := valueOf_strictMono.injective hvalue
  have hzero : Text.Digits [48] := ⟨List.cons_ne_nil 48 [], by decide⟩
  refine ⟨⟨[48], [48], none, hzero, hzero, fun hne => absurd rfl hne⟩, ?_, ?_, ?_, ?_⟩
  · rw [format_of_view h, if_pos rfl]
    rfl
  · exact iff_of_true rfl (.inl hmagnitude)
  · have hvalue : Printed.value ⟨[48], [48], none, hzero, hzero, fun hne => absurd rfl hne⟩ =
        valueOf 0 := by
      simp [Printed.value, pointed, Text.toNat, valueOf_zero]
    rw [hvalue, hmagnitude]
    exact nearest_valueOf 0
  · intro other _
    exact Nat.zero_le _

theorem exists_prints_pos {m : Nat} {e : Int} (h : x.view = .finite x.isNegative m e)
    (hm : 0 < m) : ∃ t, Prints x t := by
  have hshortest := Decimal.shortest_of_view h hm
  obtain ⟨hdigits, hhead⟩ := Text.withoutZeros_ofNat hshortest.digits_pos
  obtain ⟨t, htext, hexponent, hshows⟩ := exists_formatDecimal hshortest.digits_pos
  obtain ⟨low, hlow, hlow'⟩ := exists_nearest_thousandth
  obtain ⟨high, hhigh, hhigh'⟩ := exists_nearest_ten_million
  obtain ⟨-, -, hvalue⟩ := magnitude_of_view h
  refine ⟨t, ?_, ?_, ?_, ?_⟩
  · rw [format_of_view h, if_neg hm.ne', htext]
  · have hmagnitude : x.magnitude ≠ 0 := by
      intro hzero
      rw [hzero, valueOf_zero] at hvalue
      have hpos : (0 : ℚ) < m * 2 ^ e := by positivity
      exact hpos.ne hvalue
    rw [hexponent, hshortest.le_power_iff hlow hlow', ← not_le,
      hshortest.le_power_iff hhigh hhigh', not_le, or_iff_right hmagnitude]
    norm_num
  · rw [hshows.value_eq, pointed_significant]
    exact hshortest.nearest
  · intro other hother
    exact (hshows.length_significant_le hdigits hhead).trans (hshortest.fewest other hother)

theorem exists_prints (hx : x.magnitude < infiniteMagnitude) : ∃ t, Prints x t := by
  obtain ⟨m, e, hview⟩ := exists_view hx
  rcases Nat.eq_zero_or_pos m with rfl | hm
  · exact exists_prints_zero hview
  · exact exists_prints_pos hview hm

-- A finite number is printed in one of the two shapes, and what is written is rounded to the number
-- again. So no other finite number is printed the same.
theorem format_round_trips (hx : x.magnitude < infiniteMagnitude) :
    (∃ t, Prints x t) ∧
      ∀ y : Real64, y.magnitude < infiniteMagnitude → y.format = x.format → y = x := by
  refine ⟨exists_prints hx, fun y hy hformat => ?_⟩
  obtain ⟨t, ht⟩ := exists_prints hx
  obtain ⟨u, hu⟩ := exists_prints hy
  rw [ht.text, hu.text] at hformat
  obtain ⟨hsign, rfl⟩ := Printed.text_inj hformat
  exact eq_of_magnitude_eq hsign (hu.nearest.unique ht.nearest)

-- The sum of one tenth and two tenths, which needs all seventeen digits.
theorem format_round_trips_three_tenths :
    (⟨0x3FD3333333333334⟩ : Real64).format = "0.30000000000000004" ∧
      (∃ t, Prints ⟨0x3FD3333333333334⟩ t) ∧
      ∀ y : Real64, y.magnitude < infiniteMagnitude → y.format = "0.30000000000000004" →
        y = ⟨0x3FD3333333333334⟩ := by
  have htext : (⟨0x3FD3333333333334⟩ : Real64).format = "0.30000000000000004" := by decide +kernel
  have h := format_round_trips (x := ⟨0x3FD3333333333334⟩) (by decide)
  rw [htext] at h
  exact ⟨htext, h⟩

end Format

end Tuga.Real64
