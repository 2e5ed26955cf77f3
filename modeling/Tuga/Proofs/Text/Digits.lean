import Mathlib.Data.List.TakeWhile
import Mathlib.Tactic.Ring
import Tuga.Proofs.Text.Words

namespace Tuga.Text

theorem isDigitByte_iff (b : UInt8) : isDigitByte b = true ↔ 48 ≤ b.toNat ∧ b.toNat ≤ 57 := by
  simp [isDigitByte, UInt8.le_iff_toNat_le]

-- One digit at least, and nothing else.
structure Digits (text : Text) : Prop where
  ne_nil : text ≠ []
  digits : text.all isDigitByte = true

theorem Digits.range {text : Text} (h : Digits text) :
    ∀ b ∈ text, 48 ≤ b.toNat ∧ b.toNat ≤ 57 := by
  intro b hb
  exact (isDigitByte_iff b).mp (List.all_eq_true.mp h.digits b hb)

theorem Digits.zero_notMem {text : Text} (h : Digits text) : 0 ∉ text := by
  intro hmem
  have hrange := h.range 0 hmem
  simp at hrange

namespace Digits

variable {text other : Text}

theorem isDigitByte_of_mem (h : Digits text) : ∀ b ∈ text, isDigitByte b = true :=
  List.all_eq_true.mp h.digits

theorem of_forall (hne : text ≠ []) (h : ∀ b ∈ text, isDigitByte b = true) : Digits text :=
  ⟨hne, List.all_eq_true.mpr h⟩

theorem append (h : Digits text) (hother : ∀ b ∈ other, isDigitByte b = true) :
    Digits (text ++ other) := by
  refine of_forall (List.append_ne_nil_of_left_ne_nil h.ne_nil other) fun b hb => ?_
  rcases List.mem_append.mp hb with hb | hb
  · exact h.isDigitByte_of_mem b hb
  · exact hother b hb

end Digits

theorem isDigitByte_of_mem_replicate {n : Nat} :
    ∀ b ∈ List.replicate n 48, isDigitByte b = true := by
  intro b hb
  rw [List.eq_of_mem_replicate hb]
  rfl

theorem digits_ofNat (n : Nat) : Digits (ofNat n) :=
  .of_forall (ofNat_ne_nil n) fun _ => isDigitByte_of_mem_ofNat

section Runs

variable {digits digits' tail tail' : Text}

-- A run of digits does not go on in what follows it.
def Ends (tail : Text) : Prop := ∀ b, tail.head? = some b → isDigitByte b = false

theorem ends_nil : Ends [] := by
  simp [Ends]

theorem ends_cons {b : UInt8} (h : isDigitByte b = false) (tail : Text) : Ends (b :: tail) := by
  simpa [Ends] using h

theorem ends_dropWhile (text : Text) : Ends (text.dropWhile isDigitByte) := by
  intro b hb
  have h := List.head?_dropWhile_not isDigitByte text
  rwa [hb] at h

theorem takeWhile_append_tail (h : ∀ b ∈ digits, isDigitByte b = true) (htail : Ends tail) :
    (digits ++ tail).takeWhile isDigitByte = digits := by
  rw [List.takeWhile_append_of_pos h]
  cases tail with
  | nil => simp
  | cons b tail => simp [htail b rfl]

-- Where a run of digits ends is seen from the text.
theorem digits_append_inj (h : ∀ b ∈ digits, isDigitByte b = true)
    (h' : ∀ b ∈ digits', isDigitByte b = true) (htail : Ends tail) (htail' : Ends tail')
    (happend : digits ++ tail = digits' ++ tail') : digits = digits' ∧ tail = tail' := by
  have hdigits : digits = digits' := by
    rw [← takeWhile_append_tail h htail, happend, takeWhile_append_tail h' htail']
  subst hdigits
  exact ⟨rfl, List.append_cancel_left happend⟩

end Runs

section Values

theorem foldl_toNat (acc : Nat) (digits : Text) :
    digits.foldl (fun n b => n * 10 + (b.toNat - 48)) acc =
      acc * 10 ^ digits.length + toNat digits := by
  unfold toNat
  induction digits generalizing acc with
  | nil => simp
  | cons b digits ih =>
      rw [List.foldl_cons, ih, List.foldl_cons, ih (0 * 10 + (b.toNat - 48)), List.length_cons]
      ring

theorem toNat_append (digits more : Text) :
    toNat (digits ++ more) = toNat digits * 10 ^ more.length + toNat more := by
  rw [toNat, List.foldl_append, foldl_toNat]
  rfl

theorem toNat_cons (b : UInt8) (digits : Text) :
    toNat (b :: digits) = (b.toNat - 48) * 10 ^ digits.length + toNat digits := by
  rw [toNat, List.foldl_cons, foldl_toNat]
  simp

theorem toNat_replicate (n : Nat) : toNat (List.replicate n 48) = 0 := by
  induction n with
  | zero => rfl
  | succ n ih =>
      rw [List.replicate_succ, toNat_cons, ih]
      simp

end Values

section Lengths

theorem head?_ofNat_ne {n : Nat} (h : 0 < n) : (ofNat n).head? ≠ some 48 := by
  induction n using ofNat.induct with
  | case1 n hlt =>
      rw [ofNat, if_pos hlt, List.head?_cons, ne_eq, Option.some.injEq, ← UInt8.toNat_inj,
        toNat_digit hlt]
      change ¬48 + n = 48
      omega
  | case2 n hlt ih =>
      rw [ofNat, if_neg hlt, List.head?_append_of_ne_nil _ (ofNat_ne_nil _)]
      exact ih (by omega)

theorem toNat_lt_pow {digits : Text} (h : ∀ b ∈ digits, isDigitByte b = true) :
    toNat digits < 10 ^ digits.length := by
  induction digits with
  | nil => decide
  | cons b digits ih =>
      rw [List.forall_mem_cons] at h
      have hb := (isDigitByte_iff b).mp h.1
      have hmul : (b.toNat - 48) * 10 ^ digits.length ≤ 9 * 10 ^ digits.length :=
        Nat.mul_le_mul_right _ (by omega)
      have hrest := ih h.2
      rw [toNat_cons, List.length_cons, Nat.pow_succ]
      omega

-- Digits without a leading zero stand for a number of the power of ten of the first one.
theorem Digits.pow_le_toNat {digits : Text} (h : Digits digits) (hhead : digits.head? ≠ some 48) :
    10 ^ (digits.length - 1) ≤ toNat digits := by
  obtain ⟨b, rest, rfl⟩ := List.exists_cons_of_ne_nil h.ne_nil
  have hb := h.range b List.mem_cons_self
  have hne : b.toNat ≠ 48 := fun heq => hhead (congrArg some (UInt8.toNat_inj.mp heq))
  have hmul : 1 * 10 ^ rest.length ≤ (b.toNat - 48) * 10 ^ rest.length :=
    Nat.mul_le_mul_right _ (by omega)
  rw [toNat_cons, List.length_cons, Nat.add_sub_cancel]
  omega

theorem ofNat_bounds {n : Nat} (h : 0 < n) :
    10 ^ ((ofNat n).length - 1) ≤ n ∧ n < 10 ^ (ofNat n).length := by
  have hlow := (digits_ofNat n).pow_le_toNat (head?_ofNat_ne h)
  have hhigh := toNat_lt_pow (digits_ofNat n).isDigitByte_of_mem
  rw [toNat_ofNat] at hlow hhigh
  exact ⟨hlow, hhigh⟩

end Lengths

section TrailingZeros

-- A text without the zeros at its end.
def withoutZeros (text : Text) : Text := (text.reverse.dropWhile (· = 48)).reverse

theorem length_withoutZeros_le (text : Text) : (withoutZeros text).length ≤ text.length := by
  simpa [withoutZeros] using List.length_dropWhile_le (· = 48) text.reverse

theorem exists_trailing_zeros (text : Text) :
    ∃ zeros, text = withoutZeros text ++ List.replicate zeros 48 := by
  refine ⟨(text.reverse.takeWhile (· = 48)).length, ?_⟩
  have hzeros : text.reverse.takeWhile (· = 48) =
      List.replicate (text.reverse.takeWhile (· = 48)).length 48 :=
    List.eq_replicate_of_mem fun b hb => by simpa using List.mem_takeWhile_imp hb
  rw [withoutZeros, ← List.reverse_replicate, ← hzeros, ← List.reverse_append,
    List.takeWhile_append_dropWhile, List.reverse_reverse]

-- The digits of a positive number without the zeros at its end: some are left, and the first one
-- is the same.
theorem withoutZeros_ofNat {n : Nat} (h : 0 < n) :
    Digits (withoutZeros (ofNat n)) ∧ (withoutZeros (ofNat n)).head? ≠ some 48 := by
  obtain ⟨zeros, hzeros⟩ := exists_trailing_zeros (ofNat n)
  have hne : withoutZeros (ofNat n) ≠ [] := by
    intro hnil
    have hvalue := congrArg toNat hzeros
    rw [hnil, List.nil_append, toNat_replicate, toNat_ofNat] at hvalue
    omega
  refine ⟨.of_forall hne fun b hb => ?_, ?_⟩
  · have hmem : b ∈ ofNat n := by
      rw [hzeros]
      exact List.mem_append_left _ hb
    exact isDigitByte_of_mem_ofNat hmem
  · have hhead := head?_ofNat_ne h
    rwa [hzeros, List.head?_append_of_ne_nil _ hne] at hhead

theorem length_trim_zeros_le {digits : Text} (before after : Nat) (h : Digits digits)
    (hhead : digits.head? ≠ some 48) :
    (trim (· = 48) (List.replicate before 48 ++ (digits ++ List.replicate after 48))).length ≤
      digits.length := by
  have hzeros : ∀ n, ∀ b ∈ List.replicate n (48 : UInt8), decide (b = 48) = true :=
    fun n b hb => by simp [List.eq_of_mem_replicate hb]
  obtain ⟨b, rest, rfl⟩ := List.exists_cons_of_ne_nil h.ne_nil
  have hb : decide (b = 48) = false := by simpa using hhead
  rw [trim, List.dropWhile_append_of_pos (hzeros before), List.cons_append,
    List.dropWhile_cons_of_neg (by simp [hb]), ← List.cons_append, List.reverse_append,
    List.reverse_replicate, List.dropWhile_append_of_pos (hzeros after), List.length_reverse]
  simpa using List.length_dropWhile_le (fun b => decide (b = 48)) (b :: rest).reverse

end TrailingZeros

end Tuga.Text
