import Tuga.Proofs.Text.Utf8
import Tuga.Text.Words

namespace Tuga.Text

section Decimal

theorem toNat_append_digit (digits : Text) (b : UInt8) :
    toNat (digits ++ [b]) = toNat digits * 10 + (b.toNat - 48) := by
  simp [toNat]

theorem toNat_digit {n : Nat} (h : n < 10) : (digit n).toNat = 48 + n := by
  rw [digit, if_pos h, UInt8.toNat_ofNat']
  omega

theorem isDigitByte_digit {n : Nat} (h : n < 10) : isDigitByte (digit n) = true := by
  have hvalue := toNat_digit h
  simp only [isDigitByte, UInt8.le_iff_toNat_le, hvalue, Bool.and_eq_true, decide_eq_true_eq]
  exact ⟨Nat.le_add_right 48 n, by change 48 + n ≤ 57; omega⟩

theorem toNat_ofNat (n : Nat) : toNat (ofNat n) = n := by
  induction n using ofNat.induct with
  | case1 n h =>
      rw [ofNat, if_pos h]
      simp [toNat, toNat_digit h]
  | case2 n h ih =>
      have hlast := toNat_digit (Nat.mod_lt n (show 0 < 10 by decide))
      rw [ofNat, if_neg h, toNat_append_digit, ih, hlast]
      omega

theorem isDigitByte_of_mem_ofNat {n : Nat} {b : UInt8} (hb : b ∈ ofNat n) :
    isDigitByte b = true := by
  induction n using ofNat.induct with
  | case1 n h =>
      rw [ofNat, if_pos h, List.mem_singleton] at hb
      rw [hb, isDigitByte_digit h]
  | case2 n h ih =>
      rw [ofNat, if_neg h, List.mem_append, List.mem_singleton] at hb
      rcases hb with hb | rfl
      · exact ih hb
      · exact isDigitByte_digit (Nat.mod_lt n (by decide))

theorem ofNat_ne_nil (n : Nat) : ofNat n ≠ [] := by
  rw [ofNat]
  split <;> simp

theorem length_ofNat_le (n : Nat) : (ofNat n).length ≤ n + 1 := by
  induction n using ofNat.induct with
  | case1 n h => simp [ofNat, h]
  | case2 n h ih =>
      rw [ofNat, if_neg h, List.length_append, List.length_singleton]
      omega

end Decimal

section Words

-- Whether a byte is a character that can be seen: neither a blank nor a part of a longer one.
def isVisible (b : UInt8) : Bool := 33 ≤ b && b ≤ 126

theorem isVisible_iff (b : UInt8) : isVisible b = true ↔ 33 ≤ b.toNat ∧ b.toNat ≤ 126 := by
  simp [isVisible, UInt8.le_iff_toNat_le]

theorem isVisible_of_isDigitByte {b : UInt8} (h : isDigitByte b = true) : isVisible b = true := by
  simp only [isDigitByte, UInt8.le_iff_toNat_le, Bool.and_eq_true, decide_eq_true_eq] at h
  rw [isVisible_iff]
  change 48 ≤ b.toNat ∧ b.toNat ≤ 57 at h
  omega

theorem isBlank_eq_false {code : Nat} (hlow : 33 ≤ code) (hhigh : code ≤ 126) :
    isBlank code = false := by
  simp only [isBlank, blankRanges, CodeRange.contains, List.any_cons, List.any_nil]
  simp
  omega

theorem characters_ascii_cons {b : UInt8} (hb : b.toNat < 0x80) (rest : Text) :
    characters (b :: rest) = ⟨b.toNat, [b]⟩ :: characters rest := by
  have hleading : Character.leading b rest = ⟨b.toNat, [b]⟩ := by
    unfold Character.leading
    rw [if_pos (UInt8.lt_iff_toNat_lt.mpr hb)]
  rw [characters_cons, hleading]
  rfl

theorem isUtf8_of_ascii {text : Text} (h : ∀ b ∈ text, b.toNat < 0x80) : text.isUtf8 = true := by
  induction text with
  | nil => rfl
  | cons b text ih =>
      rw [List.forall_mem_cons] at h
      have hb : b < 0x80 := UInt8.lt_iff_toNat_lt.mpr h.1
      rw [isUtf8, characters_ascii_cons h.1, List.all_cons, ← isUtf8, ih h.2]
      simpa [Character.isWellFormed] using hb

theorem wordsFrom_visible {text : Text} (h : ∀ b ∈ text, isVisible b = true) (word rest : Text) :
    wordsFrom word (characters (text ++ rest)) = wordsFrom (word ++ text) (characters rest) := by
  induction text generalizing word with
  | nil => simp
  | cons b text ih =>
      obtain ⟨hlow, hhigh⟩ := (isVisible_iff b).mp (h b List.mem_cons_self)
      rw [List.cons_append, characters_ascii_cons (by omega), wordsFrom,
        isBlank_eq_false hlow hhigh]
      simpa using ih (fun c hc => h c (List.mem_cons_of_mem b hc)) (word ++ [b])

theorem words_visible {text : Text} (h : ∀ b ∈ text, isVisible b = true) (hne : text ≠ []) :
    text.words = [text] := by
  have hwords := wordsFrom_visible h [] []
  rw [List.append_nil, List.nil_append] at hwords
  rw [words, hwords]
  simp [characters, charactersAfter, wordsFrom, hne]

theorem words_blank_between {first second : Text} (hfirst : ∀ b ∈ first, isVisible b = true)
    (hsecond : ∀ b ∈ second, isVisible b = true) (hne : first ≠ []) (hne' : second ≠ []) :
    words (first ++ 32 :: second) = [first, second] := by
  have hblank : isBlank (32 : UInt8).toNat = true := by decide
  have hrest := words_visible hsecond hne'
  rw [words] at hrest
  rw [words, wordsFrom_visible hfirst, characters_ascii_cons (by decide), wordsFrom, hblank]
  simp [hne, hrest]

end Words

end Tuga.Text
