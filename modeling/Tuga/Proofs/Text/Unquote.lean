import Tuga.Bytecode.Basic
import Tuga.Proofs.Text.Utf16

namespace Tuga.Text

open Character

-- A list between two marks.
def Quoted {α : Type} (mark : α) (l : List α) : Prop :=
  2 ≤ l.length ∧ l.head? = some mark ∧ l.getLast? = some mark

theorem quoted_iff {α : Type} (mark : α) (l : List α) :
    Quoted mark l ↔ ∃ inner, l = mark :: (inner ++ [mark]) := by
  constructor
  · rintro ⟨hlength, hhead, hlast⟩
    obtain ⟨rest, rfl⟩ := List.head?_eq_some_iff.mp hhead
    cases rest with
    | nil => simp at hlength
    | cons b rest =>
        rw [List.getLast?_cons_cons] at hlast
        obtain ⟨inner, hinner⟩ := List.getLast?_eq_some_iff.mp hlast
        exact ⟨inner, by rw [hinner]⟩
  · rintro ⟨inner, rfl⟩
    refine ⟨by simp, rfl, ?_⟩
    rw [← List.cons_append, List.getLast?_append]
    rfl

theorem unquote_of_quoted (inner : Text) : unquote (34 :: (inner ++ [34])) = inner := by
  obtain ⟨hlength, hhead, hlast⟩ := (quoted_iff 34 _).mpr ⟨inner, rfl⟩
  rw [unquote, if_pos (by simp [hhead, hlast])]
  simp

theorem unquote_of_not_quoted {text : Text} (h : ¬Quoted 34 text) : unquote text = text := by
  rw [unquote, if_neg]
  simpa only [Quoted, Bool.and_eq_true, decide_eq_true_eq, and_assoc] using h

-- Every byte of a code point above U+007F is above 0x7F, so no quote hides in one.
theorem head?_encode (code : Nat) : (encode code).head? = some 34 ↔ code = 34 := by
  unfold encode
  split
  · simp [← UInt8.toNat_inj]
    omega
  split
  · simp [← UInt8.toNat_inj]
    omega
  split
  · rename_i h
    simp only [Bool.or_eq_true, Bool.and_eq_true, decide_eq_true_eq] at h
    simp
    omega
  · rename_i h
    simp only [Bool.or_eq_true, Bool.and_eq_true, decide_eq_true_eq] at h
    split <;> simp [← UInt8.toNat_inj] <;> omega

theorem getLast?_encode (code : Nat) : (encode code).getLast? = some 34 ↔ code = 34 := by
  unfold encode
  repeat' split
  all_goals
    simp [← UInt8.toNat_inj]
    omega

private theorem encode_ne_nil (code : Nat) : encode code ≠ [] := by
  unfold encode
  repeat' split
  all_goals simp

theorem head?_ofCodes (codes : List Nat) :
    (ofCodes codes).head? = some 34 ↔ codes.head? = some 34 := by
  cases codes with
  | nil => simp [ofCodes]
  | cons code codes =>
      rw [ofCodes, List.flatMap_cons, List.head?_append_of_ne_nil _ (encode_ne_nil code),
        head?_encode]
      simp

theorem getLast?_ofCodes (codes : List Nat) :
    (ofCodes codes).getLast? = some 34 ↔ codes.getLast? = some 34 := by
  rcases List.eq_nil_or_concat' codes with rfl | ⟨codes, code, rfl⟩
  · simp [ofCodes]
  · rw [ofCodes, List.flatMap_append, List.flatMap_singleton,
      List.getLast?_append_of_ne_nil _ (encode_ne_nil code), getLast?_encode]
    simp

-- Being quoted is the same for a text and for its code points.
theorem quoted_ofCodes_iff (codes : List Nat) :
    Quoted (34 : UInt8) (ofCodes codes) ↔ Quoted 34 codes := by
  constructor
  · rintro ⟨hlength, hhead, hlast⟩
    rw [head?_ofCodes] at hhead
    rw [getLast?_ofCodes] at hlast
    refine ⟨?_, hhead, hlast⟩
    obtain ⟨rest, rfl⟩ := List.head?_eq_some_iff.mp hhead
    cases rest with
    | nil => simp [ofCodes, encode] at hlength
    | cons _ _ => simp
  · intro h
    obtain ⟨inner, rfl⟩ := (quoted_iff 34 codes).mp h
    refine (quoted_iff 34 _).mpr ⟨ofCodes inner, ?_⟩
    simp [ofCodes, encode]

private theorem lone_eq_quote_iff (u : UInt16) :
    (if isHighSurrogate u || isLowSurrogate u then replacement else u.toNat) = 34 ↔ u = 34 := by
  split
  · rename_i h
    constructor
    · simp [replacement]
    · rintro rfl
      exact absurd h (by decide)
  · rw [← UInt16.toNat_inj]
    rfl

theorem head?_codesOfUtf16 (units : List UInt16) :
    (codesOfUtf16 units).head? = some 34 ↔ units.head? = some 34 := by
  fun_cases codesOfUtf16 units with
  | case1 => simp
  | case2 u => simpa only [List.head?_cons, Option.some.injEq] using lone_eq_quote_iff u
  | case3 u v rest h =>
      simp only [List.head?_cons, Option.some.injEq]
      constructor
      · intro hcode
        omega
      · rintro rfl
        exact absurd (Bool.and_eq_true_iff.mp h).1 (by decide)
  | case4 u v rest h => simpa only [List.head?_cons, Option.some.injEq] using lone_eq_quote_iff u

private theorem codesOfUtf16_eq_nil_iff (units : List UInt16) :
    codesOfUtf16 units = [] ↔ units = [] := by
  fun_cases codesOfUtf16 units <;> simp

theorem getLast?_codesOfUtf16 (units : List UInt16) :
    (codesOfUtf16 units).getLast? = some 34 ↔ units.getLast? = some 34 := by
  fun_induction codesOfUtf16 units with
  | case1 => simp
  | case2 u => simpa using lone_eq_quote_iff u
  | case3 u v rest h ih =>
      cases rest with
      | nil =>
          simp only [codesOfUtf16, List.getLast?_singleton, List.getLast?_cons_cons,
            Option.some.injEq]
          constructor
          · intro hcode
            omega
          · rintro rfl
            exact absurd (Bool.and_eq_true_iff.mp h).2 (by decide)
      | cons w rest =>
          rw [List.getLast?_cons_cons, List.getLast?_cons_cons, ← ih]
          obtain ⟨code, codes, hcodes⟩ :=
            List.exists_cons_of_ne_nil (mt (codesOfUtf16_eq_nil_iff (w :: rest)).mp (by simp))
          rw [hcodes, List.getLast?_cons_cons]
  | case4 u v rest h ih =>
      rw [List.getLast?_cons_cons, ← ih]
      obtain ⟨code, codes, hcodes⟩ :=
        List.exists_cons_of_ne_nil (mt (codesOfUtf16_eq_nil_iff (v :: rest)).mp (by simp))
      rw [hcodes, List.getLast?_cons_cons]

theorem quoted_codesOfUtf16_iff (units : List UInt16) :
    Quoted 34 (codesOfUtf16 units) ↔ Quoted 34 units := by
  simp only [Quoted, head?_codesOfUtf16, getLast?_codesOfUtf16]
  refine and_congr_left fun h => ?_
  obtain ⟨rest, rfl⟩ := List.head?_eq_some_iff.mp h.1
  rw [codesOfUtf16_plain (by decide) (by decide)]
  cases rest with
  | nil => simp [codesOfUtf16]
  | cons v rest =>
      obtain ⟨code, codes, hcodes⟩ :=
        List.exists_cons_of_ne_nil (mt (codesOfUtf16_eq_nil_iff (v :: rest)).mp (by simp))
      simp [hcodes]

-- A decoded text is left alone by unquoting, or loses two code points.
theorem unquote_ofUtf16_cases (units : List UInt16) :
    (¬Quoted 34 units ∧ (ofUtf16 units).unquote = ofUtf16 units) ∨
      Quoted 34 units ∧ ∃ inner, codesOfUtf16 units = 34 :: (inner ++ [34]) ∧
        (ofUtf16 units).unquote = ofCodes inner := by
  by_cases h : Quoted 34 units
  · right
    obtain ⟨inner, hinner⟩ := (quoted_iff 34 _).mp ((quoted_codesOfUtf16_iff units).mpr h)
    refine ⟨h, inner, hinner, ?_⟩
    have hbytes : ofUtf16 units = 34 :: (ofCodes inner ++ [34]) := by
      simp [ofUtf16, hinner, ofCodes, encode]
    rw [hbytes, unquote_of_quoted]
  · left
    refine ⟨h, unquote_of_not_quoted ?_⟩
    rwa [ofUtf16, quoted_ofCodes_iff, quoted_codesOfUtf16_iff]

theorem exists_unquote_ofUtf16 (units : List UInt16) :
    ∃ codes, (∀ code ∈ codes, IsScalar code) ∧ (ofUtf16 units).unquote = ofCodes codes ∧
      (codes.flatMap unitsOf).length ≤ units.length := by
  have hlength := length_flatMap_unitsOf units
  rcases unquote_ofUtf16_cases units with ⟨-, h⟩ | ⟨-, inner, hinner, h⟩
  · exact ⟨codesOfUtf16 units, isScalar_of_mem_codesOfUtf16 units, h, by omega⟩
  · refine ⟨inner, ?_, h, ?_⟩
    · intro code hc
      apply isScalar_of_mem_codesOfUtf16 units
      simp [hinner, hc]
    · rw [hinner] at hlength
      simp only [List.flatMap_cons, List.flatMap_append, List.length_append] at hlength
      omega

-- Code units survive being read, unquoted and written exactly if they are paired and not quoted.
theorem utf16_unquote_ofUtf16_iff (units : List UInt16) :
    (ofUtf16 units).unquote.utf16 = units ↔ Paired units ∧ ¬Quoted 34 units := by
  rcases unquote_ofUtf16_cases units with ⟨hnot, h⟩ | ⟨hquoted, inner, hinner, h⟩
  · rw [h, ofUtf16, utf16_ofCodes (isScalar_of_mem_codesOfUtf16 units),
      flatMap_unitsOf_codesOfUtf16_iff]
    exact (and_iff_left hnot).symm
  · refine iff_of_false ?_ fun hc => hc.2 hquoted
    intro heq
    have hscalar : ∀ code ∈ inner, IsScalar code := by
      intro code hc
      apply isScalar_of_mem_codesOfUtf16 units
      simp [hinner, hc]
    have hlength := length_flatMap_unitsOf units
    rw [h, utf16_ofCodes hscalar] at heq
    rw [hinner] at hlength
    simp only [List.flatMap_cons, List.flatMap_append, List.length_append, heq] at hlength
    simp [unitsOf] at hlength
    omega

end Tuga.Text
