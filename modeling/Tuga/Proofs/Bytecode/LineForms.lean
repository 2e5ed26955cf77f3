import Mathlib.Data.List.Forall2
import Tuga.Proofs.Bytecode.Lines
import Tuga.Proofs.Text.Digits

namespace Tuga

open Text

theorem Operation.ofName?_eq_some_iff {word : Text} {op : Operation} :
    ofName? word = some op ↔ word = op.name := by
  constructor
  · intro h
    simpa [eq_comm] using List.find?_some h
  · rintro rfl
    exact op.ofName?_name

namespace Instruction

-- A decimal numeral, possibly with a sign, and its value.
inductive Numeral : Text → Int → Prop where
  | unsigned {digits : Text} (h : Digits digits) : Numeral digits (toNat digits)
  | plus {digits : Text} (h : Digits digits) : Numeral (43 :: digits) (toNat digits)
  | minus {digits : Text} (h : Digits digits) : Numeral (45 :: digits) (-(toNat digits : Int))

-- The instruction that a line shows, and what follows its operand.
inductive Shows (line : Text) : Instruction → Text → Prop where
  | operation {op : Operation} (h : op.hasOperand = false) (hwords : line.words = [op.name]) :
      Shows line ⟨op.code, 0⟩ []
  | load {op : Operation} {numeral tail : Text} {arg : Int32} (h : op.hasOperand = true)
      (hwords : line.words = [op.name, numeral ++ tail]) (hnumeral : Numeral numeral arg.toInt)
      (htail : Ends tail) : Shows line ⟨op.code, arg⟩ tail

-- The lines that are not blank.
def filled (lines : List Text) : List Text := lines.filter (·.words ≠ [])

-- The second word of a line, if it has two, is a numeral and nothing else.
def Whole (line : Text) : Prop :=
  ∀ mnemonic word, line.words = [mnemonic, word] → ∃ n, Numeral word n

section Operand

variable {sign digits tail word : Text} {arg : Int32}

-- The value of digits after a sign, if there is one.
def signed (sign digits : Text) : Int :=
  if sign = [45] then -(toNat digits : Int) else toNat digits

theorem numeral_iff {n : Int} :
    Numeral word n ↔ ∃ sign digits, word = sign ++ digits ∧ n = signed sign digits ∧
      Digits digits ∧ (sign = [] ∨ ∃ b, isSign b = true ∧ sign = [b]) := by
  constructor
  · intro h
    cases h with
    | unsigned h => exact ⟨[], word, rfl, rfl, h, .inl rfl⟩
    | @plus digits h => exact ⟨[43], digits, rfl, rfl, h, .inr ⟨43, rfl, rfl⟩⟩
    | @minus digits h => exact ⟨[45], digits, rfl, rfl, h, .inr ⟨45, rfl, rfl⟩⟩
  · rintro ⟨sign, digits, rfl, rfl, h, rfl | ⟨b, hb, rfl⟩⟩
    · exact .unsigned h
    · simp only [isSign, Bool.or_eq_true, decide_eq_true_eq] at hb
      rcases hb with rfl | rfl
      · exact .plus h
      · exact .minus h

-- The operand is read from the digits after a sign, whatever follows them.
theorem operand?_append (hdigits : Digits digits)
    (hsign : sign = [] ∨ ∃ b, isSign b = true ∧ sign = [b]) (htail : Ends tail) :
    operand? (sign ++ digits ++ tail) =
      if signed sign digits < -0x8000000000000000 || 0x8000000000000000 ≤ signed sign digits then
        .error (.outOfRange (sign ++ digits))
      else if signed sign digits < -0x80000000 || 0x80000000 ≤ signed sign digits then
        .error (.overflow (sign ++ digits))
      else .ok (Int32.ofInt (signed sign digits)) := by
  have htake := takeWhile_append_tail hdigits.isDigitByte_of_mem htail
  obtain ⟨d, ds, rfl⟩ := List.exists_cons_of_ne_nil hdigits.ne_nil
  have hd : isSign d = false := isSign_eq_false (hdigits.isDigitByte_of_mem d List.mem_cons_self)
  rcases hsign with rfl | ⟨b, hb, rfl⟩
  · simp only [List.cons_append] at htake
    simp [operand?, signed, hd, htake]
  · simp only [List.cons_append] at htake
    simp [operand?, signed, hb, htake]

theorem forall_mem_takeWhile (text : Text) :
    ∀ b ∈ text.takeWhile isDigitByte, isDigitByte b = true :=
  fun _ hb => List.mem_takeWhile_imp hb

theorem exists_parts (word : Text) :
    ∃ sign digits tail, word = sign ++ digits ++ tail ∧
      (sign = [] ∨ ∃ b, isSign b = true ∧ sign = [b]) ∧
      (∀ b ∈ digits, isDigitByte b = true) ∧ Ends tail ∧
      (digits = [] → ∀ arg, operand? word ≠ .ok arg) := by
  by_cases hsign : word.head?.any isSign = true
  · obtain ⟨b, rest, rfl, hb⟩ : ∃ b rest, word = b :: rest ∧ isSign b = true := by
      cases word with
      | nil => simp at hsign
      | cons b rest => exact ⟨b, rest, rfl, by simpa using hsign⟩
    refine ⟨[b], rest.takeWhile isDigitByte, rest.dropWhile isDigitByte, ?_, .inr ⟨b, hb, rfl⟩,
      forall_mem_takeWhile rest, ends_dropWhile rest, fun hnone arg => ?_⟩
    · rw [List.append_assoc, List.takeWhile_append_dropWhile]
      rfl
    · simp [operand?, hb, hnone]
  · refine ⟨[], word.takeWhile isDigitByte, word.dropWhile isDigitByte, ?_, .inl rfl,
      forall_mem_takeWhile word, ends_dropWhile word, fun hnone arg => ?_⟩
    · rw [List.nil_append, List.takeWhile_append_dropWhile]
    · simp [operand?, hsign, hnone]

-- An operand is a word that starts with a numeral of 32 bits.
theorem operand?_eq_ok_iff :
    operand? word = .ok arg ↔
      ∃ numeral tail, word = numeral ++ tail ∧ Numeral numeral arg.toInt ∧ Ends tail := by
  have hlow := arg.le_toInt
  have hhigh := arg.toInt_lt
  constructor
  · intro h
    obtain ⟨sign, digits, tail, rfl, hsign, hdigits, htail, hnone⟩ := exists_parts word
    have hdigits : Digits digits := .of_forall (fun hnil => hnone hnil arg h) hdigits
    refine ⟨sign ++ digits, tail, rfl, ?_, htail⟩
    rw [operand?_append hdigits hsign htail] at h
    split at h
    case isTrue => cases h
    case isFalse =>
      split at h
      case isTrue => cases h
      case isFalse hrange =>
        simp only [Bool.or_eq_true, decide_eq_true_eq, not_or, not_lt, not_le] at hrange
        cases h
        rw [Int32.toInt_ofInt_of_le hrange.1 hrange.2]
        exact numeral_iff.mpr ⟨sign, digits, rfl, rfl, hdigits, hsign⟩
  · rintro ⟨numeral, tail, rfl, hnumeral, htail⟩
    obtain ⟨sign, digits, rfl, hvalue, hdigits, hsign⟩ := numeral_iff.mp hnumeral
    rw [operand?_append hdigits hsign htail, ← hvalue, if_neg (by simp; omega),
      if_neg (by simp; omega), Int32.ofInt_toInt]

theorem Numeral.ne_nil {n : Int} (h : Numeral word n) : word ≠ [] := by
  cases h with
  | unsigned h => exact h.ne_nil
  | plus => exact List.cons_ne_nil _ _
  | minus => exact List.cons_ne_nil _ _

theorem Numeral.isDigitByte_of_mem_tail {n : Int} (h : Numeral word n) :
    ∀ b ∈ word.tail, isDigitByte b = true := by
  cases h with
  | unsigned h => exact fun b hb => h.isDigitByte_of_mem b (List.mem_of_mem_tail hb)
  | plus h => exact h.isDigitByte_of_mem
  | minus h => exact h.isDigitByte_of_mem

-- Only digits make a numeral longer.
theorem Numeral.eq_nil_of_append {numeral : Text} {m n : Int} (h : Numeral numeral m)
    (htail : Ends tail) (happend : Numeral (numeral ++ tail) n) : tail = [] := by
  cases tail with
  | nil => rfl
  | cons b tail =>
      have hdigits := happend.isDigitByte_of_mem_tail
      rw [List.tail_append_of_ne_nil h.ne_nil] at hdigits
      have hb := hdigits b (List.mem_append_right _ List.mem_cons_self)
      rw [htail b rfl] at hb
      cases hb

end Operand

section Lines

variable {line : Text} {lines : List Text} {i : Instruction} {code : List Instruction}

-- A line is read as an instruction exactly if it shows it.
theorem ofLine_eq_some_iff : ofLine line = .ok (some i) ↔ ∃ tail, Shows line i tail := by
  constructor
  · intro h
    rw [ofLine] at h
    split at h
    case h_1 => cases h
    case h_2 mnemonic operands hwords =>
      split at h
      case h_1 => cases h
      case h_2 op hop =>
        obtain rfl := Operation.ofName?_eq_some_iff.mp hop
        split at h
        case isTrue hoperand =>
          split at h
          case h_1 word =>
            split at h
            case h_1 arg harg =>
              cases h
              obtain ⟨numeral, tail, rfl, hnumeral, htail⟩ := operand?_eq_ok_iff.mp harg
              exact ⟨tail, .load hoperand hwords hnumeral htail⟩
            case h_2 => cases h
          case h_2 => cases h
        case isFalse hoperand =>
          split at h
          case isTrue hempty =>
            cases h
            rw [List.isEmpty_iff.mp hempty] at hwords
            exact ⟨[], .operation (by simpa using hoperand) hwords⟩
          case isFalse => cases h
  · rintro ⟨tail, hshows⟩
    cases hshows with
    | @operation op hoperand hwords =>
        simp only [ofLine, hwords, op.ofName?_name, hoperand, Bool.false_eq_true, if_false,
          List.isEmpty_nil, if_true]
        rfl
    | @load op numeral tail arg hoperand hwords hnumeral htail =>
        have harg : operand? (numeral ++ tail) = .ok arg :=
          operand?_eq_ok_iff.mpr ⟨numeral, tail, rfl, hnumeral, htail⟩
        simp only [ofLine, hwords, op.ofName?_name, hoperand, if_true, harg]

theorem ofLine_eq_none_iff : ofLine line = .ok none ↔ line.words = [] := by
  constructor
  · intro h
    rw [ofLine] at h
    split at h
    case h_1 hwords => exact hwords
    case h_2 =>
      split at h
      case h_1 => cases h
      case h_2 =>
        split at h
        case isTrue =>
          split at h
          case h_1 => split at h <;> cases h
          case h_2 => cases h
        case isFalse => split at h <;> cases h
  · intro h
    simp only [ofLine, h]

theorem filled_cons_of_blank (h : line.words = []) : filled (line :: lines) = filled lines := by
  simp [filled, h]

theorem filled_cons (h : line.words ≠ []) : filled (line :: lines) = line :: filled lines := by
  simp [filled, h]

theorem ofLinesFrom_eq_ok_iff {start : Nat} :
    ofLinesFrom start lines = .ok code ↔
      List.Forall₂ (fun line i => ∃ tail, Shows line i tail) (filled lines) code := by
  induction lines generalizing start code with
  | nil =>
      rw [show filled [] = [] from rfl, List.forall₂_nil_left_iff, ofLinesFrom]
      exact ⟨fun h => (Except.ok.inj h).symm, fun h => congrArg Except.ok h.symm⟩
  | cons line lines ih =>
      rw [ofLinesFrom]
      cases hline : ofLine line with
      | ok found =>
          cases found with
          | none =>
              rw [filled_cons_of_blank (ofLine_eq_none_iff.mp hline)]
              exact ih
          | some i =>
              have hfilled : line.words ≠ [] := mt ofLine_eq_none_iff.mpr (by simp [hline])
              rw [filled_cons hfilled, List.forall₂_cons_left_iff]
              dsimp only
              rw [map_eq_ok]
              constructor
              · rintro ⟨code, hcode, rfl⟩
                exact ⟨i, code, ofLine_eq_some_iff.mp hline, ih.mp hcode, rfl⟩
              · rintro ⟨j, code, hshows, hcode, rfl⟩
                rw [ofLine_eq_some_iff.mpr hshows] at hline
                cases hline
                exact ⟨code, ih.mpr hcode, rfl⟩
      | error cause =>
          have hfilled : line.words ≠ [] := mt ofLine_eq_none_iff.mpr (by simp [hline])
          rw [filled_cons hfilled, List.forall₂_cons_left_iff]
          simp only [reduceCtorEq, false_iff]
          rintro ⟨i, code, hshows, -, -⟩
          rw [ofLine_eq_some_iff.mpr hshows] at hline
          cases hline

-- The second word of a line that shows an instruction is a numeral, and nothing else exactly if
-- nothing follows the operand.
theorem Shows.whole_iff {tail : Text} (h : Shows line i tail) : Whole line ↔ tail = [] := by
  cases h with
  | operation _ hwords => simp [Whole, hwords]
  | @load op numeral tail arg _ hwords hnumeral htail =>
      constructor
      · intro hwhole
        obtain ⟨n, hword⟩ := hwhole _ _ hwords
        exact hnumeral.eq_nil_of_append htail hword
      · rintro rfl mnemonic word hwords'
        rw [hwords, List.append_nil] at hwords'
        cases hwords'
        exact ⟨_, hnumeral⟩

theorem shows_alone_iff : Shows line i [] ↔ Whole line ∧ ∃ tail, Shows line i tail := by
  constructor
  · intro h
    exact ⟨h.whole_iff.mpr rfl, [], h⟩
  · rintro ⟨hwhole, tail, h⟩
    obtain rfl := h.whole_iff.mp hwhole
    exact h

-- Lines are read exactly if each of them that is not blank shows an instruction, whatever follows
-- its operand. Lines that show instructions and nothing else are those that are read and have only
-- numerals as operands.
theorem ofLines_reads_shown (lines : List Text) (code : List Instruction) :
    (ofLines lines = .ok code ↔
      List.Forall₂ (fun line i => ∃ tail, Shows line i tail) (filled lines) code) ∧
    (List.Forall₂ (fun line i => Shows line i []) (filled lines) code ↔
      (∀ line ∈ filled lines, Whole line) ∧ ofLines lines = .ok code) := by
  have hreads : ofLines lines = .ok code ↔
      List.Forall₂ (fun line i => ∃ tail, Shows line i tail) (filled lines) code :=
    ofLinesFrom_eq_ok_iff
  refine ⟨hreads, ?_⟩
  simp only [hreads, shows_alone_iff, List.forall₂_and_left]

-- Letters behind a number are ignored: the line is read, but its operand is no numeral.
theorem ofLines_letters_ignored :
    let line : Text := "iconst 12abc"
    ofLines [line] = .ok [⟨Operation.iconst.code, 12⟩] ∧
      ¬∃ code, List.Forall₂ (fun line i => Shows line i []) (filled [line]) code := by
  intro line
  have hwords : line.words = [ofString "iconst", ofString "12abc"] := by decide +kernel
  refine ⟨by decide +kernel, ?_⟩
  rintro ⟨code, hcode⟩
  rw [filled_cons (by simp [hwords]), List.forall₂_cons_left_iff] at hcode
  obtain ⟨i, -, hshows, -⟩ := hcode
  obtain ⟨n, hnumeral⟩ := hshows.whole_iff.mpr rfl _ _ hwords
  exact absurd (hnumeral.isDigitByte_of_mem_tail 97 (by decide +kernel)) (by decide)

end Lines

end Instruction

end Tuga
