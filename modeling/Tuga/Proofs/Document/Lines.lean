import Mathlib.Data.List.DropRight
import Tuga.Document.Position
import Tuga.Proofs.Text.Boundary
import Tuga.Proofs.Text.Words

namespace Tuga

namespace Text

theorem length_splitOn (b : UInt8) (text : Text) :
    (text.splitOn b).length = text.count b + 1 := by
  induction text with
  | nil => rw [List.splitOn_nil, List.length_singleton, List.count_nil]
  | cons a text ih =>
      rw [List.splitOn_cons_eq_if_modifyHead, List.count_cons]
      split
      · rw [List.length_cons, ih]
      · rw [List.length_modifyHead, ih, Nat.add_zero]

-- A line of a document, between what stands before it and behind it.
structure Line (document front line rest : Text) : Prop where
  eq : document = front ++ (line ++ rest)
  first : front = [] ∨ front.getLast? = some 10
  plain : 10 ∉ line
  last : rest = [] ∨ rest.head? = some 10

namespace Line

variable {document front line rest : Text}

theorem splitOn_eq (h : Line document front line rest) :
    ∃ earlier later, document.splitOn 10 = earlier ++ line :: later ∧
      earlier.length = front.count 10 ∧ earlier.flatMap (fun line => line ++ [10]) = front := by
  obtain ⟨rfl, hfirst, hplain, hlast⟩ := h
  induction hcount : front.count 10 generalizing front with
  | zero =>
      have hnone : 10 ∉ front := List.count_eq_zero.mp hcount
      have hfront : front = [] := by
        rcases hfirst with hnil | hfeed
        · exact hnil
        · exact absurd (List.mem_of_getLast? hfeed) hnone
      subst hfront
      rcases hlast with rfl | hfeed
      · rw [List.nil_append, List.append_nil]
        exact ⟨[], [], List.splitOn_eq_singleton hplain, rfl, rfl⟩
      · obtain ⟨rest, rfl⟩ := List.head?_eq_some_iff.mp hfeed
        exact ⟨[], rest.splitOn 10, List.splitOn_append_cons_self_of_not_mem hplain rest, rfl, rfl⟩
  | succ n ih =>
      have hmem : 10 ∈ front := List.count_pos_iff.mp (by omega)
      obtain ⟨piece, front, rfl, hpiece⟩ := List.eq_append_cons_of_mem hmem
      rw [List.count_append, List.count_eq_zero.mpr hpiece, List.count_cons_self] at hcount
      have hfirst' : front = [] ∨ front.getLast? = some 10 := by
        rcases hfirst with hnil | hfeed
        · simp at hnil
        · cases front with
          | nil => exact .inl rfl
          | cons b front => exact .inr (by simpa using hfeed)
      obtain ⟨earlier, later, hsplit, hlength, hjoin⟩ := ih hfirst' (by omega)
      refine ⟨piece :: earlier, later, ?_, ?_, ?_⟩
      · rw [List.append_assoc, List.cons_append, List.splitOn_append_cons_self_of_not_mem hpiece,
          hsplit, List.cons_append]
      · rw [List.length_cons, hlength]
      · rw [List.flatMap_cons, hjoin, List.append_assoc, List.singleton_append]

-- A line is read on its own as it is in the document.
theorem characters_eq (h : Line document front line rest) :
    document.characters = front.characters ++ (line.characters ++ rest.characters) := by
  obtain ⟨rfl, hfirst, -, hlast⟩ := h
  have hrest : (line ++ rest).characters = line.characters ++ rest.characters := by
    refine characters_append line fun b hb => ?_
    rcases hlast with rfl | hfeed
    · cases hb
    · rw [Option.some.inj (hb.symm.trans hfeed)]
      rfl
  rcases hfirst with rfl | hfeed
  · exact hrest
  · -- the line feed at the end of what stands before belongs to no other character
    obtain ⟨front, rfl⟩ := List.getLast?_eq_some_iff.mp hfeed
    have hcut (text : Text) : characters ((front ++ [10]) ++ text) =
        characters front ++ (⟨10, [10]⟩ :: characters text) := by
      have hnext : ∀ b ∈ (10 :: text).head?, Character.isContinuation b = false := by
        rintro b ⟨⟩
        rfl
      rw [List.append_assoc, List.singleton_append, characters_append front hnext,
        characters_ascii_cons (by decide)]
      rfl
    have hfront := hcut []
    rw [List.append_nil] at hfront
    rw [hcut, hfront, hrest, List.append_assoc]
    rfl

theorem notMem_ofCharacters (h : Line document front line rest) {cs more : List Character}
    (hcs : line.characters = cs ++ more) : 10 ∉ ofCharacters cs := by
  intro hmem
  have hline := eq_of_characters_eq hcs
  exact h.plain (hline ▸ List.mem_append_left _ hmem)

end Line

theorem lastLine_append {front piece : Text} (hfirst : front = [] ∨ front.getLast? = some 10)
    (hplain : 10 ∉ piece) : lastLine (front ++ piece) = piece := by
  have hpiece : ∀ b ∈ piece.reverse, decide (b ≠ 10) = true := by
    intro b hb
    rw [decide_eq_true_eq]
    rintro rfl
    exact hplain (List.mem_reverse.mp hb)
  have hfront : front.reverse.takeWhile (· ≠ 10) = [] := by
    rcases hfirst with rfl | hfeed
    · rfl
    · obtain ⟨front, rfl⟩ := List.getLast?_eq_some_iff.mp hfeed
      simp
  rw [lastLine, List.reverse_append, List.takeWhile_append_of_pos hpiece, hfront, List.append_nil,
    List.reverse_reverse]

theorem exists_first_line (document : Text) : ∃ line rest, Line document [] line rest := by
  refine ⟨document.takeWhile (· ≠ 10), document.dropWhile (· ≠ 10),
    List.takeWhile_append_dropWhile.symm, .inl rfl, fun hmem => ?_, ?_⟩
  · simpa using List.mem_takeWhile_imp hmem
  · have hhead := List.head?_dropWhile_not (· ≠ 10) document
    cases hrest : document.dropWhile (· ≠ 10) with
    | nil => exact .inl rfl
    | cons b rest =>
        rw [hrest] at hhead
        exact .inr (congrArg some (by simpa using hhead))

theorem exists_line {document : Text} {n : Nat} (h : n ≤ document.count 10) :
    ∃ front line rest, Line document front line rest ∧ front.count 10 = n := by
  induction n generalizing document with
  | zero =>
      obtain ⟨line, rest, hline⟩ := exists_first_line document
      exact ⟨[], line, rest, hline, rfl⟩
  | succ n ih =>
      obtain ⟨piece, rest, rfl, -, hpiece, hlast⟩ := exists_first_line document
      rw [List.nil_append, List.count_append, List.count_eq_zero.mpr hpiece] at h
      rcases hlast with rfl | hfeed
      · simp at h
      obtain ⟨document, rfl⟩ := List.head?_eq_some_iff.mp hfeed
      rw [List.count_cons_self] at h
      have hle : n ≤ document.count 10 := by omega
      obtain ⟨front, line, rest, ⟨rfl, hfirst, hplain, hlast⟩, hcount⟩ := ih hle
      refine ⟨piece ++ 10 :: front, line, rest, ⟨by simp, .inr ?_, hplain, hlast⟩, ?_⟩
      · rcases hfirst with rfl | hfeed
        · simp
        · simp [List.getLast?_cons, hfeed]
      · rw [List.count_append, List.count_eq_zero.mpr hpiece, List.count_cons_self, hcount]
        omega

section Units

def unitCount (cs : List Character) : Nat :=
  (cs.flatMap fun c => unitsOf c.code).length

variable (c : Character) (cs more : List Character)

@[simp] theorem unitCount_cons : unitCount (c :: cs) = (unitsOf c.code).length + unitCount cs := by
  simp [unitCount]

@[simp] theorem unitCount_append : unitCount (cs ++ more) = unitCount cs + unitCount more := by
  simp [unitCount]

theorem length_unitsOf_pos : 0 < (unitsOf c.code).length := by
  unfold unitsOf
  split <;> simp

theorem unitCount_pos {cs : List Character} (h : cs ≠ []) : 0 < unitCount cs := by
  obtain ⟨c, cs, rfl⟩ := List.exists_cons_of_ne_nil h
  have hpos := length_unitsOf_pos c
  rw [unitCount_cons]
  omega

-- UTF-16 takes no more units for a character than UTF-8 takes bytes.
theorem length_unitsOf_le {text : Text} {c : Character} (hc : c ∈ text.characters) :
    (unitsOf c.code).length ≤ c.bytes.length := by
  by_cases hone : c.code < 0x10000
  · rw [unitsOf, if_pos hone]
    exact List.length_pos_iff.mpr (faithful_of_mem hc).bytes_ne_nil
  · rcases mem_characters hc with ⟨a, rfl, -⟩ | ⟨-, -, hbytes⟩
    · exact absurd (show Character.replacement < 0x10000 by decide) hone
    · rw [unitsOf, if_neg hone, ← hbytes, Character.encode, if_neg (by omega), if_neg (by omega)]
      split
      · simp
      · simp

theorem unitCount_le_length {cs : List Character}
    (hcs : ∀ c ∈ cs, (unitsOf c.code).length ≤ c.bytes.length) :
    unitCount cs ≤ (ofCharacters cs).length := by
  induction cs with
  | nil => exact Nat.le_refl 0
  | cons c cs ih =>
      rw [List.forall_mem_cons] at hcs
      have hrest := ih hcs.2
      rw [unitCount_cons, ofCharacters, List.flatMap_cons, List.length_append]
      exact Nat.add_le_add hcs.1 hrest

theorem length_utf16 (text : Text) : text.utf16.length = unitCount text.characters := by
  rw [utf16, codes, List.flatMap_map]
  rfl

theorem isPrefix_charactersWithin (units : Nat) : charactersWithin units cs <+: cs := by
  induction cs generalizing units with
  | nil => exact List.nil_prefix
  | cons c cs ih =>
      rw [charactersWithin]
      split
      · exact (List.cons_prefix_cons).mpr ⟨rfl, ih _⟩
      · exact List.nil_prefix

theorem unitCount_charactersWithin_le (units : Nat) :
    unitCount (charactersWithin units cs) ≤ units := by
  induction cs generalizing units with
  | nil => exact Nat.zero_le units
  | cons c cs ih =>
      rw [charactersWithin]
      split
      · have hrest := ih (units - (unitsOf c.code).length)
        rw [unitCount_cons]
        omega
      · exact Nat.zero_le units

theorem charactersWithin_unitCount : charactersWithin (unitCount cs) (cs ++ more) = cs := by
  induction cs with
  | nil =>
      cases more with
      | nil => rfl
      | cons c more =>
          have hpos := length_unitsOf_pos c
          rw [List.nil_append, charactersWithin, if_neg]
          exact Nat.not_le_of_lt hpos
  | cons c cs ih =>
      rw [List.cons_append, charactersWithin, unitCount_cons, if_pos (Nat.le_add_right _ _),
        Nat.add_sub_cancel_left, ih]

end Units

theorem unitCount_le_of_length_eq {line : Text} {first second : List Character}
    (hfirst : first <+: line.characters) (hsecond : second <+: line.characters)
    (hlength : (ofCharacters first).length = (ofCharacters second).length) :
    unitCount second ≤ unitCount first := by
  rcases List.prefix_or_prefix_of_prefix hfirst hsecond with ⟨extra, rfl⟩ | ⟨extra, rfl⟩
  · have hextra : extra = [] := by
      by_contra hne
      obtain ⟨rest, hrest⟩ := hsecond
      have hfaithful := (faithful_of_characters_eq hrest.symm).1
      have hbytes := ofCharacters_ne_nil
        (fun c hc => hfaithful c (List.mem_append_right first hc)) hne
      have hpos := List.length_pos_iff.mpr hbytes
      rw [ofCharacters_append, List.length_append] at hlength
      omega
    rw [hextra, List.append_nil]
  · rw [unitCount_append]
    exact Nat.le_add_right _ _

end Text

namespace DocumentPosition

open Text (Line ofCharacters charactersWithin)

variable {document front line rest : Text}

theorem before?_of_line (h : Line document front line rest) (character : Nat) :
    before? document ⟨front.count 10, character⟩ =
      some (charactersWithin character line.characters) := by
  obtain ⟨earlier, later, hsplit, hlength, -⟩ := h.splitOn_eq
  rw [before?, hsplit, ← hlength, List.getElem?_append_right (Nat.le_refl _), Nat.sub_self]
  rfl

theorem offset?_of_line (h : Line document front line rest) (character : Nat) :
    offset? document ⟨front.count 10, character⟩ =
      some (front ++ ofCharacters (charactersWithin character line.characters)).length := by
  obtain ⟨earlier, later, hsplit, hlength, hjoin⟩ := h.splitOn_eq
  rw [offset?, before?_of_line h, hsplit, ← hlength, List.take_left, hjoin, List.length_append]
  rfl

-- A place on a line of the document leads behind some of the characters of that line.
theorem exists_within {p : DocumentPosition} (h : p.line ≤ document.count 10) :
    ∃ front line rest within more, Line document front line rest ∧ front.count 10 = p.line ∧
      line.characters = within ++ more ∧ p.before? document = some within ∧
      p.offset? document = some (front ++ ofCharacters within).length := by
  obtain ⟨n, character⟩ := p
  obtain ⟨front, line, rest, hline, rfl⟩ := Text.exists_line h
  obtain ⟨more, hmore⟩ := Text.isPrefix_charactersWithin line.characters character
  exact ⟨front, line, rest, _, more, hline, rfl, hmore.symm, before?_of_line hline character,
    offset?_of_line hline character⟩

theorem offset?_eq_none_iff {p : DocumentPosition} :
    p.offset? document = none ↔ document.count 10 < p.line := by
  rw [offset?, Option.map_eq_none_iff, before?, Option.map_eq_none_iff, List.getElem?_eq_none_iff,
    Text.length_splitOn]
  omega

end DocumentPosition

end Tuga
