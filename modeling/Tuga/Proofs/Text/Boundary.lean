import Tuga.Proofs.Text.Utf8

namespace Tuga

namespace Character

variable {a : UInt8} {rest more : Text}

-- What follows a character plays no part in how it is read.
theorem leading_within {part : Text} (h : (leading a rest).bytes = a :: more)
    (hmore : more <+: part) (hpart : part <+: rest) : leading a part = leading a rest := by
  obtain ⟨tail, rfl⟩ := hpart
  obtain ⟨others, rfl⟩ := hmore
  unfold leading illFormed at h ⊢
  -- by how many bytes the character has; an ill-formed one is alone, whatever follows
  rcases more with _ | ⟨b, _ | ⟨c, _ | ⟨d, more⟩⟩⟩
  · rcases others with _ | ⟨b, _ | ⟨c, _ | ⟨d, others⟩⟩⟩ <;> grind
  · grind
  · grind
  · grind

private theorem isContinuation_second {b : UInt8} (hlow : secondLow a ≤ b)
    (hhigh : b ≤ secondHigh a) : isContinuation b = true := by
  have hleast : 0x80 ≤ secondLow a := by
    unfold secondLow
    split_ifs <;> decide
  have hmost : secondHigh a ≤ 0xBF := by
    unfold secondHigh
    split_ifs <;> decide
  simp only [isContinuation, Bool.and_eq_true, decide_eq_true_eq]
  exact ⟨UInt8.le_trans hleast hlow, UInt8.le_trans hhigh hmost⟩

theorem isContinuation_of_mem (h : (leading a rest).bytes = a :: more) :
    ∀ b ∈ more, isContinuation b = true := by
  unfold leading illFormed at h
  repeat' split at h
  all_goals
    simp only [List.cons.injEq, true_and] at h
    subst h
    simp_all [isContinuation_second (a := a)]

-- A byte that continues no character ends the one before it.
theorem leading_append (h : ∀ b ∈ more.head?, isContinuation b = false) :
    leading a (rest ++ more) = leading a rest := by
  obtain ⟨taken, htaken, hprefix⟩ := leading_bytes a (rest ++ more)
  have hcontinuation := isContinuation_of_mem htaken
  have hle : taken <+: rest := by
    rcases List.prefix_or_prefix_of_prefix hprefix (List.prefix_append rest more) with hle | hge
    · exact hle
    · obtain ⟨beyond, rfl⟩ := hge
      rw [List.prefix_append_right_inj] at hprefix
      cases beyond with
      | nil => simp
      | cons b beyond =>
          obtain ⟨tail, rfl⟩ := hprefix
          have hb : isContinuation b = false := h b rfl
          rw [hcontinuation b (by simp)] at hb
          cases hb
  exact (leading_within htaken hle (List.prefix_append rest more)).symm

-- A character below U+0080 is its own byte, and every other is made of bytes from 0x80 on; so the
-- bytes of ASCII characters show nothing else.
def Faithful (c : Character) : Prop :=
  c.code < 0x80 ∧ c.bytes = [UInt8.ofNat c.code] ∨
    0x80 ≤ c.code ∧ c.bytes ≠ [] ∧ ∀ b ∈ c.bytes, 0x80 ≤ b.toNat

theorem Faithful.bytes_ne_nil {c : Character} (h : c.Faithful) : c.bytes ≠ [] := by
  rcases h with ⟨-, h⟩ | ⟨-, h, -⟩
  · simp [h]
  · exact h

theorem Faithful.bytes_eq {c : Character} (h : c.Faithful) {b : UInt8} (hb : b.toNat < 0x80)
    (hcode : c.code = b.toNat) : c.bytes = [b] := by
  rcases h with ⟨-, h⟩ | ⟨hlow, -⟩
  · rw [h, hcode, UInt8.ofNat_toNat]
  · omega

theorem Faithful.mem_bytes_iff {c : Character} (h : c.Faithful) {b : UInt8}
    (hb : b.toNat < 0x80) : b ∈ c.bytes ↔ c.code = b.toNat := by
  rcases h with ⟨hcode, h⟩ | ⟨hlow, -, h⟩
  · rw [h, List.mem_singleton, ← UInt8.toNat_inj, UInt8.toNat_ofNat']
    omega
  · constructor
    · intro hmem
      have := h b hmem
      omega
    · omega

private theorem le_toNat_encode {code : Nat} (h : 0x80 ≤ code) (hscalar : IsScalar code) :
    ∀ b ∈ encode code, 0x80 ≤ b.toNat := by
  unfold IsScalar at hscalar
  unfold encode
  rw [if_neg (by omega)]
  split_ifs <;> simp <;> omega

end Character

namespace Text

open Character

-- A text read up to a byte that continues no character, and from there on.
theorem characters_append {rest : Text} (text : Text)
    (h : ∀ b ∈ rest.head?, isContinuation b = false) :
    (text ++ rest).characters = text.characters ++ rest.characters := by
  induction hn : text.length using Nat.strongRecOn generalizing text with
  | _ n ih =>
      cases text with
      | nil => rfl
      | cons a more =>
          obtain ⟨taken, htaken, tail, rfl⟩ := leading_bytes a more
          rw [List.cons_append, characters_cons, characters_cons, leading_append h, htaken]
          simp only [List.length_cons, Nat.add_sub_cancel, List.append_assoc, List.drop_left,
            List.cons_append]
          rw [ih tail.length (by simp at hn; omega) tail rfl]

@[simp] theorem ofCharacters_append (first second : List Character) :
    ofCharacters (first ++ second) = ofCharacters first ++ ofCharacters second :=
  List.flatMap_append

theorem eq_of_characters_eq {text : Text} {before after : List Character}
    (h : text.characters = before ++ after) : text = ofCharacters before ++ ofCharacters after := by
  rw [← ofCharacters_append, ← h, ofCharacters_characters]

-- Cut between two characters, a text is read as before on either side.
theorem characters_split {text : Text} {before after : List Character}
    (h : text.characters = before ++ after) :
    (ofCharacters before).characters = before ∧ (ofCharacters after).characters = after := by
  induction before generalizing text with
  | nil =>
      refine ⟨rfl, ?_⟩
      rw [List.nil_append] at h
      rw [← h, ofCharacters_characters]
  | cons c before ih =>
      cases text with
      | nil => cases h
      | cons a rest =>
          rw [characters_cons, List.cons_append, List.cons.injEq] at h
          obtain ⟨rfl, hrest⟩ := h
          obtain ⟨hbefore, hafter⟩ := ih hrest
          refine ⟨?_, hafter⟩
          obtain ⟨taken, htaken, tail, rfl⟩ := leading_bytes a rest
          simp only [htaken, List.length_cons, Nat.add_sub_cancel, List.drop_left] at hrest
          have htail : ofCharacters before <+: tail :=
            ⟨ofCharacters after, (eq_of_characters_eq hrest).symm⟩
          have hleading := leading_within htaken (List.prefix_append taken (ofCharacters before))
            ((List.prefix_append_right_inj taken).mpr htail)
          have hbytes : ofCharacters (leading a (taken ++ tail) :: before) =
              a :: (taken ++ ofCharacters before) := by
            simp [ofCharacters, htaken]
          rw [hbytes, characters_cons, hleading, htaken]
          simp [hbefore]

theorem faithful_of_mem {text : Text} {c : Character} (hc : c ∈ text.characters) :
    c.Faithful := by
  rcases mem_characters hc with ⟨a, rfl, ha⟩ | ⟨-, hscalar, hbytes⟩
  · exact Or.inr ⟨by simp [illFormed, replacement], by simp [illFormed],
      by simpa [illFormed] using ha⟩
  · by_cases hcode : c.code < 0x80
    · exact Or.inl ⟨hcode, by rw [← hbytes, encode, if_pos hcode]⟩
    · refine Or.inr ⟨by omega, ?_, ?_⟩
      · rw [← hbytes, encode]
        split_ifs <;> simp
      · rw [← hbytes]
        exact le_toNat_encode (by omega) hscalar

theorem faithful_of_characters_eq {text : Text} {before after : List Character}
    (h : text.characters = before ++ after) :
    (∀ c ∈ before, c.Faithful) ∧ ∀ c ∈ after, c.Faithful := by
  have hfaithful : ∀ c ∈ before ++ after, c.Faithful := fun c hc => faithful_of_mem (h ▸ hc)
  exact ⟨fun c hc => hfaithful c (List.mem_append_left _ hc),
    fun c hc => hfaithful c (List.mem_append_right _ hc)⟩

theorem ofCharacters_ne_nil {cs : List Character} (hcs : ∀ c ∈ cs, c.Faithful) (hne : cs ≠ []) :
    ofCharacters cs ≠ [] := by
  obtain ⟨c, rest, rfl⟩ := List.exists_cons_of_ne_nil hne
  have hc := hcs c List.mem_cons_self
  simp [ofCharacters, hc.bytes_ne_nil]

theorem mem_ofCharacters_iff {cs : List Character} (hcs : ∀ c ∈ cs, c.Faithful) {b : UInt8}
    (hb : b.toNat < 0x80) : b ∈ ofCharacters cs ↔ ∃ c ∈ cs, c.code = b.toNat := by
  rw [ofCharacters, List.mem_flatMap]
  exact exists_congr fun c => and_congr_right fun hc => (hcs c hc).mem_bytes_iff hb

theorem head?_ofCharacters_eq_some_iff {cs : List Character} (hcs : ∀ c ∈ cs, c.Faithful)
    {b : UInt8} (hb : b.toNat < 0x80) :
    (ofCharacters cs).head? = some b ↔ cs.head?.map Character.code = some b.toNat := by
  cases cs with
  | nil => simp [ofCharacters]
  | cons c rest =>
      have hc := hcs c (by simp)
      rw [List.head?_cons, Option.map_some, Option.some.injEq]
      constructor
      · intro hhead
        rw [ofCharacters, List.flatMap_cons,
          List.head?_append_of_ne_nil _ hc.bytes_ne_nil] at hhead
        exact (hc.mem_bytes_iff hb).mp (List.mem_of_mem_head? hhead)
      · intro hcode
        simp [ofCharacters, hc.bytes_eq hb hcode]

theorem contains_append_of_notMem {b : UInt8} {part first second : Text} (h : b ∉ first) :
    contains (b :: part) (first ++ second) = contains (b :: part) second := by
  induction first with
  | nil => rfl
  | cons a first ih =>
      rw [List.mem_cons, not_or] at h
      have ha : (b == a) = false := by simpa using h.1
      rw [List.cons_append, contains, ih h.2, List.isPrefixOf_cons_cons, ha]
      rfl

end Text

end Tuga
