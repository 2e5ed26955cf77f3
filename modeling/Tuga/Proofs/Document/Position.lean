import Tuga.Document.Features
import Tuga.Proofs.Document.Lines
import Tuga.Proofs.Token.Cutting

namespace Tuga

open Text (Line ofCharacters unitCount)

-- The places where the lexemes of a source start and stop, the end of the input among them.
def Lexer.places (source : Text) : List Position :=
  (lexemes source ++ [Lexeme.token (endToken source)]).flatMap fun lexeme =>
    [lexeme.span.start, lexeme.span.stop]

-- Whether 32-bit counts hold a place of a document: its line, and the UTF-16 units before it there.
def Position.Fits (document : Text) (p : Position) : Prop :=
  p.line ≤ 0x100000000 ∧ (Text.lastLine (document.take p.offset.toNat)).utf16.length < 0x100000000

-- An offset between two characters of a text, or at one of its ends.
def Text.IsBoundary (text : Text) (offset : Nat) : Prop :=
  ∃ before after, text.characters = before ++ after ∧ offset = (ofCharacters before).length

-- The order of places: by lines, and within a line by characters.
def DocumentPosition.Precedes (p q : DocumentPosition) : Prop :=
  p.line < q.line ∨ p.line = q.line ∧ p.character < q.character

theorem Position.offset_afterAll {text : Text} {before after : List Character}
    (h : text.characters = before ++ after) :
    (start.afterAll before).offset = (ofCharacters before).length := by
  rw [afterAll_start_eq_ofOffset h]
  rfl

namespace Lexer

-- Every place of a lexeme comes after some of the characters of the source.
theorem exists_before {source : Text} {p : Position} (h : p ∈ places source) :
    ∃ before after, source.characters = before ++ after ∧ p = Position.start.afterAll before := by
  have hvisible : source.characters =
      visible source ++ source.characters.dropWhile (·.code ≠ 0) :=
    List.takeWhile_append_dropWhile.symm
  obtain ⟨lexeme, hlexeme, hp⟩ := List.mem_flatMap.mp h
  rcases List.mem_append.mp hlexeme with hlexeme | hlexeme
  · obtain ⟨first, second, hlexemes⟩ := List.append_of_mem hlexeme
    rw [List.mem_cons, List.mem_singleton] at hp
    rcases hp with rfl | rfl
    · obtain ⟨before, after, hcut, hstart, -⟩ := exists_start hlexemes
      rw [hcut, List.append_assoc] at hvisible
      exact ⟨before, _, hvisible, hstart⟩
    · rw [← List.singleton_append, ← List.append_assoc] at hlexemes
      obtain ⟨before, after, hcut, -, hstop⟩ := exists_end (by simp) hlexemes
      rw [hcut, List.append_assoc] at hvisible
      exact ⟨before, _, hvisible, hstop lexeme (by simp)⟩
  · rw [List.mem_singleton] at hlexeme
    subst hlexeme
    simp only [List.mem_cons, List.not_mem_nil, or_false] at hp
    exact ⟨visible source, _, hvisible, hp.elim id id⟩

end Lexer

namespace DocumentPosition

-- The characters since the last line feed.
def currentLine (cs : List Character) : List Character :=
  cs.rtakeWhile (·.code ≠ 10)

variable {document : Text} {before after extra : List Character}

theorem notMem_currentLine (h : document.characters = before ++ after) :
    10 ∉ ofCharacters (currentLine before) := by
  have hfaithful := (Text.faithful_of_characters_eq h).1
  have hsubset : currentLine before ⊆ before := (List.rtakeWhile_suffix _ before).subset
  rw [Text.mem_ofCharacters_iff (fun c hc => hfaithful c (hsubset hc)) (by decide)]
  rintro ⟨c, hc, hcode⟩
  have hne : c.code ≠ 10 := by simpa using List.mem_rtakeWhile_imp hc
  exact hne hcode

-- Some characters of a document end in a line of it, which goes on with what follows.
theorem exists_line (h : document.characters = before ++ after) :
    ∃ front line rest more, Line document front line rest ∧
      ofCharacters before = front ++ ofCharacters (currentLine before) ∧
      line.characters = currentLine before ++ more := by
  have hbefore : before.rdropWhile (·.code ≠ 10) ++ currentLine before = before :=
    List.rdropWhile_append_rtakeWhile
  have hafter : after.takeWhile (·.code ≠ 10) ++ after.dropWhile (·.code ≠ 10) = after :=
    List.takeWhile_append_dropWhile
  have hlast := List.rdropWhile_last_not (·.code ≠ 10) before
  have hhead := List.head?_dropWhile_not (·.code ≠ 10) after
  have hplain : ∀ c ∈ currentLine before ++ after.takeWhile (·.code ≠ 10), c.code ≠ 10 := by
    intro c hc
    rcases List.mem_append.mp hc with hc | hc
    · simpa using List.mem_rtakeWhile_imp hc
    · simpa using List.mem_takeWhile_imp hc
  generalize before.rdropWhile (·.code ≠ 10) = first at hbefore hlast
  generalize after.takeWhile (·.code ≠ 10) = more at hafter hplain
  generalize after.dropWhile (·.code ≠ 10) = later at hafter hhead
  generalize currentLine before = current at hbefore hplain
  subst hbefore hafter
  have hcut : document.characters = first ++ ((current ++ more) ++ later) := by
    rw [h]
    simp
  obtain ⟨hfirst, hrest⟩ := Text.faithful_of_characters_eq hcut
  rw [List.forall_mem_append] at hrest
  have hline := (Text.characters_split (Text.characters_split hcut).2).1
  refine ⟨ofCharacters first, ofCharacters (current ++ more), ofCharacters later, more,
    ⟨?_, ?_, ?_, ?_⟩, by simp, hline⟩
  · rw [Text.eq_of_characters_eq hcut, Text.ofCharacters_append (current ++ more)]
  · rcases List.eq_nil_or_concat first with rfl | ⟨first, c, rfl⟩
    · exact .inl rfl
    · have hcode : c.code = 10 := by simpa using hlast
      have hbytes : ofCharacters [c] = [10] := by
        simp [ofCharacters, (hfirst c (by simp)).bytes_eq (b := 10) (by decide) hcode]
      rw [List.concat_eq_append, Text.ofCharacters_append, hbytes, List.getLast?_concat]
      exact .inr rfl
  · rw [Text.mem_ofCharacters_iff hrest.1 (by decide)]
    rintro ⟨c, hc, hcode⟩
    exact hplain c hc hcode
  · cases later with
    | nil => exact .inl rfl
    | cons c later =>
        have hcode : c.code = 10 := by simpa using hhead
        refine .inr ((Text.head?_ofCharacters_eq_some_iff hrest.2 (by decide)).mpr ?_)
        exact congrArg some hcode

theorem length_lastLine_take (h : document.characters = before ++ after) :
    (Text.lastLine (document.take (ofCharacters before).length)).utf16.length =
      unitCount (currentLine before) := by
  obtain ⟨front, line, rest, more, hline, hbytes, hcharacters⟩ := exists_line h
  have hcurrent := (Text.characters_split hcharacters).1
  have hlast : Text.lastLine (ofCharacters before) = ofCharacters (currentLine before) := by
    rw [hbytes, Text.lastLine_append hline.first (notMem_currentLine h)]
  rw [Text.eq_of_characters_eq h, List.take_left, hlast, Text.length_utf16, hcurrent]

-- The place of an editor after some characters: as many lines down as there are line feeds among
-- them, and as many units in as the characters since the last one take.
theorem ofPosition_afterAll (h : document.characters = before ++ after) :
    ofPosition document (Position.start.afterAll before) =
      ofCounts ((ofCharacters before).count 10) (unitCount (currentLine before)) := by
  have hcount : (1 + ((ofCharacters before).count 10 : Int) - 1).toNat =
      (ofCharacters before).count 10 := by omega
  rw [Position.afterAll_start (Text.faithful_of_characters_eq h).1, ofPosition]
  dsimp only
  rw [if_neg (by omega), Int.toNat_natCast, length_lastLine_take h, hcount]

theorem fits_afterAll_iff (h : document.characters = before ++ after) :
    (Position.start.afterAll before).Fits document ↔
      (ofCharacters before).count 10 < 0x100000000 ∧
        unitCount (currentLine before) < 0x100000000 := by
  rw [Position.afterAll_start (Text.faithful_of_characters_eq h).1, Position.Fits]
  dsimp only
  rw [Int.toNat_natCast, length_lastLine_take h]
  omega

-- No place of a document below 4 GiB is out of range.
theorem fits_of_length_lt (h : document.characters = before ++ after)
    (hlength : document.length < 0x100000000) : (Position.start.afterAll before).Fits document := by
  have hbefore : (ofCharacters before).length ≤ document.length := by
    rw [Text.eq_of_characters_eq h, List.length_append]
    omega
  have hcount : (ofCharacters before).count 10 ≤ (ofCharacters before).length :=
    List.count_le_length
  have hcurrent : unitCount (currentLine before) ≤ (ofCharacters before).length := by
    obtain ⟨front, line, rest, more, -, hbytes, -⟩ := exists_line h
    have hsubset : currentLine before ⊆ before := (List.rtakeWhile_suffix _ before).subset
    have hunits := Text.unitCount_le_length fun c (hc : c ∈ currentLine before) =>
      Text.length_unitsOf_le (h ▸ List.mem_append_left after (hsubset hc))
    rw [hbytes, List.length_append]
    omega
  rw [fits_afterAll_iff h]
  omega

theorem ofPosition_of_fits (h : document.characters = before ++ after)
    (hfits : (Position.start.afterAll before).Fits document) :
    ofPosition document (Position.start.afterAll before) =
      ⟨(ofCharacters before).count 10, unitCount (currentLine before)⟩ := by
  obtain ⟨hcount, hunits⟩ := (fits_afterAll_iff h).mp hfits
  rw [ofPosition_afterAll h, ofCounts, Nat.mod_eq_of_lt hcount, Nat.mod_eq_of_lt hunits]

theorem precedes_ofPosition (h : document.characters = before ++ (extra ++ after))
    (hne : extra ≠ []) (hfits : (Position.start.afterAll before).Fits document)
    (hfits' : (Position.start.afterAll (before ++ extra)).Fits document) :
    (ofPosition document (Position.start.afterAll before)).Precedes
      (ofPosition document (Position.start.afterAll (before ++ extra))) := by
  have h' : document.characters = (before ++ extra) ++ after := by rw [h, List.append_assoc]
  have hfaithful := (Text.faithful_of_characters_eq (Text.characters_split h).2).1
  rw [ofPosition_of_fits h hfits, ofPosition_of_fits h' hfits', Text.ofCharacters_append,
    List.count_append]
  by_cases hfeed : 10 ∈ ofCharacters extra
  · have hpos := List.count_pos_iff.mpr hfeed
    exact .inl (by dsimp only; omega)
  · have hplain : ∀ c ∈ extra.reverse, decide (c.code ≠ 10) = true := by
      intro c hc
      rw [decide_eq_true_eq]
      intro hcode
      refine hfeed ((Text.mem_ofCharacters_iff hfaithful (by decide)).mpr ⟨c, ?_, hcode⟩)
      exact List.mem_reverse.mp hc
    have hcurrent : currentLine (before ++ extra) = currentLine before ++ extra := by
      rw [currentLine, currentLine, List.rtakeWhile, List.rtakeWhile, List.reverse_append,
        List.takeWhile_append_of_pos hplain, List.reverse_append, List.reverse_reverse]
    have hpos := Text.unitCount_pos hne
    rw [hcurrent, Text.unitCount_append, List.count_eq_zero.mpr hfeed]
    exact .inr ⟨rfl, by dsimp only; omega⟩

theorem isBoundary_of_offset? {p : DocumentPosition} {offset : Nat}
    (h : p.offset? document = some offset) :
    document.IsBoundary offset ∧ (document.take offset).count 10 = p.line := by
  have hle : p.line ≤ document.count 10 := by
    by_contra hlt
    rw [offset?_eq_none_iff.mpr (by omega)] at h
    cases h
  obtain ⟨front, line, rest, within, more, hline, hcount, hmore, -, hoffset⟩ := exists_within hle
  obtain rfl := Option.some.inj (hoffset.symm.trans h)
  have hcharacters : document.characters =
      (front.characters ++ within) ++ (more ++ rest.characters) := by
    rw [hline.characters_eq, hmore]
    simp
  have hbytes : ofCharacters (front.characters ++ within) = front ++ ofCharacters within := by
    rw [Text.ofCharacters_append, Text.ofCharacters_characters]
  refine ⟨⟨_, _, hcharacters, by rw [hbytes]⟩, ?_⟩
  rw [Text.eq_of_characters_eq hcharacters, hbytes, List.take_left, List.count_append,
    List.count_eq_zero.mpr (hline.notMem_ofCharacters hmore), hcount, Nat.add_zero]

-- The place of an editor after some characters leads back to the byte behind them exactly if the
-- counts hold it: a wrapped line is another line, and wrapped units end before the last of the
-- characters.
theorem offset?_ofPosition_iff (h : document.characters = before ++ after) :
    (ofPosition document (Position.start.afterAll before)).offset? document =
      some (ofCharacters before).length ↔ (Position.start.afterAll before).Fits document := by
  obtain ⟨front, line, rest, more, hline, hbytes, hcharacters⟩ := exists_line h
  have hcount : (ofCharacters before).count 10 = front.count 10 := by
    rw [hbytes, List.count_append, List.count_eq_zero.mpr (notMem_currentLine h), Nat.add_zero]
  have htake : document.take (ofCharacters before).length = ofCharacters before := by
    rw [Text.eq_of_characters_eq h, List.take_left]
  constructor
  · intro hoffset
    have hsame := (isBoundary_of_offset? hoffset).2
    rw [htake, ofPosition_afterAll h, ofCounts] at hsame
    dsimp only at hsame
    rw [ofPosition_afterAll h, ofCounts, ← hsame, hcount, offset?_of_line hline, hbytes,
      Option.some.injEq, List.length_append, List.length_append, Nat.add_left_cancel_iff] at hoffset
    generalize hunits : unitCount (currentLine before) % 0x100000000 = units at hoffset
    have hwithin := Text.unitCount_charactersWithin_le line.characters units
    have hprefix := Text.isPrefix_charactersWithin line.characters units
    have hle := Text.unitCount_le_of_length_eq hprefix ⟨more, hcharacters.symm⟩ hoffset
    rw [fits_afterAll_iff h]
    omega
  · intro hfits
    rw [ofPosition_of_fits h hfits, hcount, offset?_of_line hline, hcharacters,
      Text.charactersWithin_unitCount, hbytes]

end DocumentPosition

theorem Text.IsBoundary.le_length {text : Text} {offset : Nat} (h : text.IsBoundary offset) :
    offset ≤ text.length := by
  obtain ⟨before, after, hcharacters, rfl⟩ := h
  rw [Text.eq_of_characters_eq hcharacters, List.length_append]
  omega

namespace Document

-- The bytes of a text from one offset to another, which should be in order and in the text.
def slice? (text : Text) (start stop : Nat) : Option Text :=
  if start ≤ stop ∧ stop ≤ text.length then some (Lexer.slice text start stop) else none

-- Where the word starts that stands before an offset, on a line that starts at `lineStart`. Each
-- step goes back over a character, so as many steps as there are bytes suffice.
def wordStart? (document : Text) (lineStart : Nat) : Nat → Nat → Option Nat
  | 0, start => some start
  | steps + 1, start =>
    if start ≤ lineStart then some start
    else do
      let before ← slice? document lineStart start
      let c ← before.characters.getLast?
      if isWordCode c.code then
        if c.bytes.length ≤ start then wordStart? document lineStart steps (start - c.bytes.length)
        else none
      else some start

-- The part of a word that ends at a place, found by offsets. There is no outcome if an offset
-- leads out of the document.
def wordBefore? (document : Text) (p : DocumentPosition) : Option Text :=
  match p.offset? document with
  | none => some []
  | some offset => do
    let before ← slice? document 0 offset
    let start ← wordStart? document (offset - before.lastLine.length) offset offset
    slice? document start offset

section Word

variable {document front line rest : Text} {cs more : List Character}

theorem slice?_eq {first middle last : Text} (h : document = first ++ (middle ++ last)) :
    slice? document first.length (first ++ middle).length = some middle := by
  have hlength := congrArg List.length h
  simp only [List.length_append] at hlength
  rw [slice?, if_pos ⟨by simp, by simp; omega⟩, Lexer.slice, h]
  simp

theorem wordStart?_eq (h : Line document front line rest) (hcs : line.characters = cs ++ more)
    {steps : Nat} (hsteps : (ofCharacters cs).length ≤ steps) :
    wordStart? document front.length steps (front ++ ofCharacters cs).length =
      some (front ++ ofCharacters (cs.rdropWhile fun c => isWordCode c.code)).length := by
  induction cs using List.reverseRecOn generalizing more steps with
  | nil =>
      rw [List.rdropWhile_nil]
      cases steps with
      | zero => rfl
      | succ steps => rw [wordStart?, if_pos (by simp [ofCharacters])]
  | append_singleton cs c ih =>
      have hne : c.bytes ≠ [] :=
        ((Text.faithful_of_characters_eq hcs).1 c (by simp)).bytes_ne_nil
      have hpos := List.length_pos_iff.mpr hne
      have hbytes : ofCharacters (cs ++ [c]) = ofCharacters cs ++ c.bytes := by
        simp [ofCharacters]
      have hlength : (front ++ ofCharacters (cs ++ [c])).length =
          (front ++ ofCharacters cs).length + c.bytes.length := by
        rw [hbytes, ← List.append_assoc, List.length_append]
      have hdocument : document =
          front ++ (ofCharacters (cs ++ [c]) ++ (ofCharacters more ++ rest)) := by
        rw [h.eq, Text.eq_of_characters_eq hcs, List.append_assoc]
      have hslice := slice?_eq hdocument
      have hcharacters := (Text.characters_split hcs).1
      obtain ⟨steps, rfl⟩ : ∃ n, steps = n + 1 := by
        rw [hbytes, List.length_append] at hsteps
        exact ⟨steps - 1, by omega⟩
      have hstart : ¬(front ++ ofCharacters (cs ++ [c])).length ≤ front.length := by
        rw [hlength, List.length_append]
        omega
      rw [wordStart?, if_neg hstart, hslice]
      simp only [Option.bind_eq_bind, Option.bind_some, hcharacters, List.getLast?_concat]
      by_cases hword : isWordCode c.code = true
      · have hdrop : (cs ++ [c]).rdropWhile (fun c => isWordCode c.code) =
            cs.rdropWhile fun c => isWordCode c.code := List.rdropWhile_concat_pos _ _ _ hword
        have hrest : (ofCharacters cs).length ≤ steps := by
          rw [hbytes, List.length_append] at hsteps
          omega
        rw [List.append_assoc] at hcs
        rw [if_pos hword, if_pos (by omega), hdrop, hlength, Nat.add_sub_cancel, ih hcs hrest]
      · have hdrop : (cs ++ [c]).rdropWhile (fun c => isWordCode c.code) = cs ++ [c] :=
          List.rdropWhile_concat_neg _ _ _ hword
        rw [if_neg hword, hdrop]

theorem wordBefore?_eq (document : Text) (p : DocumentPosition) :
    wordBefore? document p = some (wordBefore document p) := by
  by_cases hle : p.line ≤ document.count 10
  · obtain ⟨front, line, rest, within, more, hline, -, hmore, hbefore?, hoffset⟩ :=
      DocumentPosition.exists_within hle
    have hdocument : document = front ++ (ofCharacters within ++ (ofCharacters more ++ rest)) := by
      rw [hline.eq, Text.eq_of_characters_eq hmore, List.append_assoc]
    have hbefore : slice? document 0 (front ++ ofCharacters within).length =
        some (front ++ ofCharacters within) := by
      have hwhole : document =
          [] ++ ((front ++ ofCharacters within) ++ (ofCharacters more ++ rest)) := by
        rw [List.nil_append, List.append_assoc, ← hdocument]
      exact slice?_eq hwhole
    have hlineStart : (front ++ ofCharacters within).length -
        (Text.lastLine (front ++ ofCharacters within)).length = front.length := by
      rw [Text.lastLine_append hline.first (hline.notMem_ofCharacters hmore), List.length_append,
        Nat.add_sub_cancel]
    have hsteps : (ofCharacters within).length ≤ (front ++ ofCharacters within).length := by
      rw [List.length_append]
      omega
    have hword : slice? document
        (front ++ ofCharacters (within.rdropWhile fun c => isWordCode c.code)).length
        (front ++ ofCharacters within).length =
        some (ofCharacters (within.rtakeWhile fun c => isWordCode c.code)) := by
      have hsplit : ofCharacters within =
          ofCharacters (within.rdropWhile fun c => isWordCode c.code) ++
            ofCharacters (within.rtakeWhile fun c => isWordCode c.code) := by
        rw [← Text.ofCharacters_append, List.rdropWhile_append_rtakeWhile]
      rw [hsplit, List.append_assoc, ← List.append_assoc] at hdocument
      have hslice := slice?_eq hdocument
      rwa [List.append_assoc, ← hsplit] at hslice
    rw [wordBefore?, wordBefore, hoffset, hbefore?, Option.getD_some]
    simp only [hbefore, hlineStart, wordStart?_eq hline hmore hsteps, hword,
      Option.bind_eq_bind, Option.bind_some]
    rfl
  · have hnone : p.offset? document = none :=
      DocumentPosition.offset?_eq_none_iff.mpr (Nat.lt_of_not_le hle)
    have hbefore : p.before? document = none := Option.map_eq_none_iff.mp hnone
    rw [wordBefore?, wordBefore, hnone, hbefore]
    rfl

end Word

-- The places of the lexemes of a document survive the way to the editor and back, and come in the
-- same order there, as far as 32-bit counts hold them; in a document below 4 GiB they hold all.
-- Conversely, a place of the editor has an offset exactly if its line is in the document; it lies
-- on that line, between two characters, and the word before it is found without leaving the
-- document.
theorem positions_round_trip (document : Text) :
    (document.length < 0x100000000 → ∀ p ∈ Lexer.places document, p.Fits document) ∧
    (∀ p ∈ Lexer.places document, ∃ offset : Nat, p.offset = offset ∧
      ((DocumentPosition.ofPosition document p).offset? document = some offset ↔
        p.Fits document)) ∧
    (∀ p ∈ Lexer.places document, ∀ q ∈ Lexer.places document, p.Fits document → q.Fits document →
      p.offset < q.offset → (DocumentPosition.ofPosition document p).Precedes
        (DocumentPosition.ofPosition document q)) ∧
    ∀ p : DocumentPosition,
      (p.offset? document = none ↔ document.count 10 < p.line) ∧
      (∀ offset, p.offset? document = some offset → offset ≤ document.length ∧
        document.IsBoundary offset ∧ (document.take offset).count 10 = p.line) ∧
      wordBefore? document p = some (wordBefore document p) := by
  refine ⟨fun hlength p hp => ?_, fun p hp => ?_, fun p hp q hq hfits hfits' hlt => ?_, fun p =>
    ⟨DocumentPosition.offset?_eq_none_iff, fun offset hoffset => ?_, wordBefore?_eq document p⟩⟩
  · obtain ⟨before, after, hcharacters, rfl⟩ := Lexer.exists_before hp
    exact DocumentPosition.fits_of_length_lt hcharacters hlength
  · obtain ⟨before, after, hcharacters, rfl⟩ := Lexer.exists_before hp
    exact ⟨_, Position.offset_afterAll hcharacters,
      DocumentPosition.offset?_ofPosition_iff hcharacters⟩
  · obtain ⟨before, after, hcharacters, rfl⟩ := Lexer.exists_before hp
    obtain ⟨before', after', hcharacters', rfl⟩ := Lexer.exists_before hq
    rw [Position.offset_afterAll hcharacters, Position.offset_afterAll hcharacters'] at hlt
    rcases List.prefix_or_prefix_of_prefix ⟨after, hcharacters.symm⟩ ⟨after', hcharacters'.symm⟩
      with ⟨extra, rfl⟩ | ⟨extra, rfl⟩
    · have hne : extra ≠ [] := by
        rintro rfl
        simp at hlt
      rw [List.append_assoc] at hcharacters'
      exact DocumentPosition.precedes_ofPosition hcharacters' hne hfits hfits'
    · rw [Text.ofCharacters_append, List.length_append] at hlt
      omega
  · obtain ⟨hboundary, hcount⟩ := DocumentPosition.isBoundary_of_offset? hoffset
    exact ⟨hboundary.le_length, hboundary, hcount⟩

-- A place inside a surrogate pair goes before the character.
example : DocumentPosition.ofPosition "\"😀\" 1" ⟨6, 1, 4⟩ = ⟨0, 4⟩ ∧
    DocumentPosition.offset? "\"😀\" 1" ⟨0, 2⟩ = some 1 := by
  decide +kernel

end Document

end Tuga
