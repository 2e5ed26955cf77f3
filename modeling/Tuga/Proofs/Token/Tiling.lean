import Mathlib.Data.List.Induction
import Tuga.Proofs.Token.Scanning

namespace Tuga

-- The place before the byte at an offset: one line more than there are line feeds before it, and
-- one column more than there are code points since the last of them.
def Position.ofOffset (text : Text) (offset : Nat) : Position :=
  let before : Text := text.take offset
  ⟨offset, 1 + before.count 10, 1 + (before.codes.reverse.takeWhile (· ≠ 10)).length⟩

theorem Position.afterAll_start {cs : List Character} (h : ∀ c ∈ cs, c.Faithful) :
    start.afterAll cs = ⟨(Text.ofCharacters cs).length, 1 + (Text.ofCharacters cs).count 10,
      1 + ((cs.map Character.code).reverse.takeWhile (· ≠ 10)).length⟩ := by
  induction cs using List.reverseRecOn with
  | nil => rfl
  | append_singleton cs c ih =>
      have hc : c.Faithful := h c (by simp)
      have hbytes : Text.ofCharacters (cs ++ [c]) = Text.ofCharacters cs ++ c.bytes := by
        simp [Text.ofCharacters]
      rw [afterAll_append, ih fun d hd => h d (by simp [hd]), hbytes]
      change after _ c = _
      rw [after]
      split
      · rename_i hcode
        rw [hc.bytes_eq (b := 10) (by decide) hcode]
        simp [hcode]
        omega
      · rename_i hcode
        have hcount : c.bytes.count 10 = 0 := by
          rw [List.count_eq_zero, hc.mem_bytes_iff (by decide)]
          exact hcode
        simp [hcode, hcount]
        omega

-- The place reached after some characters of a text is that of the next byte.
theorem Position.afterAll_start_eq_ofOffset {text : Text} {before after : List Character}
    (h : text.characters = before ++ after) :
    start.afterAll before = ofOffset text (Text.ofCharacters before).length := by
  have hcodes : (Text.ofCharacters before).codes = before.map Character.code := by
    rw [Text.codes, (Text.characters_split h).1]
  rw [afterAll_start (Text.faithful_of_characters_eq h).1, ofOffset, Text.eq_of_characters_eq h,
    List.take_left, hcodes]

namespace Lexer

open Text (ofCharacters)

variable {isLetter : Nat → Bool}

-- What may stand between lexemes: blanks, and comments with their ends. A comment to the end of its
-- line ends at a line feed; behind the last lexeme the end of the input does as well.
inductive Gap (last : Bool) : Text → Prop where
  | nil : Gap last []
  | blank {b : UInt8} {rest : Text} (hb : b = 32 ∨ b = 9 ∨ b = 10 ∨ b = 13)
      (gap : Gap last rest) : Gap last (b :: rest)
  | line {body rest : Text} (hbody : 10 ∉ body) (gap : Gap last rest) :
      Gap last (47 :: 47 :: (body ++ 10 :: rest))
  | lastLine {body : Text} (hlast : last = true) (hbody : 10 ∉ body) :
      Gap last (47 :: 47 :: body)
  | block {body rest : Text} (hbody : Text.contains [42, 47] (body ++ [42]) = false)
      (gap : Gap last rest) : Gap last (47 :: 42 :: (body ++ 42 :: 47 :: rest))

-- The bytes of a text from one offset to another.
def slice (text : Text) (start stop : Nat) : Text := (text.drop start).take (stop - start)

-- The lexemes tile a text from an offset on: each covers the stretch between its two places, a
-- token has that stretch as its literal, and only gaps are left.
inductive Tiles (text : Text) : Nat → List Lexeme → Prop where
  | done {offset : Nat} (gap : Gap true (text.drop offset)) : Tiles text offset []
  | next {offset start stop : Nat} {lexeme : Lexeme} {rest : List Lexeme}
      (hstart : offset ≤ start) (hstop : start < stop) (hend : stop ≤ text.length)
      (gap : Gap false (slice text offset start))
      (hspan : lexeme.span = ⟨.ofOffset text start, .ofOffset text stop⟩)
      (hliteral : ∀ token, lexeme = .token token → token.literal = slice text start stop)
      (tiles : Tiles text stop rest) : Tiles text offset (lexeme :: rest)

theorem Tiles.prepend {text piece rest : Text} {offset : Nat} {lexemes : List Lexeme}
    (hdrop : text.drop offset = piece ++ rest)
    (hpiece : ∀ {last rest}, Gap last rest → Gap last (piece ++ rest))
    (h : Tiles text (offset + piece.length) lexemes) : Tiles text offset lexemes := by
  have hrest : text.drop (offset + piece.length) = rest := by
    rw [← List.drop_drop, hdrop, List.drop_left]
  cases h with
  | done gap =>
      rw [hrest] at gap
      exact .done (hdrop ▸ hpiece gap)
  | @next _ start stop _ _ hstart hstop hend gap hspan hliteral tiles =>
      refine .next (by omega) hstop hend ?_ hspan hliteral tiles
      have hslice : slice text offset start =
          piece ++ slice text (offset + piece.length) start := by
        have hsub : start - offset = piece.length + (start - (offset + piece.length)) := by omega
        rw [slice, slice, hrest, hdrop, hsub, List.take_length_add_append]
      exact hslice ▸ hpiece gap

-- What a scan finds that is not blank: a token, never the end of the input, or an error.
def Scanned.IsLexeme : Scanned → Prop
  | .blank => False
  | .token kind => kind ≠ .endOfInput
  | .error _ => True

theorem Scanned.IsLexeme.exists_lexeme {found : Scanned} (h : found.IsLexeme) (pos : Position)
    (taken : List Character) :
    ∃ lexeme, found.lexeme? pos taken = some lexeme ∧
      lexeme.span = ⟨pos, pos.afterAll taken⟩ ∧
      ∀ token, lexeme = .token token →
        token.kind ≠ .endOfInput ∧ token.literal = ofCharacters taken := by
  cases found with
  | blank => exact h.elim
  | token kind =>
      refine ⟨_, rfl, rfl, fun token htoken => ?_⟩
      obtain rfl := Lexeme.token.inj htoken
      exact ⟨h, rfl⟩
  | error cause => exact ⟨_, rfl, rfl, fun token htoken => nomatch htoken⟩

theorem isLexeme_scanSymbol (symbol : Symbol) (next : Option Nat) :
    (scanSymbol symbol next).found.IsLexeme := by
  unfold scanSymbol
  split <;> simp [Scanned.IsLexeme]

theorem isLexeme_scanText (rest : List Character) : (scanText rest).found.IsLexeme := by
  unfold scanText
  dsimp only
  split <;> simp [Scanned.IsLexeme]

theorem isLexeme_scanNumber (rest : List Character) : (scanNumber rest).found.IsLexeme := by
  unfold scanNumber
  dsimp only
  split
  · split <;> simp [Scanned.IsLexeme]
  · simp [Scanned.IsLexeme]

theorem isLexeme_scanWord (c : Character) (rest : List Character) :
    (scanWord isLetter c rest).found.IsLexeme := by
  unfold scanWord
  dsimp only
  split <;> simp [Scanned.IsLexeme]

-- What is blank: a space, a comment to the end of its line, and one between its two marks.
inductive Blank : Character → List Character → Nat → Prop where
  | space {c : Character} {rest : List Character} (hc : isSpace c.code = true) : Blank c rest 0
  | line {c d : Character} {rest : List Character} (hc : c.code = 47) (hd : d.code = 47) :
      Blank c (d :: rest) (runLength (· ≠ 10) rest + 1)
  | block {c d : Character} {rest : List Character} {n : Nat} (hc : c.code = 47)
      (hd : d.code = 42) (hn : commentLength? rest = some n) : Blank c (d :: rest) (n + 1)

theorem scan_cases (c : Character) (rest : List Character)
    (isLetter : Nat → Bool := Text.isLetter) :
    (scan c rest isLetter).found.IsLexeme ∨
      (scan c rest isLetter).found = .blank ∧ Blank c rest (scan c rest isLetter).extra := by
  unfold scan
  dsimp only
  split
  · rename_i hspace
    exact Or.inr ⟨rfl, .space hspace⟩
  split
  · rename_i hmark
    cases rest with
    | nil => simp at hmark
    | cons d rest =>
        simp only [List.head?_cons, Option.map_some, Option.some.injEq, Bool.and_eq_true,
          decide_eq_true_eq] at hmark
        have hlength : runLength (· ≠ 10) (d :: rest) = runLength (· ≠ 10) rest + 1 := by
          simp [runLength, hmark.2]
        rw [scanLineComment, hlength]
        exact Or.inr ⟨rfl, .line hmark.1 hmark.2⟩
  split
  · rename_i hmark
    cases rest with
    | nil => simp at hmark
    | cons d rest =>
        simp only [List.head?_cons, Option.map_some, Option.some.injEq, Bool.and_eq_true,
          decide_eq_true_eq] at hmark
        rw [scanBlockComment, List.drop_succ_cons, List.drop_zero]
        split
        · rename_i n hn
          exact Or.inr ⟨rfl, .block hmark.1 hmark.2 hn⟩
        · exact Or.inl trivial
  left
  split
  · exact isLexeme_scanSymbol _ _
  split
  · exact isLexeme_scanText rest
  split
  · exact isLexeme_scanNumber rest
  split
  · exact isLexeme_scanWord c rest
  · trivial

-- A star that no slash follows ends no comment.
theorem contains_star_cons {bytes : Text} (h : bytes.head? ≠ some 47) :
    Text.contains [42, 47] (42 :: bytes) = Text.contains [42, 47] bytes := by
  cases bytes with
  | nil => rfl
  | cons b rest =>
      rw [List.head?_cons, ne_eq, Option.some.injEq] at h
      rw [Text.contains, List.isPrefixOf_cons_cons, List.isPrefixOf_cons_cons,
        beq_eq_false_iff_ne.mpr (Ne.symm h)]
      rfl

-- The bytes of a comment after its first mark: its end is the first that can be one.
theorem ofCharacters_comment {cs : List Character} {n : Nat} (hcs : ∀ c ∈ cs, c.Faithful)
    (h : commentLength? cs = some n) :
    ∃ body, ofCharacters (cs.take n) = body ++ [42, 47] ∧
      Text.contains [42, 47] (body ++ [42]) = false := by
  induction cs generalizing n with
  | nil => cases h
  | cons c rest ih =>
      have hc := hcs c (by simp)
      rw [commentLength?] at h
      split at h
      · rename_i hmark
        obtain rfl := Option.some.inj h
        cases rest with
        | nil => simp at hmark
        | cons d rest =>
            simp only [List.head?_cons, Option.map_some, Option.some.injEq, Bool.and_eq_true,
              decide_eq_true_eq] at hmark
            have hd := hcs d (by simp)
            refine ⟨[], ?_, rfl⟩
            simp [ofCharacters, hc.bytes_eq (b := 42) (by decide) hmark.1,
              hd.bytes_eq (b := 47) (by decide) hmark.2]
      · rename_i hmark
        obtain ⟨m, hm, rfl⟩ := Option.map_eq_some_iff.mp h
        obtain ⟨body, hbytes, hbody⟩ := ih (fun d hd => hcs d (by simp [hd])) hm
        refine ⟨c.bytes ++ body, ?_, ?_⟩
        · simp [ofCharacters, ← hbytes]
        by_cases hstar : c.code = 42
        · have hslash : (body ++ [42]).head? ≠ some 47 := by
            intro hhead
            have hfirst : (ofCharacters (rest.take m)).head? = some 47 := by
              rw [hbytes, List.append_cons, List.head?_append, hhead]
              rfl
            rw [Text.head?_ofCharacters_eq_some_iff (fun d hd => hcs d
              (List.mem_cons_of_mem c (List.mem_of_mem_take hd))) (by decide)] at hfirst
            have hm : m ≠ 0 := by
              rintro rfl
              simp at hfirst
            rw [List.head?_take, if_neg hm] at hfirst
            simp [hstar, hfirst] at hmark
          rw [hc.bytes_eq (b := 42) (by decide) hstar, List.append_assoc, List.singleton_append,
            contains_star_cons hslash, hbody]
        · rw [List.append_assoc, Text.contains_append_of_notMem, hbody]
          rw [hc.mem_bytes_iff (by decide)]
          exact hstar

theorem exists_space {c : Character} (hc : c.Faithful) (h : isSpace c.code = true) :
    ∃ b : UInt8, (b = 32 ∨ b = 9 ∨ b = 10 ∨ b = 13) ∧ c.bytes = [b] := by
  simp only [isSpace, Bool.or_eq_true, decide_eq_true_eq] at h
  rcases h with ((h | h) | h) | h
  · exact ⟨32, by simp, hc.bytes_eq (by decide) h⟩
  · exact ⟨9, by simp, hc.bytes_eq (by decide) h⟩
  · exact ⟨10, by simp, hc.bytes_eq (by decide) h⟩
  · exact ⟨13, by simp, hc.bytes_eq (by decide) h⟩

theorem ofCharacters_pair {c d : Character} {a b : UInt8} (hc : c.bytes = [a])
    (hd : d.bytes = [b]) (rest : List Character) :
    ofCharacters (c :: d :: rest) = a :: b :: ofCharacters rest := by
  simp [ofCharacters, hc, hd]

-- The walk steps over the first of some characters, and what it steps over is a gap, whatever gap
-- follows it, or else is all that is left.
structure StepsOver (isLetter : Nat → Bool) (cs piece after : List Character) : Prop where
  cut : cs = piece ++ after
  ne_nil : piece ≠ []
  walk (pos : Position) : lexemesAfter 0 pos cs isLetter =
    lexemesAfter 0 (pos.afterAll piece) after isLetter
  gap : (∀ {last : Bool} {gap : Text}, Gap last gap → Gap last (ofCharacters piece ++ gap)) ∨
    after = [] ∧ Gap true (ofCharacters piece)

section Blanks

variable {c d : Character} {rest : List Character} {n : Nat}

theorem stepsOver_space (hc : c.Faithful) (hspace : isSpace c.code = true) :
    StepsOver isLetter (c :: rest) [c] rest where
  cut := rfl
  ne_nil := by simp
  walk pos := lexemesAfter_space pos hspace rest
  gap := by
    obtain ⟨b, hb, hbytes⟩ := exists_space hc hspace
    refine Or.inl fun gap => ?_
    simpa [ofCharacters, hbytes] using Gap.blank hb gap

-- With a comment to the end of its line goes the line feed that follows it, unless the input ends
-- there.
theorem exists_stepsOver_line (hcs : ∀ e ∈ c :: d :: rest, e.Faithful) (hslash : c.code = 47)
    (hslash' : d.code = 47)
    (hwalk : ∀ pos, lexemesAfter 0 pos (c :: d :: rest) isLetter =
      lexemesAfter 0 (pos.afterAll (c :: d :: rest.takeWhile (·.code ≠ 10)))
        (rest.dropWhile (·.code ≠ 10)) isLetter) :
    ∃ piece after, StepsOver isLetter (c :: d :: rest) piece after := by
  have hc := (hcs c (by simp)).bytes_eq (b := 47) (by decide) hslash
  have hd := (hcs d (by simp)).bytes_eq (b := 47) (by decide) hslash'
  have hcut : rest = rest.takeWhile (·.code ≠ 10) ++ rest.dropWhile (·.code ≠ 10) :=
    List.takeWhile_append_dropWhile.symm
  have hbody : 10 ∉ ofCharacters (rest.takeWhile (·.code ≠ 10)) := by
    rw [Text.mem_ofCharacters_iff (fun e he => hcs e
      (by simp [(List.takeWhile_sublist _).mem he])) (by decide)]
    rintro ⟨e, he, hcode⟩
    simpa [hcode] using List.mem_takeWhile_imp he
  have hhead := List.head?_dropWhile_not (·.code ≠ 10) rest
  generalize rest.takeWhile (·.code ≠ 10) = body at hcut hbody hwalk
  generalize rest.dropWhile (·.code ≠ 10) = more at hcut hhead hwalk
  subst hcut
  cases more with
  | nil =>
      refine ⟨c :: d :: body, [], by simp, by simp, hwalk, Or.inr ⟨rfl, ?_⟩⟩
      rw [ofCharacters_pair hc hd]
      exact .lastLine rfl hbody
  | cons e more =>
      have hcode : e.code = 10 := by simpa using hhead
      have hspace : isSpace e.code = true := by
        rw [hcode]
        rfl
      have hfeed := (hcs e (by simp)).bytes_eq (b := 10) (by decide) hcode
      have hpiece : ofCharacters (body ++ [e]) = ofCharacters body ++ [10] := by
        simp [ofCharacters, hfeed]
      refine ⟨c :: d :: (body ++ [e]), more, by simp, by simp, fun pos => ?_,
        Or.inl fun gap => ?_⟩
      · rw [hwalk, lexemesAfter_space _ hspace, ← List.cons_append, ← List.cons_append,
          Position.afterAll_append]
        rfl
      · rw [ofCharacters_pair hc hd, hpiece]
        simpa using Gap.line hbody gap

theorem stepsOver_block (hcs : ∀ e ∈ c :: d :: rest, e.Faithful) (hslash : c.code = 47)
    (hstar : d.code = 42) (hn : commentLength? rest = some n)
    (hwalk : ∀ pos, lexemesAfter 0 pos (c :: d :: rest) isLetter =
      lexemesAfter 0 (pos.afterAll (c :: d :: rest.take n)) (rest.drop n) isLetter) :
    StepsOver isLetter (c :: d :: rest) (c :: d :: rest.take n) (rest.drop n) where
  cut := by simp
  ne_nil := by simp
  walk := hwalk
  gap := by
    have hc := (hcs c (by simp)).bytes_eq (b := 47) (by decide) hslash
    have hd := (hcs d (by simp)).bytes_eq (b := 42) (by decide) hstar
    obtain ⟨body, hbytes, hbody⟩ := ofCharacters_comment (fun e he => hcs e (by simp [he])) hn
    refine Or.inl fun gap => ?_
    rw [ofCharacters_pair hc hd, hbytes]
    simpa using Gap.block hbody gap

-- A blank leaves a gap, and the walk goes on behind it.
theorem exists_stepsOver (hcs : ∀ d ∈ c :: rest, d.Faithful)
    (hfound : (scan c rest isLetter).found = .blank)
    (hblank : Blank c rest (scan c rest isLetter).extra) :
    ∃ piece after, StepsOver isLetter (c :: rest) piece after := by
  have hwalk : ∀ pos, lexemesAfter 0 pos (c :: rest) isLetter =
      lexemesAfter 0 (pos.afterAll (c :: rest.take (scan c rest isLetter).extra))
        (rest.drop (scan c rest isLetter).extra) isLetter := by
    intro pos
    rw [lexemesAfter_cons, hfound]
    rfl
  generalize (scan c rest isLetter).extra = extra at hblank hwalk
  cases hblank with
  | space hspace => exact ⟨[c], rest, stepsOver_space (hcs c (by simp)) hspace⟩
  | @line d rest hslash hslash' =>
      simp only [List.take_succ_cons, List.drop_succ_cons, take_runLength, drop_runLength] at hwalk
      exact exists_stepsOver_line hcs hslash hslash' hwalk
  | block hslash hstar hn =>
      simp only [List.take_succ_cons, List.drop_succ_cons] at hwalk
      exact ⟨_, _, stepsOver_block hcs hslash hstar hn hwalk⟩

end Blanks

theorem Tiles.lexeme {text : Text} {before taken after : List Character} {lexeme : Lexeme}
    {rest : List Lexeme} (h : text.characters = before ++ (taken ++ after)) (hne : taken ≠ [])
    (hspan : lexeme.span =
      ⟨Position.start.afterAll before, Position.start.afterAll (before ++ taken)⟩)
    (hliteral : ∀ token, lexeme = .token token → token.literal = ofCharacters taken)
    (tiles : Tiles text (ofCharacters (before ++ taken)).length rest) :
    Tiles text (ofCharacters before).length (lexeme :: rest) := by
  have htext := Text.eq_of_characters_eq h
  have hcut : text.characters = (before ++ taken) ++ after := by rw [h, List.append_assoc]
  have hfaithful := (Text.faithful_of_characters_eq h).2
  have hbytes : ofCharacters taken ≠ [] :=
    Text.ofCharacters_ne_nil (fun c hc => hfaithful c (List.mem_append_left _ hc)) hne
  have hpos := List.length_pos_iff.mpr hbytes
  have hlength := congrArg List.length htext
  simp only [Text.ofCharacters_append, List.length_append] at hlength
  have hslice : slice text (ofCharacters before).length (ofCharacters (before ++ taken)).length =
      ofCharacters taken := by
    rw [slice, htext]
    simp
  refine .next (Nat.le_refl _) ?_ ?_ ?_ ?_ ?_ tiles
  · simp only [Text.ofCharacters_append, List.length_append]
    omega
  · simp only [Text.ofCharacters_append, List.length_append]
    omega
  · rw [slice, Nat.sub_self]
    exact .nil
  · rw [hspan, Position.afterAll_start_eq_ofOffset h, Position.afterAll_start_eq_ofOffset hcut]
  · intro token htoken
    rw [hslice, hliteral token htoken]

-- From any of the characters of a text on, the walk tiles it.
theorem tiles_lexemesAfter {text : Text} {before after : List Character}
    (h : text.characters = before ++ after) :
    Tiles text (ofCharacters before).length
      (lexemesAfter 0 (Position.start.afterAll before) after isLetter) := by
  induction hn : after.length using Nat.strongRecOn generalizing before after with
  | _ n ih =>
      have hdrop : text.drop (ofCharacters before).length = ofCharacters after := by
        rw [Text.eq_of_characters_eq h, List.drop_left]
      cases after with
      | nil => exact .done (by rw [hdrop]; exact .nil)
      | cons c rest =>
          rcases scan_cases c rest isLetter with hlexeme | ⟨hfound, hblank⟩
          · generalize htaken : c :: rest.take (scan c rest isLetter).extra = taken
            have hcut : c :: rest = taken ++ rest.drop (scan c rest isLetter).extra := by
              rw [← htaken, List.cons_append, List.take_append_drop]
            obtain ⟨lexeme, hsome, hspan, htoken⟩ :=
              hlexeme.exists_lexeme (Position.start.afterAll before) taken
            rw [lexemesAfter_cons, htaken, hsome, ← Position.afterAll_append]
            rw [← Position.afterAll_append] at hspan
            rw [hcut] at h
            refine .lexeme h (by simp [← htaken]) hspan (fun t ht => (htoken t ht).2) ?_
            refine ih _ ?_ (by rw [h, List.append_assoc]) rfl
            simp only [List.length_cons, List.length_drop] at hn ⊢
            omega
          · have hfaithful := (Text.faithful_of_characters_eq h).2
            obtain ⟨piece, after, hcut, hne, hwalk, hgap⟩ :=
              exists_stepsOver hfaithful hfound hblank
            rw [hwalk, ← Position.afterAll_append]
            rw [hcut] at h
            rw [hcut, Text.ofCharacters_append] at hdrop
            rcases hgap with hgap | ⟨rfl, hgap⟩
            · refine .prepend hdrop hgap ?_
              rw [← List.length_append, ← Text.ofCharacters_append]
              refine ih _ ?_ (by rw [h, List.append_assoc]) rfl
              have hcount := congrArg List.length hcut
              have hpos := List.length_pos_iff.mpr hne
              rw [List.length_append, hn] at hcount
              omega
            · refine .done ?_
              rw [hdrop]
              simpa [ofCharacters] using hgap

theorem kind_ne_endOfInput_of_mem {pos : Position} {cs : List Character} {token : Token}
    (h : .token token ∈ lexemesAfter 0 pos cs isLetter) : token.kind ≠ .endOfInput := by
  induction hn : cs.length using Nat.strongRecOn generalizing pos cs with
  | _ n ih =>
      cases cs with
      | nil => cases h
      | cons c rest =>
          rw [lexemesAfter_cons, List.mem_append] at h
          rcases h with h | h
          · rcases scan_cases c rest isLetter with hlexeme | ⟨hfound, -⟩
            · obtain ⟨lexeme, hsome, -, htoken⟩ := hlexeme.exists_lexeme pos _
              rw [hsome, Option.toList_some, List.mem_singleton] at h
              exact (htoken token h.symm).1
            · rw [hfound] at h
              cases h
          · refine ih _ ?_ h rfl
            simp only [List.length_cons, List.length_drop] at hn ⊢
            omega

-- A source is read up to its first NUL. The lexemes tile that part, the end of the input stands
-- behind it, and reading one after the other gives these lexemes and then only the end. All of this
-- holds whichever code points are letters.
theorem lexemes_tile_source (source : Text) (isLetter : Nat → Bool) :
    lexemes source isLetter = lexemes (readable source) isLetter ∧
      endToken source = endToken (readable source) ∧
      Tiles (readable source) 0 (lexemes source isLetter) ∧
      (∀ token, .token token ∈ lexemes source isLetter → token.kind ≠ .endOfInput) ∧
      endToken source = ⟨.endOfInput, [], ⟨.ofOffset (readable source) (readable source).length,
        .ofOffset (readable source) (readable source).length⟩⟩ ∧
      ∀ n, (Reader.ofSource source).calls ((lexemes source isLetter).length + n) isLetter =
        lexemes source isLetter ++ List.replicate n (.token (endToken source)) := by
  have hvisible : visible source = visible (readable source) := by
    rw [visible_eq, visible_eq, readable_eq_self fun h => ne_zero_of_mem_readable h rfl]
  have hall : (readable source).characters = visible source ++ [] := by
    rw [visible_eq, List.append_nil]
  have hend := Position.afterAll_start_eq_ofOffset hall
  rw [visible_eq, Text.ofCharacters_characters, ← visible_eq] at hend
  refine ⟨?_, ?_, ?_, fun token => kind_ne_endOfInput_of_mem, ?_, fun n => ?_⟩
  · rw [lexemes, lexemes, hvisible]
  · rw [endToken, endToken, hvisible]
  · rw [lexemes, visible_eq]
    have hnone : (readable source).characters = [] ++ (readable source).characters := rfl
    exact tiles_lexemesAfter hnone
  · rw [endToken, hend]
  · exact (Reader.ofSource source).calls_eq n

end Lexer

end Tuga
