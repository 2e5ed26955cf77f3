import Tuga.Proofs.Token.Tiling

namespace Tuga.Lexer

open Text (characters ofCharacters)

section Take

variable {rest : List Character} {n : Nat}

theorem runLength_take (p : Nat → Bool) (rest : List Character) (n : Nat) :
    runLength p (rest.take n) = min n (runLength p rest) := by
  rw [runLength, runLength]
  induction rest generalizing n with
  | nil => simp
  | cons c rest ih =>
      cases n with
      | zero => simp
      | succ n =>
          rw [List.take_succ_cons, List.takeWhile_cons, List.takeWhile_cons]
          split
          · rw [List.length_cons, List.length_cons, ih]
            omega
          · simp

theorem head?_take_succ (rest : List Character) (n : Nat) :
    (rest.take (n + 1)).head? = rest.head? := by
  rw [List.head?_take, if_neg (Nat.succ_ne_zero n)]

theorem commentLength?_take {k : Nat} (h : commentLength? rest = some k) (hk : k ≤ n) :
    commentLength? (rest.take n) = some k := by
  induction rest generalizing k n with
  | nil => cases h
  | cons c rest ih =>
      rw [commentLength?] at h
      split at h
      · rename_i hend
        obtain rfl := Option.some.inj h
        obtain ⟨n, rfl⟩ := Nat.exists_eq_add_of_le' hk
        rw [List.take_succ_cons, commentLength?, head?_take_succ, if_pos hend]
      · rename_i hend
        obtain ⟨m, hm, rfl⟩ := Option.map_eq_some_iff.mp h
        obtain ⟨n, rfl⟩ : ∃ n', n = n' + 1 := ⟨n - 1, by omega⟩
        rw [List.take_succ_cons, commentLength?, ih hm (by omega), if_neg]
        · rfl
        · -- a comment that goes on has more than the asterisk in it
          intro hend'
          cases n with
          | zero => simp at hend'
          | succ n =>
              rw [head?_take_succ] at hend'
              exact hend hend'

theorem scanText_take (h : (scanText rest).extra ≤ n) : scanText (rest.take n) = scanText rest := by
  have hrun := runLength_take (fun code => code ≠ 34 && code ≠ 10) rest n
  unfold scanText at h ⊢
  dsimp only at h ⊢
  rw [hrun]
  generalize runLength (fun code => code ≠ 34 && code ≠ 10) rest = body at h
  split at h
  · rename_i hquote
    have hmin : min n body = body := by dsimp only at h; omega
    have hsome : n - body ≠ 0 := by dsimp only at h; omega
    rw [hmin, List.drop_take, List.head?_take, if_neg hsome, if_pos hquote]
  · rename_i hquote
    have hmin : min n body = body := by dsimp only at h; omega
    rw [hmin, List.drop_take, List.head?_take, if_neg hquote, if_neg]
    split
    · simp
    · exact hquote

theorem scanNumber_take (h : (scanNumber rest).extra ≤ n) :
    scanNumber (rest.take n) = scanNumber rest := by
  have hrun := runLength_take isDigit rest n
  unfold scanNumber at h ⊢
  dsimp only at h ⊢
  rw [hrun]
  generalize runLength isDigit rest = whole at h
  cases hdrop : rest.drop whole with
  | nil =>
      rw [hdrop] at h
      dsimp only at h
      rw [Nat.min_eq_right h, List.drop_take, hdrop, List.take_nil]
  | cons point fraction =>
      rw [hdrop] at h
      dsimp only at h
      have hwhole : whole ≤ n := by
        split at h <;> dsimp only at h <;> omega
      obtain ⟨k, rfl⟩ := Nat.exists_eq_add_of_le hwhole
      rw [Nat.min_eq_right hwhole, List.drop_take, hdrop, Nat.add_sub_cancel_left]
      cases k with
      | zero =>
          rw [List.take_zero]
          dsimp only
          split at h
          · dsimp only at h
            omega
          · rename_i hpoint
            rw [if_neg hpoint]
      | succ k =>
          rw [List.take_succ_cons]
          dsimp only
          rw [runLength_take]
          split at h
          · rename_i hpoint
            dsimp only at h
            have hplaces : min k (runLength isDigit fraction) = runLength isDigit fraction := by
              omega
            rw [hplaces, if_pos hpoint]
          · rename_i hpoint
            rw [if_neg hpoint, if_neg]
            simp only [Bool.and_eq_true, decide_eq_true_eq] at hpoint ⊢
            omega

theorem scanWord_take {c : Character} (h : (scanWord Text.isLetter c rest).extra ≤ n) :
    scanWord Text.isLetter c (rest.take n) = scanWord Text.isLetter c rest := by
  have hrun := runLength_take (isWordPart Text.isLetter) rest n
  have hextra : (scanWord Text.isLetter c rest).extra =
      runLength (isWordPart Text.isLetter) rest := by
    unfold scanWord
    dsimp only
    split <;> rfl
  rw [hextra] at h
  unfold scanWord
  dsimp only
  rw [hrun, Nat.min_eq_right h, List.take_take, Nat.min_eq_left h]

theorem scanBlockComment_take {d : Character}
    (h : (scanBlockComment (d :: rest)).extra ≤ n + 1) :
    scanBlockComment (d :: rest.take n) = scanBlockComment (d :: rest) := by
  unfold scanBlockComment at h ⊢
  simp only [List.drop_succ_cons, List.drop_zero] at h ⊢
  cases hlength : commentLength? rest with
  | some k =>
      rw [hlength] at h
      dsimp only at h
      rw [commentLength?_take hlength (by omega)]
  | none =>
      rw [hlength] at h
      dsimp only [List.length_cons] at h
      rw [List.take_of_length_le (by omega), hlength]

theorem scanSymbol_eq {symbol : Symbol} {next : Option Nat}
    (h : (scanSymbol symbol next).extra = 0) :
    scanSymbol symbol next = scanSymbol symbol none := by
  have hnone : scanSymbol symbol none = ⟨.token (.symbol symbol), 0⟩ := by
    cases symbol <;> rfl
  rw [hnone]
  unfold scanSymbol at h ⊢
  split at h
  · cases h
  · cases h
  · rfl

theorem scanSymbol_take {symbol : Symbol}
    (h : (scanSymbol symbol (rest.head?.map Character.code)).extra ≤ n) :
    scanSymbol symbol ((rest.take n).head?.map Character.code) =
      scanSymbol symbol (rest.head?.map Character.code) := by
  cases n with
  | succ n => rw [head?_take_succ]
  | zero => exact (scanSymbol_eq (Nat.le_zero.mp h)).symm

-- What starts at a character that starts no comment.
def scanPlain (c : Character) (rest : List Character) : Scan :=
  if isSpace c.code then ⟨.blank, 0⟩
  else
    match symbol? c.code with
    | some symbol => scanSymbol symbol (rest.head?.map Character.code)
    | none =>
      if c.code = 34 then scanText rest
      else if isDigit c.code then scanNumber rest
      else if Text.isLetter c.code then scanWord Text.isLetter c rest
      else ⟨.error (.unexpectedCharacter c.code), 0⟩

theorem scan_eq_scanPlain {c : Character}
    (h : ∀ d ∈ rest.head?, c.code = 47 → d.code ≠ 47 ∧ d.code ≠ 42) :
    scan c rest = scanPlain c rest := by
  have hmark (mark : Nat) (hmark : mark = 47 ∨ mark = 42) :
      (decide (c.code = 47) && decide (rest.head?.map Character.code = some mark)) = false := by
    rw [Bool.and_eq_false_iff, decide_eq_false_iff_not, decide_eq_false_iff_not, ← not_and_or]
    rintro ⟨hslash, hnext⟩
    obtain ⟨d, hd, rfl⟩ := Option.map_eq_some_iff.mp hnext
    have hd := h d hd hslash
    omega
  unfold scan scanPlain
  dsimp only
  rw [hmark 47 (.inl rfl), hmark 42 (.inr rfl)]
  rfl

theorem scanPlain_take {c : Character} (h : (scanPlain c rest).extra ≤ n) :
    scanPlain c (rest.take n) = scanPlain c rest := by
  unfold scanPlain at h ⊢
  split
  · rfl
  rename_i hspace
  rw [if_neg hspace] at h
  split
  · rename_i symbol hsymbol
    rw [hsymbol] at h
    exact scanSymbol_take h
  rename_i hsymbol
  rw [hsymbol] at h
  dsimp only at h
  split
  · rename_i hquote
    rw [if_pos hquote] at h
    exact scanText_take h
  rename_i hquote
  rw [if_neg hquote] at h
  split
  · rename_i hdigit
    rw [if_pos hdigit] at h
    exact scanNumber_take h
  rename_i hdigit
  rw [if_neg hdigit] at h
  split
  · rename_i hletter
    rw [if_pos hletter] at h
    exact scanWord_take h
  · rfl

-- A scan looks no further than to the end of what it takes.
theorem scan_take (c : Character) (rest : List Character) (h : (scan c rest).extra ≤ n) :
    scan c (rest.take n) = scan c rest := by
  by_cases hplain : ∀ d ∈ rest.head?, c.code = 47 → d.code ≠ 47 ∧ d.code ≠ 42
  · have htake : ∀ d ∈ (rest.take n).head?, c.code = 47 → d.code ≠ 47 ∧ d.code ≠ 42 := by
      intro d hd
      rw [List.head?_take] at hd
      split at hd
      · cases hd
      · exact hplain d hd
    rw [scan_eq_scanPlain hplain] at h
    rw [scan_eq_scanPlain hplain, scan_eq_scanPlain htake, scanPlain_take h]
  -- a comment takes its second mark, so there is something left after the cut
  · push Not at hplain
    obtain ⟨d, hd, hslash, hmark⟩ := hplain
    obtain ⟨rest, rfl⟩ := List.head?_eq_some_iff.mp hd
    by_cases hline : d.code = 47
    · have hscan : ∀ rest, scan c (d :: rest) = scanLineComment (d :: rest) := by
        intro rest
        simp [scan, hslash, hline, isSpace]
      have hrun : runLength (· ≠ 10) (d :: rest) = runLength (· ≠ 10) rest + 1 := by
        simp [runLength, hline]
      rw [hscan, scanLineComment, hrun] at h
      obtain ⟨n, rfl⟩ := Nat.exists_eq_add_of_le' (Nat.le_trans (Nat.le_add_left 1 _) h)
      have htake := runLength_take (· ≠ 10) (d :: rest) (n + 1)
      rw [hrun, Nat.min_eq_right h, ← hrun, List.take_succ_cons] at htake
      rw [List.take_succ_cons, hscan, hscan, scanLineComment, scanLineComment, htake]
    · have hscan : ∀ rest, scan c (d :: rest) = scanBlockComment (d :: rest) := by
        intro rest
        simp [scan, hslash, hmark hline, isSpace]
      have hpos : 1 ≤ (scanBlockComment (d :: rest)).extra := by
        unfold scanBlockComment
        split <;> simp
      rw [hscan] at h
      obtain ⟨n, rfl⟩ := Nat.exists_eq_add_of_le' (Nat.le_trans hpos h)
      rw [List.take_succ_cons, hscan, hscan, scanBlockComment_take h]

end Take

section Cut

variable {pos : Position} {cs : List Character} {first second : List Lexeme} {lexeme : Lexeme}

theorem exists_start (h : lexemesAfter 0 pos cs = first ++ lexeme :: second) :
    ∃ before after, cs = before ++ after ∧ lexeme.span.start = pos.afterAll before ∧
      lexemesAfter 0 (pos.afterAll before) after = lexeme :: second := by
  induction hn : cs.length using Nat.strongRecOn generalizing pos cs first with
  | _ n ih =>
      cases cs with
      | nil => simp [lexemesAfter] at h
      | cons c rest =>
          have hwalk := h
          rw [lexemesAfter_cons] at h
          have hlater : ∀ first, lexemesAfter 0 (pos.afterAll (c :: rest.take (scan c rest).extra))
              (rest.drop (scan c rest).extra) = first ++ lexeme :: second →
              ∃ before after, c :: rest = before ++ after ∧
                lexeme.span.start = pos.afterAll before ∧
                lexemesAfter 0 (pos.afterAll before) after = lexeme :: second := by
            intro first hrest
            obtain ⟨before, after, hcut, hstart, hafter⟩ := ih _ (by
              simp only [List.length_drop, List.length_cons] at hn ⊢
              omega) hrest rfl
            refine ⟨c :: rest.take (scan c rest).extra ++ before, after, ?_, ?_, ?_⟩
            · rw [List.append_assoc, ← hcut, List.cons_append, List.take_append_drop]
            · rw [Position.afterAll_append, hstart]
            · rw [Position.afterAll_append, hafter]
          rcases scan_cases c rest with hlexeme | ⟨hfound, -⟩
          · obtain ⟨found, hsome, hspan, -⟩ :=
              hlexeme.exists_lexeme pos (c :: rest.take (scan c rest).extra)
            rw [hsome, Option.toList_some, List.singleton_append] at h
            cases first with
            | nil =>
                refine ⟨[], c :: rest, rfl, ?_, hwalk⟩
                rw [List.nil_append, List.cons.injEq] at h
                rw [← h.1, hspan]
                rfl
            | cons _ first => exact hlater first (List.cons.inj h).2
          · rw [hfound] at h
            exact hlater first h

theorem lexemesAfter_cut (pos : Position) {c : Character} {rest before after : List Character}
    (h : rest.drop (scan c rest).extra = before ++ after) :
    lexemesAfter 0 pos (c :: rest.take (scan c rest).extra ++ before) =
      ((scan c rest).found.lexeme? pos (c :: rest.take (scan c rest).extra)).toList ++
        lexemesAfter 0 (pos.afterAll (c :: rest.take (scan c rest).extra)) before := by
  have hlength := List.length_take_of_le (scan_extra_le c rest)
  have htake : rest.take (scan c rest).extra ++ before =
      rest.take ((scan c rest).extra + before.length) := by
    rw [List.take_add, h, List.take_left]
  have hscan := scan_take c rest (Nat.le_add_right (scan c rest).extra before.length)
  rw [List.cons_append, htake, lexemesAfter_cons, hscan, ← htake, List.take_append_of_le_length,
    List.drop_append_of_le_length, List.take_of_length_le, List.drop_of_length_le,
    List.nil_append]
  all_goals omega

-- A source can be cut right behind a lexeme, and what stands before the cut is read as before.
theorem exists_end (hne : first ≠ []) (h : lexemesAfter 0 pos cs = first ++ second) :
    ∃ before after, cs = before ++ after ∧ lexemesAfter 0 pos before = first ∧
      ∀ last ∈ first.getLast?, last.span.stop = pos.afterAll before := by
  induction hn : cs.length using Nat.strongRecOn generalizing pos cs first with
  | _ n ih =>
      cases cs with
      | nil => exact absurd (List.append_eq_nil_iff.mp h.symm).1 hne
      | cons c rest =>
          rw [lexemesAfter_cons] at h
          generalize htaken : c :: rest.take (scan c rest).extra = taken at h
          have hcut : c :: rest = taken ++ rest.drop (scan c rest).extra := by
            rw [← htaken, List.cons_append, List.take_append_drop]
          have hlater : ∀ later ≠ [], lexemesAfter 0 (pos.afterAll taken)
              (rest.drop (scan c rest).extra) = later ++ second →
              ∃ before after, c :: rest = before ++ after ∧
                lexemesAfter 0 pos before =
                  ((scan c rest).found.lexeme? pos taken).toList ++ later ∧
                ∀ last ∈ later.getLast?, last.span.stop = pos.afterAll before := by
            intro later hlater hrest
            obtain ⟨before, after, hrest, hbefore, hlast⟩ := ih _ (by
              simp only [List.length_drop, List.length_cons] at hn ⊢
              omega) hlater hrest rfl
            refine ⟨taken ++ before, after, ?_, ?_, ?_⟩
            · rw [List.append_assoc, ← hrest, ← hcut]
            · rw [← htaken, lexemesAfter_cut pos hrest, htaken, hbefore]
            · rw [Position.afterAll_append]
              exact hlast
          rcases scan_cases c rest with hlexeme | ⟨hfound, -⟩
          · obtain ⟨found, hsome, hspan, -⟩ := hlexeme.exists_lexeme pos taken
            obtain ⟨lexeme, first, rfl⟩ := List.exists_cons_of_ne_nil hne
            rw [hsome] at h hlater
            rw [Option.toList_some, List.singleton_append, List.cons_append, List.cons.injEq] at h
            obtain ⟨rfl, hrest⟩ := h
            cases first with
            | nil =>
                refine ⟨taken, _, hcut, ?_, ?_⟩
                · have hdrop : rest.drop (scan c rest).extra =
                      [] ++ rest.drop (scan c rest).extra := rfl
                  have halone := lexemesAfter_cut pos hdrop
                  rw [List.append_nil, htaken, hsome] at halone
                  exact halone
                · rintro _ ⟨⟩
                  exact congrArg Span.stop hspan
            | cons next first => exact hlater (next :: first) (by simp) hrest
          · rw [hfound] at h hlater
            exact hlater first hne h

end Cut

-- A stretch of a source from the start of a lexeme to the end of the same or a later one shows the
-- lexemes between them.
theorem faces_slice {source : Text} {before within after : List Lexeme} {first last : Lexeme}
    (h : lexemes source = before ++ (within ++ after)) (hfirst : first ∈ within.head?)
    (hlast : last ∈ within.getLast?) :
    ∃ start stop : Nat, first.span.start.offset = start ∧ last.span.stop.offset = stop ∧
      start ≤ stop ∧ stop ≤ source.length ∧
      (lexemes (slice source start stop)).map Lexeme.face = within.map Lexeme.face := by
  obtain ⟨more, rfl⟩ := List.head?_eq_some_iff.mp hfirst
  rw [List.cons_append] at h
  obtain ⟨skipped, rest, hvisible, hstart, hrest⟩ := exists_start h
  rw [← List.cons_append] at hrest
  obtain ⟨stretch, rest, rfl, hstretch, hstop⟩ := exists_end (List.cons_ne_nil _ _) hrest
  rw [visible_eq] at hvisible
  have hcut : characters (readable source) = (skipped ++ stretch) ++ rest := by
    rw [hvisible, List.append_assoc]
  have hsource : source = ofCharacters skipped ++ (ofCharacters stretch ++
      (ofCharacters rest ++ source.dropWhile (· ≠ 0))) := by
    have hreadable := Text.eq_of_characters_eq hvisible
    rw [Text.ofCharacters_append] at hreadable
    have hwhole : readable source ++ source.dropWhile (· ≠ 0) = source :=
      List.takeWhile_append_dropWhile
    rw [← List.append_assoc (ofCharacters stretch), ← List.append_assoc, ← hreadable, hwhole]
  refine ⟨(ofCharacters skipped).length, (ofCharacters (skipped ++ stretch)).length, ?_, ?_, ?_, ?_,
    ?_⟩
  · rw [hstart, Position.afterAll_start_eq_ofOffset hvisible]
    rfl
  · rw [hstop last hlast, ← Position.afterAll_append, Position.afterAll_start_eq_ofOffset hcut]
    rfl
  · simp
  · have hlength := congrArg List.length hsource
    simp only [Text.ofCharacters_append, List.length_append] at hlength ⊢
    omega
  · have hslice : slice source (ofCharacters skipped).length
        (ofCharacters (skipped ++ stretch)).length = ofCharacters stretch := by
      rw [slice, hsource]
      simp
    have hcharacters : characters (ofCharacters stretch) = stretch := by
      have hrest := (Text.characters_split hvisible).2
      exact (Text.characters_split hrest).1
    have hplain : 0 ∉ ofCharacters stretch := by
      intro hmem
      have hzero : 0 ∈ readable source := by
        rw [Text.eq_of_characters_eq hvisible, Text.ofCharacters_append]
        simp [hmem]
      exact ne_zero_of_mem_readable hzero rfl
    rw [hslice, lexemes, visible_eq, readable_eq_self hplain, hcharacters, ← hstretch]
    exact faces_lexemesAfter 0 _ _ _

end Tuga.Lexer
