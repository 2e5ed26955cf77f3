import Tuga.Proofs.Text.Digits
import Tuga.Proofs.Token.Tiling

namespace Tuga

def Character.ofByte (b : UInt8) : Character := ⟨b.toNat, [b]⟩

namespace Text

theorem characters_ascii_append {text : Text} (h : ∀ b ∈ text, b.toNat < 0x80) (rest : Text) :
    (text ++ rest).characters = text.map Character.ofByte ++ rest.characters := by
  induction text with
  | nil => rfl
  | cons b text ih =>
      rw [List.forall_mem_cons] at h
      rw [List.cons_append, characters_ascii_cons h.1, ih h.2]
      rfl

theorem ofCharacters_ascii (text : Text) :
    ofCharacters (text.map Character.ofByte) = text := by
  induction text with
  | nil => rfl
  | cons b text ih => exact congrArg (b :: ·) ih

theorem isLetter_of_lower {code : Nat} (hlow : 97 ≤ code) (hhigh : code ≤ 122) :
    isLetter code = true := by
  have hmem : (⟨0x61, 0x7A⟩ : CodeRange) ∈ letterRanges :=
    List.mem_cons_of_mem _ List.mem_cons_self
  refine List.any_eq_true.mpr ⟨_, hmem, ?_⟩
  simpa [CodeRange.contains] using ⟨hlow, hhigh⟩

end Text

namespace Keyword

theorem word_ne_nil (k : Keyword) : k.word ≠ [] := by
  cases k <;> decide

theorem lower_of_mem_word {k : Keyword} {b : UInt8} (hb : b ∈ k.word) :
    97 ≤ b.toNat ∧ b.toNat ≤ 122 := by
  have hall : k.word.all (fun b => 97 ≤ b.toNat && b.toNat ≤ 122) = true := by
    cases k <;> decide
  simpa using List.all_eq_true.mp hall b hb

theorem ofWord?_word (k : Keyword) : ofWord? k.word = some k := by
  cases k <;> decide

end Keyword

namespace Lexer

open Text (characters ofCharacters Digits)

-- The texts that a token of each kind may be written with.
inductive Spells : Token.Kind → Text → Prop where
  | integer {digits : Text} (hdigits : Digits digits) : Spells .integer digits
  | real {whole fraction : Text} (hwhole : Digits whole) (hfraction : Digits fraction) :
      Spells .real (whole ++ 46 :: fraction)
  | text {body : Text} (hquote : 34 ∉ body) (hfeed : 10 ∉ body) (hnul : 0 ∉ body) :
      Spells .text (34 :: (body ++ [34]))
  | keyword (k : Keyword) : Spells (.keyword k) k.word
  | symbol (s : Symbol) : Spells (.symbol s) s.text

-- The bytes that separate tokens: space, tab, line feed and carriage return.
def IsBlank (b : UInt8) : Prop := b = 32 ∨ b = 9 ∨ b = 10 ∨ b = 13

-- Blanks and closed comments, of which a blank comes first.
structure Separates (text : Text) : Prop where
  gap : Gap false text
  blank : ∃ b ∈ text.head?, IsBlank b
  plain : 0 ∉ text

-- A text that holds the given tokens, with a separator before, between and after them.
inductive Renders : List (Token.Kind × Text) → Text → Prop where
  | nil {separator : Text} (hseparator : Separates separator) : Renders [] separator
  | cons {separator literal rest : Text} {kind : Token.Kind} {tokens : List (Token.Kind × Text)}
      (hseparator : Separates separator) (hliteral : Spells kind literal)
      (more : Renders tokens rest) :
      Renders ((kind, literal) :: tokens) (separator ++ (literal ++ rest))

def faces (cs : List Character) : List (Option Token.Kind × Text) :=
  (lexemesAfter 0 .start cs).map Lexeme.face

section Faces

variable {c : Character} {rest more : List Character}

theorem faces_of_blank {n : Nat} (h : scan c rest = ⟨.blank, n⟩) :
    faces (c :: rest) = faces (rest.drop n) := by
  rw [faces, lexemesAfter_cons, h]
  exact faces_lexemesAfter 0 _ _ _

theorem faces_of_token {kind : Token.Kind}
    (h : scan c (rest ++ more) = ⟨.token kind, rest.length⟩) :
    faces (c :: rest ++ more) = (some kind, ofCharacters (c :: rest)) :: faces more := by
  rw [faces, List.cons_append, lexemesAfter_cons, h]
  simp only [List.take_left, List.drop_left]
  exact congrArg _ (faces_lexemesAfter 0 _ _ _)

end Faces

section Scan

variable {c : Character} {run more : List Character}

theorem runLength_run {p : Nat → Bool} (hrun : ∀ c ∈ run, p c.code = true)
    (hmore : ∀ c ∈ more.head?, p c.code = false) : runLength p (run ++ more) = run.length := by
  have hstop : more.takeWhile (fun c => p c.code) = [] := by
    cases more with
    | nil => rfl
    | cons d more => exact List.takeWhile_cons_of_neg (by simpa using hmore d rfl)
  rw [runLength, List.takeWhile_append_of_pos hrun, hstop, List.append_nil]

theorem isSpace_iff {code : Nat} :
    isSpace code = true ↔ code = 32 ∨ code = 9 ∨ code = 10 ∨ code = 13 := by
  simp [isSpace, or_assoc]

theorem symbol?_eq_none {code : Nat} (hlow : 48 ≤ code)
    (hne : code ≠ 59 ∧ code ≠ 60 ∧ code ≠ 62) : symbol? code = none := by
  fun_cases symbol? code <;> simp_all

theorem symbol?_eq_some {code : Nat} {symbol : Symbol} (h : symbol? code = some symbol) :
    isSpace code = false ∧ code < 0x80 := by
  rw [symbol?.eq_def] at h
  split at h <;> cases h <;> decide

theorem scan_digit (h : isDigit c.code = true) (rest : List Character) :
    scan c rest = scanNumber rest := by
  have hrange : 48 ≤ c.code ∧ c.code ≤ 57 := by simpa [isDigit] using h
  have hspace : isSpace c.code = false := by grind [isSpace]
  have hsymbol : symbol? c.code = none := symbol?_eq_none hrange.1 (by omega)
  have hslash : c.code ≠ 47 := by omega
  have hquote : c.code ≠ 34 := by omega
  simp [scan, hspace, hsymbol, hslash, hquote, h]

theorem scan_lower (hlow : 97 ≤ c.code) (hhigh : c.code ≤ 122) (rest : List Character) :
    scan c rest = scanWord Text.isLetter c rest := by
  have hspace : isSpace c.code = false := by grind [isSpace]
  have hsymbol : symbol? c.code = none := symbol?_eq_none (by omega) (by omega)
  have hdigit : isDigit c.code = false := by grind [isDigit]
  have hslash : c.code ≠ 47 := by omega
  have hquote : c.code ≠ 34 := by omega
  simp [scan, hspace, hsymbol, hdigit, hslash, hquote, Text.isLetter_of_lower hlow hhigh]

theorem scan_symbol {d : Character} {symbol : Symbol} (hc : symbol? c.code = some symbol)
    (hd : d.code ≠ 47 ∧ d.code ≠ 42) :
    scan c (d :: more) = scanSymbol symbol (some d.code) := by
  have hspace := (symbol?_eq_some hc).1
  simp [scan, hspace, hd, hc]

variable (hrun : ∀ c ∈ run, isDigit c.code = true)

include hrun

theorem scanNumber_integer
    (hmore : ∀ c ∈ more.head?, isDigit c.code = false ∧ c.code ≠ 46) :
    scanNumber (run ++ more) = ⟨.token .integer, run.length⟩ := by
  have hwhole := runLength_run hrun fun c hc => (hmore c hc).1
  unfold scanNumber
  dsimp only
  rw [hwhole, List.drop_left]
  cases more with
  | nil => rfl
  | cons d more => simp [(hmore d rfl).2]

theorem scanNumber_real {point : Character} {fraction : List Character} (hpoint : point.code = 46)
    (hne : fraction ≠ []) (hfraction : ∀ c ∈ fraction, isDigit c.code = true)
    (hmore : ∀ c ∈ more.head?, isDigit c.code = false) :
    scanNumber (run ++ point :: (fraction ++ more)) =
      ⟨.token .real, run.length + 1 + fraction.length⟩ := by
  have hwhole : runLength isDigit (run ++ point :: (fraction ++ more)) = run.length :=
    runLength_run hrun (by simp [hpoint, isDigit])
  have hplaces := runLength_run hfraction hmore
  unfold scanNumber
  dsimp only
  rw [hwhole, List.drop_left]
  simp [hplaces, hpoint, List.length_pos_iff.mpr hne]

end Scan

section Spelling

variable {b : UInt8} {rest : Text} {kind : Token.Kind}

-- A token of ASCII bytes is read as one if it is scanned to its end.
theorem faces_ascii (literal : Text) (hascii : ∀ d ∈ b :: literal, d.toNat < 0x80)
    (hscan : scan (.ofByte b) (literal.map Character.ofByte ++ characters rest) =
      ⟨.token kind, literal.length⟩) :
    faces (characters (b :: literal ++ rest)) =
      (some kind, b :: literal) :: faces (characters rest) := by
  have hface := Text.ofCharacters_ascii (b :: literal)
  rw [List.map_cons] at hface
  rw [Text.characters_ascii_append hascii, List.map_cons, faces_of_token, hface]
  rw [hscan, List.length_map]

theorem isDigit_of_mem {digits : Text} (h : ∀ d ∈ digits, 48 ≤ d.toNat ∧ d.toNat ≤ 57) :
    ∀ c ∈ digits.map Character.ofByte, isDigit c.code = true := by
  rw [List.forall_mem_map]
  intro d hd
  rw [isDigit, Bool.and_eq_true, decide_eq_true_eq, decide_eq_true_eq]
  exact h d hd

variable (hrest : ∃ b ∈ rest.head?, IsBlank b)

include hrest

theorem exists_blank :
    ∃ c more, characters rest = c :: more ∧ isSpace c.code = true := by
  obtain ⟨b, hb, hblank⟩ := hrest
  obtain ⟨more, rfl⟩ := List.head?_eq_some_iff.mp hb
  have hcode : isSpace b.toNat = true ∧ b.toNat < 0x80 := by
    rcases hblank with rfl | rfl | rfl | rfl <;> decide
  exact ⟨_, _, Text.characters_ascii_cons hcode.2 more, hcode.1⟩

theorem eq_false_of_blank {p : Nat → Bool}
    (hp : p 32 = false ∧ p 9 = false ∧ p 10 = false ∧ p 13 = false) :
    ∀ c ∈ (characters rest).head?, p c.code = false := by
  obtain ⟨c, more, hcs, hspace⟩ := exists_blank hrest
  rw [hcs]
  rintro _ ⟨⟩
  rcases isSpace_iff.mp hspace with hcode | hcode | hcode | hcode <;> simp [hcode, hp]

theorem faces_integer {digits : Text} (hdigits : Digits digits) :
    faces (characters (digits ++ rest)) = (some .integer, digits) :: faces (characters rest) := by
  have hrange := hdigits.range
  obtain ⟨b, digits, rfl⟩ := List.exists_cons_of_ne_nil hdigits.ne_nil
  have hfirst : isDigit (Character.ofByte b).code = true := isDigit_of_mem hrange _ (by simp)
  refine faces_ascii digits (fun d hd => by have := hrange d hd; omega) ?_
  rw [scan_digit hfirst, scanNumber_integer, List.length_map]
  · exact isDigit_of_mem fun d hd => hrange d (List.mem_cons_of_mem b hd)
  · intro c hc
    have hdigit := eq_false_of_blank hrest (p := isDigit) (by decide) c hc
    have hpoint := eq_false_of_blank hrest (p := (· == 46)) (by decide) c hc
    exact ⟨hdigit, by simpa using hpoint⟩

theorem faces_real {whole fraction : Text} (hwhole : Digits whole) (hfraction : Digits fraction) :
    faces (characters (whole ++ 46 :: fraction ++ rest)) =
      (some .real, whole ++ 46 :: fraction) :: faces (characters rest) := by
  have hrange := hwhole.range
  obtain ⟨b, whole, rfl⟩ := List.exists_cons_of_ne_nil hwhole.ne_nil
  have hfirst : isDigit (Character.ofByte b).code = true := isDigit_of_mem hrange _ (by simp)
  have hascii : ∀ d ∈ b :: (whole ++ 46 :: fraction), d.toNat < 0x80 := by
    intro d hd
    rw [← List.cons_append, List.mem_append, List.mem_cons (l := fraction)] at hd
    rcases hd with hd | hd | hd
    · have := hrange d hd
      omega
    · rw [hd]
      decide
    · have := hfraction.range d hd
      omega
  refine faces_ascii (whole ++ 46 :: fraction) hascii ?_
  rw [scan_digit hfirst, List.map_append, List.map_cons, List.append_assoc, List.cons_append,
    scanNumber_real]
  · simp only [List.length_map, List.length_append, List.length_cons]
    congr 1
    omega
  · exact isDigit_of_mem fun d hd => hrange d (List.mem_cons_of_mem b hd)
  · rfl
  · simpa using hfraction.ne_nil
  · exact isDigit_of_mem hfraction.range
  · exact eq_false_of_blank hrest (by decide)

theorem faces_keyword (k : Keyword) :
    faces (characters (k.word ++ rest)) =
      (some (.keyword k), k.word) :: faces (characters rest) := by
  have hlower := fun d => Keyword.lower_of_mem_word (k := k) (b := d)
  have hword := k.ofWord?_word
  obtain ⟨b, word, hk⟩ := List.exists_cons_of_ne_nil k.word_ne_nil
  rw [hk] at hlower hword ⊢
  refine faces_ascii word (fun d hd => by have := hlower d hd; omega) ?_
  have hextra : runLength (isWordPart Text.isLetter)
      (word.map Character.ofByte ++ characters rest) =
      word.length := by
    rw [runLength_run, List.length_map]
    · rw [List.forall_mem_map]
      intro d hd
      obtain ⟨hlow, hhigh⟩ := hlower d (List.mem_cons_of_mem b hd)
      have hletter : Text.isLetter d.toNat = true := Text.isLetter_of_lower hlow hhigh
      simp [isWordPart, Character.ofByte, hletter]
    · exact eq_false_of_blank hrest (by decide +kernel)
  obtain ⟨hlow, hhigh⟩ := hlower b List.mem_cons_self
  have htaken : ofCharacters (.ofByte b :: word.map Character.ofByte) = b :: word :=
    Text.ofCharacters_ascii (b :: word)
  rw [scan_lower hlow hhigh, scanWord]
  rw [hextra, ← List.length_map Character.ofByte, List.take_left, htaken, hword]

theorem faces_single {s : Symbol} (hs : symbol? b.toNat = some s) :
    faces (characters (b :: rest)) = (some (.symbol s), [b]) :: faces (characters rest) := by
  obtain ⟨c, more, hcs, hspace⟩ := exists_blank hrest
  have hnext : c.code ≠ 47 ∧ c.code ≠ 42 ∧ c.code ≠ 61 := by
    rw [isSpace_iff] at hspace
    omega
  have hascii := (symbol?_eq_some hs).2
  refine faces_ascii [] (by simpa using hascii) ?_
  rw [List.map_nil, List.nil_append, hcs, scan_symbol hs ⟨hnext.1, hnext.2.1⟩]
  simp [scanSymbol, hnext.2.2]

theorem faces_symbol (s : Symbol) :
    faces (characters (s.text ++ rest)) =
      (some (.symbol s), s.text) :: faces (characters rest) := by
  cases s with
  | plus => exact faces_single (b := 43) hrest rfl
  | minus => exact faces_single (b := 45) hrest rfl
  | star => exact faces_single (b := 42) hrest rfl
  | slash => exact faces_single (b := 47) hrest rfl
  | percent => exact faces_single (b := 37) hrest rfl
  | less => exact faces_single (b := 60) hrest rfl
  | lessEq => exact faces_ascii (b := 60) [61] (by simp) rfl
  | greater => exact faces_single (b := 62) hrest rfl
  | greaterEq => exact faces_ascii (b := 62) [61] (by simp) rfl
  | leftParen => exact faces_single (b := 40) hrest rfl
  | rightParen => exact faces_single (b := 41) hrest rfl
  | semicolon => exact faces_single (b := 59) hrest rfl

end Spelling

theorem code_ne_of_notMem {b : UInt8} (hb : b.toNat < 0x80) {text : Text} (h : b ∉ text) :
    ∀ c ∈ characters text, decide (c.code ≠ b.toNat) = true := by
  have hfaithful : ∀ c ∈ characters text, c.Faithful := fun _ => Text.faithful_of_mem
  rw [← Text.ofCharacters_characters text, Text.mem_ofCharacters_iff hfaithful hb] at h
  intro c hc
  exact decide_eq_true fun hcode => h ⟨c, hc, hcode⟩

-- A text is read as one: nothing in it is a quote or ends its line.
theorem faces_text {body : Text} (hquote : 34 ∉ body) (hfeed : 10 ∉ body) (rest : Text) :
    faces (characters (34 :: (body ++ [34]) ++ rest)) =
      (some .text, 34 :: (body ++ [34])) :: faces (characters rest) := by
  have hcs : characters (34 :: (body ++ [34]) ++ rest) =
      .ofByte 34 :: (characters body ++ [.ofByte 34]) ++ characters rest := by
    rw [List.cons_append, Text.characters_ascii_cons (by decide), List.append_assoc,
      Text.characters_append body (by simp [Character.isContinuation]), List.singleton_append,
      Text.characters_ascii_cons (by decide)]
    simp [Character.ofByte]
  have hinside : ∀ c ∈ characters body, (c.code ≠ 34 && c.code ≠ 10) = true := by
    intro c hc
    rw [Bool.and_eq_true]
    exact ⟨code_ne_of_notMem (by decide) hquote c hc, code_ne_of_notMem (by decide) hfeed c hc⟩
  have hscan : scan (.ofByte 34) (characters body ++ [.ofByte 34] ++ characters rest) =
      ⟨.token .text, (characters body ++ [Character.ofByte 34]).length⟩ := by
    have hrun : runLength (fun code => code ≠ 34 && code ≠ 10)
        (characters body ++ .ofByte 34 :: characters rest) = (characters body).length :=
      runLength_run hinside (by simp [Character.ofByte])
    have hstart : ∀ more, scan (.ofByte 34) more = scanText more := fun _ => rfl
    rw [List.append_assoc, List.singleton_append, hstart, scanText]
    simp only [hrun, List.drop_left]
    simp [Character.ofByte]
  have hliteral : ofCharacters (.ofByte 34 :: (characters body ++ [.ofByte 34])) =
      34 :: (body ++ [34]) := by
    rw [← List.singleton_append, Text.ofCharacters_append, Text.ofCharacters_append,
      Text.ofCharacters_characters]
    rfl
  rw [hcs, faces_of_token hscan, hliteral]

section Gap

theorem commentLength?_append_end (body : List Character) (hbody : ∀ c ∈ body, c.Faithful)
    (hopen : Text.contains [42, 47] (ofCharacters body ++ [42]) = false)
    (more : List Character) :
    commentLength? (body ++ .ofByte 42 :: .ofByte 47 :: more) = some (body.length + 2) := by
  induction body with
  | nil => rfl
  | cons c body ih =>
      rw [List.forall_mem_cons] at hbody
      have hbytes : ofCharacters (c :: body) = c.bytes ++ ofCharacters body := rfl
      rw [hbytes, List.append_assoc] at hopen
      rw [List.cons_append, commentLength?]
      by_cases hstar : c.code = 42
      · rw [hbody.1.bytes_eq (b := 42) (by decide) hstar, List.singleton_append, Text.contains,
          Bool.or_eq_false_iff] at hopen
        have hslash : (body ++ .ofByte 42 :: .ofByte 47 :: more).head?.map Character.code ≠
            some 47 := by
          cases body with
          | nil => simp [Character.ofByte]
          | cons d body =>
              intro hhead
              have hd : d.code = 47 := by simpa using hhead
              have hbytes := (hbody.2 d (by simp)).bytes_eq (b := 47) (by decide) hd
              simp [ofCharacters, hbytes] at hopen
        rw [if_neg, ih hbody.2 hopen.2]
        · rfl
        · rw [Bool.and_eq_true, decide_eq_true_eq, decide_eq_true_eq]
          exact fun hend => hslash hend.2
      · rw [Text.contains_append_of_notMem] at hopen
        · rw [if_neg (by simp [hstar]), ih hbody.2 hopen]
          rfl
        · rw [hbody.1.mem_bytes_iff (by decide)]
          exact hstar

-- What stands between tokens shows nothing.
theorem faces_gap {gap : Text} (h : Gap false gap) (rest : Text) :
    faces (characters (gap ++ rest)) = faces (characters rest) := by
  induction h with
  | nil => rfl
  | @blank b gap hb _ ih =>
      have hcode : isSpace b.toNat = true ∧ b.toNat < 0x80 := by
        rcases hb with rfl | rfl | rfl | rfl <;> decide
      rw [List.cons_append, Text.characters_ascii_cons hcode.2,
        faces_of_blank (n := 0) (by simp [scan, hcode.1]), List.drop_zero, ih]
  | @line body gap hbody _ ih =>
      have hcs : characters (47 :: 47 :: (body ++ 10 :: gap) ++ rest) =
          .ofByte 47 :: .ofByte 47 ::
            (characters body ++ .ofByte 10 :: characters (gap ++ rest)) := by
        rw [List.cons_append, List.cons_append, Text.characters_ascii_cons (by decide),
          Text.characters_ascii_cons (by decide), List.append_assoc, List.cons_append,
          Text.characters_append body (by simp [Character.isContinuation]),
          Text.characters_ascii_cons (by decide)]
        rfl
      have hlength : runLength (· ≠ 10)
          (.ofByte 47 :: (characters body ++ .ofByte 10 :: characters (gap ++ rest))) =
          (characters body).length + 1 := by
        rw [← List.cons_append, runLength_run]
        · rfl
        · exact List.forall_mem_cons.mpr ⟨rfl, code_ne_of_notMem (by decide) hbody⟩
        · simp [Character.ofByte]
      rw [hcs, faces_of_blank (n := (characters body).length + 1),
        List.drop_succ_cons, List.drop_left, faces_of_blank (n := 0) rfl, List.drop_zero, ih]
      rw [← hlength]
      rfl
  | lastLine hlast => cases hlast
  | @block body gap hbody _ ih =>
      have hcs : characters (47 :: 42 :: (body ++ 42 :: 47 :: gap) ++ rest) =
          .ofByte 47 :: .ofByte 42 ::
            (characters body ++ .ofByte 42 :: .ofByte 47 :: characters (gap ++ rest)) := by
        rw [List.cons_append, List.cons_append, Text.characters_ascii_cons (by decide),
          Text.characters_ascii_cons (by decide), List.append_assoc, List.cons_append,
          List.cons_append, Text.characters_append body (by simp [Character.isContinuation]),
          Text.characters_ascii_cons (by decide), Text.characters_ascii_cons (by decide)]
        rfl
      have hlength := commentLength?_append_end (characters body)
        (fun _ => Text.faithful_of_mem) (by rwa [Text.ofCharacters_characters])
        (characters (gap ++ rest))
      rw [hcs, faces_of_blank (n := (characters body).length + 3), List.drop_succ_cons,
        ← List.drop_drop, List.drop_left]
      · exact ih
      · have hscan : ∀ more, scan (.ofByte 47) (.ofByte 42 :: more) =
            scanBlockComment (.ofByte 42 :: more) := fun _ => rfl
        rw [hscan, scanBlockComment, List.drop_succ_cons, List.drop_zero, hlength]

end Gap

theorem Spells.zero_notMem {kind : Token.Kind} {literal : Text} (h : Spells kind literal) :
    0 ∉ literal := by
  cases h with
  | integer hdigits => exact hdigits.zero_notMem
  | real hwhole hfraction => simp [hwhole.zero_notMem, hfraction.zero_notMem]
  | text hquote hfeed hnul => simpa using hnul
  | keyword k =>
      intro hmem
      have hlower := Keyword.lower_of_mem_word hmem
      simp at hlower
  | symbol s => cases s <;> decide

theorem faces_spelled {kind : Token.Kind} {literal rest : Text} (h : Spells kind literal)
    (hrest : ∃ b ∈ rest.head?, IsBlank b) :
    faces (characters (literal ++ rest)) = (some kind, literal) :: faces (characters rest) := by
  cases h with
  | integer hdigits => exact faces_integer hrest hdigits
  | real hwhole hfraction => exact faces_real hrest hwhole hfraction
  | text hquote hfeed => exact faces_text hquote hfeed rest
  | keyword k => exact faces_keyword hrest k
  | symbol s => exact faces_symbol hrest s

section Renders

variable {tokens : List (Token.Kind × Text)} {source : Text}

theorem Renders.exists_blank (h : Renders tokens source) : ∃ b ∈ source.head?, IsBlank b := by
  cases h with
  | nil hseparator => exact hseparator.blank
  | cons hseparator =>
      obtain ⟨b, hb, hblank⟩ := hseparator.blank
      exact ⟨b, List.mem_head?_append_of_mem_head? hb, hblank⟩

theorem Renders.zero_notMem (h : Renders tokens source) : 0 ∉ source := by
  induction h with
  | nil hseparator => exact hseparator.plain
  | cons hseparator hliteral _ ih => simp [hseparator.plain, hliteral.zero_notMem, ih]

theorem Renders.faces_eq (h : Renders tokens source) :
    faces (characters source) = tokens.map fun token => (some token.1, token.2) := by
  induction h with
  | nil hseparator =>
      have hgap := faces_gap hseparator.gap []
      rw [List.append_nil] at hgap
      exact hgap
  | cons hseparator hliteral more ih =>
      rw [faces_gap hseparator.gap, faces_spelled hliteral more.exists_blank, ih, List.map_cons]

-- Tokens written with separators around them are read as these tokens, without an error, and then
-- the input ends.
theorem lexemes_of_renders (h : Renders tokens source) :
    (lexemes source).map Lexeme.face = tokens.map (fun token => (some token.1, token.2)) ∧
      ((Reader.ofSource source).calls (tokens.length + 1)).map Lexeme.face =
        tokens.map (fun token => (some token.1, token.2)) ++ [(some .endOfInput, [])] := by
  have hfaces : (lexemes source).map Lexeme.face =
      tokens.map fun token => (some token.1, token.2) := by
    rw [lexemes, visible_eq, readable_eq_self h.zero_notMem]
    exact h.faces_eq
  have hlength : tokens.length = (lexemes source).length := by
    simpa using (congrArg List.length hfaces).symm
  have hcalls : (Reader.ofSource source).calls ((lexemes source).length + 1) =
      lexemes source ++ [.token (endToken source)] := (Reader.ofSource source).calls_eq 1
  refine ⟨hfaces, ?_⟩
  rw [hlength, hcalls, List.map_append, hfaces]
  rfl

theorem lexemes_of_renders_marks :
    let source : Text := " / /***/\"//\" // \"\n12\n"
    let tokens : List (Token.Kind × Text) :=
      [(.symbol .slash, "/"), (.text, "\"//\""), (.integer, "12")]
    Renders tokens source ∧
      (lexemes source).map Lexeme.face = tokens.map (fun token => (some token.1, token.2)) ∧
      ((Reader.ofSource source).calls 4).map Lexeme.face =
        tokens.map (fun token => (some token.1, token.2)) ++ [(some .endOfInput, [])] := by
  have hspace : Separates (" " : Text) :=
    ⟨.blank (by decide) .nil, ⟨32, rfl, .inl rfl⟩, by decide⟩
  have hstar : Gap false (47 :: 42 :: ([42] ++ 42 :: 47 :: [])) := .block rfl .nil
  have hblock : Separates (" /***/" : Text) :=
    ⟨.blank (by decide) hstar, ⟨32, rfl, .inl rfl⟩, by decide⟩
  have hquote : Gap false (47 :: 47 :: ([32, 34] ++ 10 :: [])) := .line (by decide) .nil
  have hline : Separates (" // \"\n" : Text) :=
    ⟨.blank (by decide) hquote, ⟨32, rfl, .inl rfl⟩, by decide⟩
  have hfeed : Separates ("\n" : Text) :=
    ⟨.blank (by decide) .nil, ⟨10, rfl, .inr (.inr (.inl rfl))⟩, by decide⟩
  have htext : Spells .text (34 :: ([47, 47] ++ [34])) :=
    .text (by decide) (by decide) (by decide)
  have hinteger : Spells .integer "12" := .integer ⟨by decide, by decide⟩
  have hrenders : Renders _ _ := .cons hspace (.symbol .slash) <|
    .cons hblock htext <| .cons hline hinteger (.nil hfeed)
  exact ⟨hrenders, lexemes_of_renders hrenders⟩

end Renders

end Lexer

end Tuga
