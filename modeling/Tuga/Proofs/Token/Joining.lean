import Tuga.Proofs.Text.Words
import Tuga.Proofs.Token.Scanning

namespace Tuga.Lexer

theorem commentLength?_append {n : Nat} {cs : List Character} (h : commentLength? cs = some n)
    (tail : List Character) : commentLength? (cs ++ tail) = some n := by
  induction cs generalizing n with
  | nil => cases h
  | cons c rest ih =>
      rw [commentLength?] at h
      rw [List.cons_append, commentLength?]
      cases rest with
      | nil => simp [commentLength?] at h
      | cons d rest =>
          rw [List.cons_append, List.head?_cons]
          rw [List.head?_cons] at h
          split at h
          · rename_i hmark
            rw [if_pos hmark, h]
          · rename_i hmark
            obtain ⟨m, hm, rfl⟩ := Option.map_eq_some_iff.mp h
            rw [if_neg hmark, ← List.cons_append, ih hm]
            rfl

section Feed

variable {feed : Character} (hfeed : feed.code = 10) (more : List Character)

include hfeed

theorem runLength_append {p : Nat → Bool} (hp : p 10 = false) (rest : List Character) :
    runLength p (rest ++ feed :: more) = runLength p rest := by
  rw [runLength, runLength]
  induction rest with
  | nil => simp [hfeed, hp]
  | cons c rest ih =>
      rw [List.cons_append, List.takeWhile_cons, List.takeWhile_cons]
      split
      · rw [List.length_cons, List.length_cons, ih]
      · rfl

theorem scanText_append (rest : List Character) :
    scanText (rest ++ feed :: more) = scanText rest := by
  have hbody := runLength_append hfeed more (p := fun code => code ≠ 34 && code ≠ 10) rfl rest
  have hle := runLength_le (fun code => code ≠ 34 && code ≠ 10) rest
  unfold scanText
  dsimp only
  rw [hbody]
  generalize runLength (fun code => code ≠ 34 && code ≠ 10) rest = body at hle
  rw [List.drop_append_of_le_length hle]
  cases rest.drop body with
  | nil => simp [hfeed]
  | cons d tail => rfl

theorem scanNumber_append (rest : List Character) :
    scanNumber (rest ++ feed :: more) = scanNumber rest := by
  have hwhole := runLength_append hfeed more (p := isDigit) rfl rest
  have hle := runLength_le isDigit rest
  unfold scanNumber
  dsimp only
  rw [hwhole]
  generalize runLength isDigit rest = whole at hle
  rw [List.drop_append_of_le_length hle]
  cases rest.drop whole with
  | nil => simp [hfeed]
  | cons point fraction =>
      have hplaces := runLength_append hfeed more (p := isDigit) rfl fraction
      simp only [List.cons_append, hplaces]

theorem scanWord_append (c : Character) (rest : List Character) :
    scanWord Text.isLetter c (rest ++ feed :: more) = scanWord Text.isLetter c rest := by
  have hextra :=
    runLength_append hfeed more (p := isWordPart Text.isLetter) (by decide +kernel) rest
  have hle := runLength_le (isWordPart Text.isLetter) rest
  unfold scanWord
  dsimp only
  rw [hextra, List.take_append_of_le_length hle]

-- A line feed after what is scanned changes nothing, unless a comment is open.
theorem scan_append (c : Character) (rest : List Character)
    (h : (scan c rest).found ≠ .error .unterminatedComment) :
    scan c (rest ++ feed :: more) = scan c rest := by
  have htext := scanText_append hfeed more rest
  have hnumber := scanNumber_append hfeed more rest
  have hword := scanWord_append hfeed more c rest
  unfold scan
  dsimp only
  rw [htext, hnumber, hword]
  cases rest with
  | nil =>
      have hsymbol : ∀ symbol, scanSymbol symbol (some 10) = scanSymbol symbol none := by
        intro symbol
        cases symbol <;> rfl
      simp [hfeed, hsymbol]
  | cons d rest =>
      refine ite_congr rfl (fun _ => rfl) fun _ => ?_
      refine ite_congr rfl (fun _ => ?_) fun _ => ?_
      · rw [scanLineComment, scanLineComment, runLength_append hfeed more rfl]
      refine ite_congr rfl (fun hmark => ?_) fun _ => rfl
      simp only [List.head?_cons, Option.map_some, Option.some.injEq, Bool.and_eq_true,
        decide_eq_true_eq] at hmark
      have hscan : scan c (d :: rest) = scanBlockComment (d :: rest) := by
        simp [scan, hmark, isSpace]
      rw [hscan, scanBlockComment] at h
      rw [List.cons_append, scanBlockComment, scanBlockComment]
      simp only [List.drop_succ_cons, List.drop_zero] at h ⊢
      cases hn : commentLength? rest with
      | none =>
          rw [hn] at h
          exact absurd rfl h
      | some n => rw [commentLength?_append hn]

theorem lexemesAfter_append (pos : Position) (cs : List Character)
    (h : ∀ e, Lexeme.error e ∉ lexemesAfter 0 pos cs) :
    lexemesAfter 0 pos (cs ++ feed :: more) =
      lexemesAfter 0 pos cs ++ lexemesAfter 0 (pos.afterAll (cs ++ [feed])) more := by
  induction hn : cs.length using Nat.strongRecOn generalizing pos cs with
  | _ n ih =>
      cases cs with
      | nil =>
          have hspace : isSpace feed.code = true := by
            rw [hfeed]
            rfl
          rw [List.nil_append, lexemesAfter_space pos hspace]
          rfl
      | cons c rest =>
          rw [lexemesAfter_cons] at h
          have hfound : (scan c rest).found ≠ .error .unterminatedComment := by
            intro hfound
            rw [hfound] at h
            exact h _ (List.mem_append_left _ (List.mem_singleton.mpr rfl))
          have hle := scan_extra_le c rest
          have hrest := ih (rest.drop (scan c rest).extra).length
            (by simp only [List.length_drop, List.length_cons] at hn ⊢; omega)
            (pos.afterAll (c :: rest.take (scan c rest).extra)) (rest.drop (scan c rest).extra)
            (fun e he => h e (List.mem_append_right _ he)) rfl
          have hcut : pos.afterAll (c :: rest ++ [feed]) =
              (pos.afterAll (c :: rest.take (scan c rest).extra)).afterAll
                (rest.drop (scan c rest).extra ++ [feed]) := by
            rw [← Position.afterAll_append, List.cons_append, List.cons_append, ← List.append_assoc,
              List.take_append_drop]
          rw [hcut, List.cons_append, lexemesAfter_cons, lexemesAfter_cons,
            scan_append hfeed more c rest hfound, List.take_append_of_le_length hle,
            List.drop_append_of_le_length hle, hrest, List.append_assoc]

end Feed

theorem visible_join {first : Text} (h : 0 ∉ first) (second : Text) :
    visible (first ++ 10 :: second) = visible first ++ ⟨10, [10]⟩ :: visible second := by
  have hfirst : ∀ b ∈ first, decide (b ≠ 0) = true := by
    intro b hb
    have hne : b ≠ 0 := fun hzero => h (hzero ▸ hb)
    simpa using hne
  have hreadable : readable (first ++ 10 :: second) = first ++ 10 :: readable second := by
    rw [readable, List.takeWhile_append_of_pos hfirst, List.takeWhile_cons_of_pos (by decide)]
    rfl
  rw [visible_eq, visible_eq, visible_eq, readable_eq_self h, hreadable,
    Text.characters_append _ (by simp [Character.isContinuation]),
    Text.characters_ascii_cons (by decide)]
  rfl

-- Two sources on lines of their own show their lexemes one after the other.
theorem faces_join {first : Text} (hnul : 0 ∉ first) (h : ∀ e, Lexeme.error e ∉ lexemes first)
    (second : Text) :
    (lexemes (first ++ 10 :: second)).map Lexeme.face =
      (lexemes first).map Lexeme.face ++ (lexemes second).map Lexeme.face := by
  rw [lexemes, visible_join hnul, lexemesAfter_append rfl _ _ _ h, List.map_append]
  exact congrArg _ (faces_lexemesAfter 0 _ _ _)

end Tuga.Lexer
