import Mathlib.Data.List.TakeWhile
import Tuga.Proofs.Text.Boundary
import Tuga.Token.Lexer

namespace Tuga

namespace Position

variable {pos : Position}

theorem afterAll_append (first second : List Character) :
    pos.afterAll (first ++ second) = (pos.afterAll first).afterAll second :=
  List.foldl_append

end Position

-- What a lexeme shows apart from its place: the kind and the text of a token, or the wording of an
-- error.
def Lexeme.face : Lexeme → Option Token.Kind × Text
  | token t => (some t.kind, t.literal)
  | error e => (none, e.cause.message)

namespace Lexer

-- The part of a source that is read: all of it, or what stands before its first NUL.
def readable (source : Text) : Text := source.takeWhile (· ≠ 0)

theorem ne_zero_of_mem_readable {source : Text} {b : UInt8} (hb : b ∈ readable source) :
    b ≠ 0 := by
  unfold readable at hb
  simpa using List.mem_takeWhile_imp hb

theorem visible_eq (source : Text) : visible source = (readable source).characters := by
  have hplain : ∀ c ∈ (readable source).characters, c.code ≠ 0 := by
    intro c hc hcode
    have hmem : 0 ∈ readable source := by
      rw [← Text.ofCharacters_characters (readable source),
        Text.mem_ofCharacters_iff (fun _ => Text.faithful_of_mem) (by decide)]
      exact ⟨c, hc, hcode⟩
    exact ne_zero_of_mem_readable hmem rfl
  have hsource : source = readable source ++ source.dropWhile (· ≠ 0) :=
    List.takeWhile_append_dropWhile.symm
  rw [visible]
  nth_rewrite 1 [hsource]
  cases hrest : source.dropWhile (· ≠ 0) with
  | nil => simpa using hplain
  | cons b rest =>
      have hb : b = 0 := by
        have hhead := List.head?_dropWhile_not (· ≠ (0 : UInt8)) source
        rw [hrest] at hhead
        simpa using hhead
      subst hb
      rw [Text.characters_append _ (by simp [Character.isContinuation]), Text.characters_cons,
        List.takeWhile_append_of_pos (by simpa using hplain)]
      simp [Character.leading]

theorem readable_eq_self {source : Text} (h : 0 ∉ source) : readable source = source := by
  rw [readable, List.takeWhile_eq_self_iff]
  intro b hb
  have hne : b ≠ 0 := fun hzero => h (hzero ▸ hb)
  simpa using hne

variable {isLetter : Nat → Bool} {pos : Position} {c : Character} {rest cs : List Character}

theorem runLength_le (p : Nat → Bool) (cs : List Character) : runLength p cs ≤ cs.length :=
  (List.takeWhile_sublist _).length_le

theorem take_runLength (p : Nat → Bool) (cs : List Character) :
    cs.take (runLength p cs) = cs.takeWhile fun c => p c.code := by
  have hcut : (cs.takeWhile fun c => p c.code) ++ cs.dropWhile (fun c => p c.code) = cs :=
    List.takeWhile_append_dropWhile
  nth_rewrite 2 [← hcut]
  exact List.take_left

theorem drop_runLength (p : Nat → Bool) (cs : List Character) :
    cs.drop (runLength p cs) = cs.dropWhile fun c => p c.code := by
  have hcut : (cs.takeWhile fun c => p c.code) ++ cs.dropWhile (fun c => p c.code) = cs :=
    List.takeWhile_append_dropWhile
  nth_rewrite 2 [← hcut]
  exact List.drop_left

theorem commentLength?_le {n : Nat} (h : commentLength? cs = some n) : n ≤ cs.length := by
  induction cs generalizing n with
  | nil => cases h
  | cons c rest ih =>
      rw [commentLength?] at h
      split at h
      · rename_i hend
        cases rest with
        | nil => simp at hend
        | cons => cases h; simp
      · obtain ⟨m, hm, rfl⟩ := Option.map_eq_some_iff.mp h
        have := ih hm
        simp only [List.length_cons]
        omega

theorem scanText_extra_le (rest : List Character) : (scanText rest).extra ≤ rest.length := by
  have hbody := runLength_le (fun code => code ≠ 34 && code ≠ 10) rest
  unfold scanText
  dsimp only
  generalize runLength (fun code => code ≠ 34 && code ≠ 10) rest = body at hbody ⊢
  split
  · rename_i hquote
    have hne : rest.drop body ≠ [] := by
      intro hnil
      rw [hnil] at hquote
      cases hquote
    rw [ne_eq, List.drop_eq_nil_iff] at hne
    dsimp only
    omega
  · exact hbody

theorem scanNumber_extra_le (rest : List Character) : (scanNumber rest).extra ≤ rest.length := by
  have hwhole := runLength_le isDigit rest
  unfold scanNumber
  dsimp only
  split
  · rename_i point fraction hdrop
    have hlength := congrArg List.length hdrop
    have hplaces := runLength_le isDigit fraction
    rw [List.length_drop, List.length_cons] at hlength
    split
    · dsimp only
      omega
    · exact hwhole
  · exact hwhole

theorem scanSymbol_extra_le (symbol : Symbol) (rest : List Character) :
    (scanSymbol symbol (rest.head?.map Character.code)).extra ≤ rest.length := by
  cases rest with
  | nil => cases symbol <;> exact Nat.le_refl 0
  | cons d rest =>
      have hone : ∀ next, (scanSymbol symbol next).extra ≤ 1 := by
        intro next
        unfold scanSymbol
        split <;> simp
      exact Nat.le_trans (hone _) (by simp)

-- A scan takes no more characters than there are.
theorem scan_extra_le (c : Character) (rest : List Character)
    (isLetter : Nat → Bool := Text.isLetter) :
    (scan c rest isLetter).extra ≤ rest.length := by
  unfold scan
  dsimp only
  split
  · exact Nat.zero_le _
  split
  · exact runLength_le (· ≠ 10) rest
  split
  · rename_i hstar
    rw [scanBlockComment]
    split
    · rename_i n hn
      have hle := commentLength?_le hn
      cases rest with
      | nil => simp at hstar
      | cons => simp only [List.drop_succ_cons, List.drop_zero, List.length_cons] at hle ⊢; omega
    · exact Nat.le_refl _
  split
  · exact scanSymbol_extra_le _ rest
  split
  · exact scanText_extra_le rest
  split
  · exact scanNumber_extra_le rest
  split
  · unfold scanWord
    dsimp only
    split <;> exact runLength_le _ rest
  · exact Nat.zero_le _

theorem lexemesAfter_eq (skip : Nat) (pos : Position) (cs : List Character) :
    lexemesAfter skip pos cs isLetter =
      lexemesAfter 0 (pos.afterAll (cs.take skip)) (cs.drop skip) isLetter := by
  induction cs generalizing skip pos with
  | nil => cases skip <;> simp [lexemesAfter]
  | cons c rest ih =>
      cases skip with
      | zero => rfl
      | succ skip => exact ih skip (pos.after c)

theorem nextAfter_eq (skip : Nat) (pos : Position) (cs : List Character) :
    nextAfter skip pos cs isLetter =
      nextAfter 0 (pos.afterAll (cs.take skip)) (cs.drop skip) isLetter := by
  induction cs generalizing skip pos with
  | nil => cases skip <;> simp [nextAfter, Position.afterAll]
  | cons c rest ih =>
      cases skip with
      | zero => rfl
      | succ skip => exact ih skip (pos.after c)

theorem lexemesAfter_cons (pos : Position) (c : Character) (rest : List Character) :
    lexemesAfter 0 pos (c :: rest) isLetter =
      ((scan c rest isLetter).found.lexeme? pos
          (c :: rest.take (scan c rest isLetter).extra)).toList ++
        lexemesAfter 0 (pos.afterAll (c :: rest.take (scan c rest isLetter).extra))
          (rest.drop (scan c rest isLetter).extra) isLetter := by
  rw [lexemesAfter, lexemesAfter_eq]
  rfl

theorem lexemesAfter_space {c : Character} (pos : Position) (h : isSpace c.code = true)
    (rest : List Character) :
    lexemesAfter 0 pos (c :: rest) isLetter = lexemesAfter 0 (pos.after c) rest isLetter := by
  have hscan : scan c rest isLetter = ⟨.blank, 0⟩ := by simp [scan, h]
  rw [lexemesAfter_cons, hscan]
  rfl

-- Where the walk starts plays no part in what the lexemes show.
theorem faces_lexemesAfter (skip : Nat) (pos pos' : Position) (cs : List Character) :
    (lexemesAfter skip pos cs isLetter).map Lexeme.face =
      (lexemesAfter skip pos' cs isLetter).map Lexeme.face := by
  induction cs generalizing skip pos pos' with
  | nil => cases skip <;> rfl
  | cons c rest ih =>
      cases skip with
      | succ skip => exact ih skip _ _
      | zero =>
          rw [lexemesAfter, lexemesAfter, List.map_append, List.map_append, ih]
          cases (scan c rest isLetter).found <;> rfl

namespace Reader

def ahead (reader : Reader) (isLetter : Nat → Bool := Text.isLetter) : List Lexeme :=
  lexemesAfter 0 reader.pos reader.rest isLetter

def finish (reader : Reader) : Token :=
  let pos := reader.pos.afterAll reader.rest
  ⟨.endOfInput, [], ⟨pos, pos⟩⟩

-- A call gives the first lexeme ahead and leaves the others ahead. Without one it gives the end of
-- the input, which it then gives again.
theorem next_cases (reader : Reader) :
    (reader.ahead isLetter = [] ∧ (reader.next isLetter).1 = .token reader.finish ∧
        (reader.next isLetter).2.ahead isLetter = [] ∨
      reader.ahead isLetter =
        (reader.next isLetter).1 :: (reader.next isLetter).2.ahead isLetter) ∧
      (reader.next isLetter).2.finish = reader.finish := by
  obtain ⟨pos, cs⟩ := reader
  unfold next
  dsimp only
  induction hn : cs.length using Nat.strongRecOn generalizing pos cs with
  | _ n ih =>
      cases cs with
      | nil => exact ⟨Or.inl ⟨rfl, rfl, rfl⟩, rfl⟩
      | cons c rest =>
          have hstep := @lexemesAfter_cons isLetter pos c rest
          have hfinish : pos.afterAll (c :: rest) =
              (pos.afterAll (c :: rest.take (scan c rest isLetter).extra)).afterAll
                (rest.drop (scan c rest isLetter).extra) := by
            rw [← Position.afterAll_append, List.cons_append, List.take_append_drop]
          rw [nextAfter]
          cases hfound : (scan c rest isLetter).found.lexeme? pos
              (c :: rest.take (scan c rest isLetter).extra) with
          | some lexeme =>
              rw [hfound] at hstep
              exact ⟨Or.inr hstep, by simp only [finish, hfinish]⟩
          | none =>
              -- a blank is stepped over without an answer
              rw [hfound] at hstep
              dsimp only
              rw [nextAfter_eq]
              have hlt : (rest.drop (scan c rest isLetter).extra).length < n := by
                simp only [List.length_drop, List.length_cons] at hn ⊢
                omega
              have hrest :=
                ih _ hlt (pos.afterAll (c :: rest.take (scan c rest isLetter).extra)) _ rfl
              simp only [ahead, finish, hstep, hfinish] at hrest ⊢
              exact hrest

theorem calls_of_ahead_eq_nil {reader : Reader} (h : reader.ahead isLetter = []) (n : Nat) :
    reader.calls n isLetter = List.replicate n (.token reader.finish) := by
  induction n generalizing reader with
  | zero => rfl
  | succ n ih =>
      obtain ⟨⟨-, hnext, hahead⟩ | hnext, hend⟩ := next_cases reader
      · rw [calls, hnext, ih hahead, hend, List.replicate_succ]
      · rw [h] at hnext
        cases hnext

-- Calls in a row give the lexemes ahead, then the end of the input again and again.
theorem calls_eq (reader : Reader) (n : Nat) :
    reader.calls ((reader.ahead isLetter).length + n) isLetter =
      reader.ahead isLetter ++ List.replicate n (.token reader.finish) := by
  induction hlexemes : reader.ahead isLetter generalizing reader with
  | nil =>
      rw [List.length_nil, Nat.zero_add]
      exact calls_of_ahead_eq_nil hlexemes n
  | cons lexeme lexemes ih =>
      obtain ⟨⟨hnil, -⟩ | hnext, hend⟩ := next_cases reader
      · rw [hnil] at hlexemes
        cases hlexemes
      · rw [hlexemes, List.cons.injEq] at hnext
        rw [List.length_cons, Nat.add_right_comm, calls, ih _ hnext.2.symm, hend, ← hnext.1,
          List.cons_append]

end Reader

end Lexer

end Tuga
