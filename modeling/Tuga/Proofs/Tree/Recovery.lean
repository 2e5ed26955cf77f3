import Mathlib.Data.List.SplitBy
import Tuga.Proofs.Tree.Acceptance

namespace Tuga

-- The tokens of a source, without the end of input.
def sourceTokens (source : Text) : List Token :=
  Lexer.tokens (Lexer.lexemes source)

namespace Parser

open Grammar

-- Whether a token and the next one stand in the same segment.
def joined (t next : Token) : Bool :=
  t.kind ≠ .symbol .semicolon && next.kind ≠ .keyword .escreve

-- The tokens cut after every semicolon and before every `escreve`.
def segments (tokens : List Token) : List (List Token) :=
  tokens.splitBy joined

-- A segment that is a statement, its integer literals in range.
structure WellFormed (seg : List Token) (e : Expr) : Prop where
  isStatement : IsStatement seg e
  inRange : ∀ t ∈ seg, t.InRange

-- An error about a segment stands at a token of it, or at the next token if no semicolon ends the
-- segment.
def PlacedAt (seg : List Token) (next : Token) (error : SyntaxError) : Prop :=
  (∃ t ∈ seg, error.span = t.span) ∨
    (∀ t ∈ seg, t.kind ≠ .symbol .semicolon) ∧ error.span = next.span

-- What reading makes of segments up to the end of input: a statement of each that is well formed
-- and an error of each other one.
inductive Recovered (finish : Token) :
    List (List Token) → List Statement → List SyntaxError → Prop
  | done : Recovered finish [] [] []
  | read {seg : List Token} {segs : List (List Token)} {stmt : Statement} {stmts : List Statement}
      {errors : List SyntaxError} (wellFormed : WellFormed seg stmt.value.bare)
      (integers : stmt.value.integers = seg.filterMap Token.integer?)
      (rest : Recovered finish segs stmts errors) :
      Recovered finish (seg :: segs) (stmt :: stmts) errors
  | failed {seg : List Token} {segs : List (List Token)} {stmts : List Statement}
      {error : SyntaxError} {errors : List SyntaxError} (illFormed : ∀ e, ¬WellFormed seg e)
      (placed : PlacedAt seg (segs.flatten.headD finish) error)
      (rest : Recovered finish segs stmts errors) :
      Recovered finish (seg :: segs) stmts (error :: errors)

-- Tokens that form a segment before the tokens `rest`.
structure IsSegment (seg rest : List Token) : Prop where
  ne_nil : seg ≠ []
  joined : seg.Pairwise fun t u => t.kind ≠ .symbol .semicolon ∧ u.kind ≠ .keyword .escreve
  cut : ∀ t ∈ seg.getLast?, ∀ u ∈ rest.head?,
    t.kind = .symbol .semicolon ∨ u.kind = .keyword .escreve

theorem IsSegment.segments_append {seg rest : List Token} (h : IsSegment seg rest) :
    segments (seg ++ rest) = seg :: segments rest := by
  have hcut : ∀ t ∈ seg.getLast?, ∀ u ∈ rest.head?, Parser.joined t u = false := by
    intro t ht u hu
    simpa only [Parser.joined, Bool.and_eq_false_iff, decide_eq_false_iff_not, not_not]
      using h.cut t ht u hu
  have hjoined : seg.IsChain fun t u => Parser.joined t u = true :=
    (h.joined.imp fun h => by simp [Parser.joined, h]).isChain
  rw [segments, List.splitBy_append hcut, List.splitBy_of_isChain h.ne_nil hjoined]
  rfl

theorem IsSegment.length_lt {seg rest : List Token} (h : IsSegment seg rest) :
    rest.length < (seg ++ rest).length := by
  have hpos := List.length_pos_iff.mpr h.ne_nil
  rw [List.length_append]
  omega

-- The end of a segment before the tokens `rest`: a semicolon, or nothing more.
inductive Ending (rest : List Token) : List Token → Prop
  | semicolon {t : Token} (ht : t.kind = .symbol .semicolon) : Ending rest [t]
  | cut (hrest : ∀ t ∈ rest.head?, t.kind = .keyword .escreve) : Ending rest []

theorem isSegment_append {first inner last rest : List Token}
    (hfirst : first = [] ∨ ∃ t, first = [t] ∧ t.kind = .keyword .escreve)
    (hinner : ∀ t ∈ inner, t.Inner) (hlast : Ending rest last)
    (hne : first ++ (inner ++ last) ≠ []) : IsSegment (first ++ (inner ++ last)) rest := by
  have hfirst' : first.Pairwise (fun _ _ => False) ∧ ∀ t ∈ first, t.kind ≠ .symbol .semicolon := by
    rcases hfirst with rfl | ⟨t, rfl, ht⟩
    · simp
    · simp [ht]
  have hlast' : last.Pairwise (fun _ _ => False) ∧ ∀ t ∈ last, t.kind ≠ .keyword .escreve := by
    cases hlast with
    | semicolon ht => simp [ht]
    | cut => simp
  refine ⟨hne, ?_, ?_⟩
  · refine List.pairwise_append.mpr ⟨hfirst'.1.imp False.elim, ?_, ?_⟩
    · refine List.pairwise_append.mpr ⟨?_, hlast'.1.imp False.elim, ?_⟩
      · exact List.pairwise_of_forall_mem_list fun t ht u hu => ⟨(hinner t ht).1, (hinner u hu).2⟩
      · exact fun t ht u hu => ⟨(hinner t ht).1, hlast'.2 u hu⟩
    · refine fun t ht u hu => ⟨hfirst'.2 t ht, ?_⟩
      exact (List.mem_append.mp hu).elim (fun hu => (hinner u hu).2) (hlast'.2 u)
  · intro t ht u hu
    cases hlast with
    | semicolon hsemicolon =>
        simp only [← List.append_assoc, List.getLast?_concat, Option.mem_some] at ht
        exact .inl (ht ▸ hsemicolon)
    | cut hrest => exact .inr (hrest u hu)

-- What is skipped after an error ends with a semicolon or before an `escreve`.
theorem exists_skipped (ts : List Token) :
    ∃ inner last, ts = inner ++ (last ++ resume ts) ∧ (∀ t ∈ inner, t.Inner) ∧
      Ending (resume ts) last := by
  induction ts with
  | nil => exact ⟨[], [], rfl, by simp, .cut (by simp [resume])⟩
  | cons t rest ih =>
      rw [resume]
      split
      · rename_i ht
        exact ⟨[], [], rfl, by simp, .cut (by simpa using ht)⟩
      · split
        · rename_i ht
          exact ⟨[], [t], rfl, by simp, .semicolon ht⟩
        · rename_i hescreve hsemicolon
          obtain ⟨inner, last, heq, hinner, hlast⟩ := ih
          refine ⟨t :: inner, last, ?_, ?_, hlast⟩
          · rw [List.cons_append, ← heq]
          · exact List.forall_mem_cons.mpr ⟨⟨hsemicolon, hescreve⟩, hinner⟩

section Result

variable {α β : Type} {s s' : State} {kind : Token.Kind}

theorem bind_of_error {x : Parse α} {error : SyntaxError} (h : x s = .error error s')
    (f : α → Parse β) : (x >>= f) s = .error error s' := by
  change EStateM.bind x f s = _
  rw [EStateM.bind, h]

theorem current_eq (s : State) : current s = .ok s.current s := rfl

theorem expect_eq_ok {t : Token} {rest : List Token} (hs : s.tokens = t :: rest)
    (ht : t.kind = kind) : expect kind s = .ok () { s with tokens := rest } := by
  have hcurrent : s.current.kind = kind := by rw [State.current, hs, List.headD_cons, ht]
  rw [expect, bind_of_ok (current_eq s), if_pos hcurrent]
  change EStateM.Result.ok () { s with tokens := s.tokens.tail } = _
  rw [hs, List.tail_cons]

theorem expect_eq_error (h : s.current.kind ≠ kind) :
    expect kind s = .error ⟨.expected kind s.current, s.current.span⟩ s := by
  rw [expect, bind_of_ok (current_eq s), if_neg h]
  rfl

end Result

section Statement

variable {s : State} {seg rest : List Token} {e : Expr}

-- How reading one statement may end: with a statement, at a token that starts none, or inside a
-- statement.
inductive Attempt (s : State) : EStateM.Result SyntaxError State Statement → Prop
  | read {seg : List Token} {stmt : Statement} {s' : State} (finish : s'.finish = s.finish)
      (tokens : s.tokens = seg ++ s'.tokens) (wellFormed : WellFormed seg stmt.value.bare)
      (integers : stmt.value.integers = seg.filterMap Token.integer?) : Attempt s (.ok stmt s')
  | unstarted {error : SyntaxError} (current : s.current.kind ≠ .keyword .escreve)
      (span : error.span = s.current.span) : Attempt s (.error error s)
  | stopped {t : Token} {inner : List Token} {error : SyntaxError} {s' : State}
      (finish : s'.finish = s.finish) (escreve : t.kind = .keyword .escreve)
      (tokens : s.tokens = t :: (inner ++ s'.tokens)) (inside : ∀ u ∈ inner, u.Inner)
      (span : error.span = s'.current.span) : Attempt s (.error error s')

theorem attempt_statement (hfinish : s.finish.kind = .endOfInput) : Attempt s (statement s) := by
  rw [statement, bind_of_ok (current_eq s)]
  by_cases hescreve : s.current.kind = .keyword .escreve
  · obtain ⟨rest, hs⟩ := s.exists_tokens hfinish (by simp [hescreve])
    have hread := follows_expression { s with tokens := rest } hfinish
    rw [bind_of_ok (expect_eq_ok hs hescreve)]
    rw [Reaches] at hread
    cases hexpression : expression { s with tokens := rest } with
    | error error s' =>
        rw [hexpression] at hread
        obtain ⟨hfinish', inner, htokens, hinner, hspan⟩ := hread
        rw [bind_of_error hexpression]
        exact .stopped hfinish' hescreve (hs.trans (congrArg _ htokens)) hinner hspan
    | ok value s' =>
        rw [hexpression] at hread
        obtain ⟨hfinish', inner, htokens, hinner, hvalue⟩ := hread
        dsimp only at hfinish' htokens
        subst htokens
        rw [bind_of_ok hexpression, bind_of_ok (current_eq s')]
        by_cases hsemicolon : s'.current.kind = .symbol .semicolon
        · obtain ⟨rest', hs'⟩ := s'.exists_tokens (hfinish' ▸ hfinish) (by simp [hsemicolon])
          rw [bind_of_ok (expect_eq_ok hs' hsemicolon)]
          have htokens : s.tokens = s.current :: (inner ++ [s'.current]) ++ rest' := by
            rw [hs, hs', List.cons_append, List.append_assoc, List.singleton_append]
          have hrange : ∀ t ∈ s.current :: (inner ++ [s'.current]), t.InRange := by
            simp only [List.forall_mem_cons, List.forall_mem_append]
            exact ⟨by simp [Token.InRange, hescreve], hvalue.inRange,
              by simp [Token.InRange, hsemicolon], by simp⟩
          refine .read hfinish' htokens ⟨.intro hescreve hvalue.derives hsemicolon, hrange⟩ ?_
          simpa [Token.integer?, hescreve, hsemicolon] using hvalue.integers
        · rw [bind_of_error (expect_eq_error hsemicolon)]
          exact .stopped hfinish' hescreve hs hinner rfl
  · rw [bind_of_error (expect_eq_error hescreve)]
    exact .unstarted hescreve rfl

-- A well-formed segment is read as a statement, whatever follows it.
theorem WellFormed.gives_statement (h : WellFormed seg e) (hs : s.tokens = seg ++ rest) :
    Gives s statement rest fun stmt => stmt.value.bare = e := by
  obtain ⟨@⟨t, u, ts, _, escreve, value, semicolon⟩, hrange⟩ := h
  simp only [List.forall_mem_cons, List.forall_mem_append] at hrange
  rw [List.cons_append, List.append_assoc, List.singleton_append] at hs
  have hstops : Stops (.level .disjunction) u.kind := by
    intro l op _ hsign
    rw [semicolon] at hsign
    cases hsign
  refine .current ((Gives.expect hs escreve).bind fun _ s₁ hs₁ _ _ => ?_)
  have hvalue : Gives s₁ expression (u :: rest) _ :=
    accepts_expression value hrange.2.1 hstops hs₁
  refine hvalue.bind fun e' s₂ hs₂ _ hbare => .current ?_
  exact (Gives.expect hs₂ semicolon).bind fun _ s₃ hs₃ _ _ => .build hs₃ fun info => hbare

-- A failure to read a statement is due to the tokens of its own segment.
theorem not_wellFormed_of_error {error : SyntaxError} {s' : State}
    (h : statement s = .error error s') (hs : s.tokens = seg ++ rest) : ¬WellFormed seg e := by
  intro hwell
  obtain ⟨stmt, s'', hok, -⟩ := hwell.gives_statement hs
  rw [h] at hok
  cases hok

-- The tree of a segment that is read as a statement, to its last token.
def tree? (seg : List Token) : Option Expr :=
  match statement ⟨seg, ⟨.endOfInput, [], default⟩, {}⟩ with
  | .ok stmt ⟨[], _, _⟩ => some stmt.value.bare
  | _ => none

theorem tree?_eq_some_iff : tree? seg = some e ↔ WellFormed seg e := by
  constructor
  · intro h
    rw [tree?] at h
    split at h
    · rename_i stmt finish builder hstatement
      have hattempt := attempt_statement (s := ⟨seg, ⟨.endOfInput, [], default⟩, {}⟩) rfl
      rw [hstatement] at hattempt
      obtain ⟨-, tokens, wellFormed, -⟩ := hattempt
      rw [← Option.some.inj h, show seg = _ from tokens, List.append_nil]
      exact wellFormed
    · cases h
  · intro h
    have hs : seg = seg ++ [] := (List.append_nil seg).symm
    obtain ⟨stmt, ⟨tokens, finish, builder⟩, hstatement, rfl, -, hbare⟩ :=
      h.gives_statement (s := ⟨seg, ⟨.endOfInput, [], default⟩, {}⟩) hs
    rw [tree?, hstatement]
    exact congrArg some hbare

instance (seg : List Token) : Decidable (∃ e, WellFormed seg e) :=
  decidable_of_iff ((tree? seg).isSome = true)
    (Option.isSome_iff_exists.trans (exists_congr fun _ => tree?_eq_some_iff))

theorem WellFormed.isSegment (h : WellFormed seg e) : IsSegment seg rest := by
  obtain ⟨@⟨t, u, ts, _, escreve, value, semicolon⟩, -⟩ := h
  exact isSegment_append (.inr ⟨t, rfl, escreve⟩) value.inner (.semicolon semicolon) (by simp)

theorem placedAt_append {used inner last : List Token} {finish : Token} {error : SyntaxError}
    (hused : ∀ t ∈ used, t.kind ≠ .symbol .semicolon) (hlast : Ending rest last)
    (hspan : error.span = ((inner ++ (last ++ rest)).headD finish).span) :
    PlacedAt (used ++ (inner ++ last)) (rest.headD finish) error := by
  cases inner with
  | cons t inner => exact .inl ⟨t, by simp, hspan⟩
  | nil =>
      cases hlast with
      | @semicolon t => exact .inl ⟨t, by simp, hspan⟩
      | cut => exact .inr ⟨by simpa using hused, hspan⟩

-- An error uses up one segment, and stands there.
theorem exists_segment_of_error {error : SyntaxError} {s' : State}
    (hfinish : s.finish.kind = .endOfInput) (hne : s.tokens ≠ [])
    (h : statement s = .error error s') :
    s'.finish = s.finish ∧ ∃ seg, s.tokens = seg ++ resume s'.tokens ∧
      IsSegment seg (resume s'.tokens) ∧
      PlacedAt seg ((resume s'.tokens).headD s.finish) error := by
  obtain ⟨inner, last, htokens, hinner, hlast⟩ := exists_skipped s'.tokens
  have hattempt := attempt_statement hfinish
  rw [h] at hattempt
  cases hattempt with
  | unstarted current span =>
      -- something is skipped, since reading does not stand at the end or before an `escreve`
      have hskipped : inner ++ last ≠ [] := by
        intro hnil
        obtain ⟨rfl, rfl⟩ := List.append_eq_nil_iff.mp hnil
        obtain ⟨t, rest, hs⟩ := List.exists_cons_of_ne_nil hne
        rw [List.nil_append, List.nil_append] at htokens
        rw [← htokens, hs] at hlast
        rw [State.current, hs, List.headD_cons] at current
        cases hlast with
        | cut hescreve => exact current (hescreve t rfl)
      refine ⟨rfl, inner ++ last, by rw [List.append_assoc, ← htokens], ?_, ?_⟩
      · exact isSegment_append (.inl rfl) hinner hlast hskipped
      · exact placedAt_append (List.forall_mem_nil _) hlast (by rw [span, ← htokens]; rfl)
  | @stopped t before _ _ finish escreve tokens inside span =>
      refine ⟨finish, t :: (before ++ inner ++ last), ?_, ?_, ?_⟩
      · rw [tokens]
        nth_rewrite 1 [htokens]
        simp only [List.cons_append, List.append_assoc]
      · exact isSegment_append (.inr ⟨t, rfl, escreve⟩)
          (List.forall_mem_append.mpr ⟨inside, hinner⟩) hlast (by simp)
      · have hused : ∀ u ∈ t :: before, u.kind ≠ .symbol .semicolon :=
          List.forall_mem_cons.mpr ⟨by simp [escreve], fun u hu => (inside u hu).1⟩
        rw [List.append_assoc]
        exact placedAt_append hused hlast (by rw [span, ← htokens, ← finish]; rfl)

end Statement

-- Every round takes a segment off the tokens, so reading comes to their end.
theorem statements_recovered {s : State} {rounds : Nat} {stmts : List Statement}
    {errors : List SyntaxError} {s' : State} (hfinish : s.finish.kind = .endOfInput)
    (hrounds : s.tokens.length ≤ rounds) (h : statements rounds s = (stmts, errors, s')) :
    s'.tokens = [] ∧ Recovered s.finish (segments s.tokens) stmts errors := by
  induction rounds generalizing s stmts errors with
  | zero =>
      have hs : s.tokens = [] := List.length_eq_zero_iff.mp (Nat.le_zero.mp hrounds)
      cases h
      exact ⟨hs, hs ▸ .done⟩
  | succ rounds ih =>
      rw [statements] at h
      split at h
      · rename_i hs
        cases h
        exact ⟨List.isEmpty_iff.mp hs, List.isEmpty_iff.mp hs ▸ .done⟩
      · rename_i hne
        rw [List.isEmpty_iff] at hne
        split at h
        · rename_i stmt s₁ hstatement
          have hattempt := attempt_statement hfinish
          rw [hstatement] at hattempt
          cases hattempt with
          | @read seg _ _ finish tokens wellFormed integers =>
          have hsegment : IsSegment seg s₁.tokens := wellFormed.isSegment
          have hlength : s₁.tokens.length ≤ rounds := by
            rw [tokens] at hrounds
            exact Nat.le_of_lt_succ (Nat.lt_of_lt_of_le hsegment.length_lt hrounds)
          cases h
          obtain ⟨hend, hrest⟩ := ih (finish ▸ hfinish) hlength rfl
          rw [tokens, hsegment.segments_append]
          exact ⟨hend, .read wellFormed integers (finish ▸ hrest)⟩
        · rename_i error s₁ hstatement
          obtain ⟨finish, seg, tokens, hsegment, hplaced⟩ :=
            exists_segment_of_error hfinish hne hstatement
          have hlength : (resume s₁.tokens).length ≤ rounds := by
            rw [tokens] at hrounds
            exact Nat.le_of_lt_succ (Nat.lt_of_lt_of_le hsegment.length_lt hrounds)
          cases h
          obtain ⟨hend, hrest⟩ :=
            ih (s := { s₁ with tokens := resume s₁.tokens }) (finish ▸ hfinish) hlength rfl
          have hillFormed : ∀ e, ¬WellFormed seg e :=
            fun e => not_wellFormed_of_error hstatement tokens
          rw [tokens, hsegment.segments_append]
          refine ⟨hend, .failed hillFormed ?_ (finish ▸ hrest)⟩
          rw [segments, List.flatten_splitBy]
          exact hplaced

section Recovered

variable {finish : Token} {segs : List (List Token)} {stmts : List Statement}
  {errors : List SyntaxError}

theorem Recovered.length_errors (h : Recovered finish segs stmts errors) :
    errors.length = segs.countP fun seg => ¬∃ e, WellFormed seg e := by
  induction h with
  | done => rfl
  | read wellFormed _ _ ih =>
      rw [ih, List.countP_cons_of_neg]
      simpa using ⟨_, wellFormed⟩
  | failed illFormed _ _ ih =>
      rw [List.length_cons, ih, List.countP_cons_of_pos]
      simpa using illFormed

theorem Recovered.trees (h : Recovered finish segs stmts errors) :
    List.Forall₂ WellFormed (segs.filter fun seg => ∃ e, WellFormed seg e)
      (stmts.map fun stmt => stmt.value.bare) := by
  induction h with
  | done => exact .nil
  | read wellFormed _ _ ih =>
      rw [List.filter_cons_of_pos (by simpa using ⟨_, wellFormed⟩)]
      exact .cons wellFormed ih
  | failed illFormed _ _ ih =>
      rw [List.filter_cons_of_neg (by simpa using illFormed)]
      exact ih

theorem Recovered.eq_nil (h : Recovered finish [] stmts errors) : stmts = [] ∧ errors = [] := by
  cases h
  exact ⟨rfl, rfl⟩

end Recovered

-- A source read as a program: what its segments give, and an error more if it has no tokens.
theorem parse_recovered (source : Text) :
    ∃ errors, (Program.parse source).2.state.tokens = [] ∧
      Recovered (Lexer.endToken source) (segments (sourceTokens source))
        (Program.parse source).1.statements errors ∧
      (Program.parse source).2.syntactic =
        (if (sourceTokens source).isEmpty then
          [⟨.expected (.keyword .escreve) (Lexer.endToken source), (Lexer.endToken source).span⟩]
        else []) ++ errors := by
  obtain ⟨hend, hrecovered⟩ :=
    statements_recovered (s := (ofSource source).state) rfl (Nat.le_refl _) rfl
  exact ⟨_, hend, hrecovered, rfl⟩

-- Errors are local. Reading comes to the end of input with the trees of the well-formed segments,
-- in order, and with one error for each other segment, in order and at its place. A source without
-- tokens is one error.
theorem parse_recovers_locally (source : Text) :
    let tokens := sourceTokens source
    let tree := (Program.parse source).1
    let reader := (Program.parse source).2
    reader.state.tokens = [] ∧
      (tokens = [] → tree.statements = [] ∧
        ∃ error, reader.syntactic = [error] ∧ error.span = (Lexer.endToken source).span) ∧
      (tokens ≠ [] →
        Recovered (Lexer.endToken source) (segments tokens) tree.statements reader.syntactic ∧
        List.Forall₂ WellFormed ((segments tokens).filter fun seg => ∃ e, WellFormed seg e)
          (tree.statements.map fun stmt => stmt.value.bare) ∧
        reader.syntactic.length = (segments tokens).countP fun seg => ¬∃ e, WellFormed seg e) := by
  intro tokens tree reader
  obtain ⟨errors, hend, hrecovered, hsyntactic⟩ := parse_recovered source
  refine ⟨hend, fun hnil => ?_, fun hne => ?_⟩
  · rw [show sourceTokens source = [] from hnil] at hrecovered hsyntactic
    obtain ⟨hstatements, rfl⟩ := hrecovered.eq_nil
    exact ⟨hstatements, _, hsyntactic, rfl⟩
  · have hempty : tokens.isEmpty = false := List.isEmpty_eq_false_iff.mpr hne
    have herrors : reader.syntactic = errors := by
      rw [show reader.syntactic = _ from hsyntactic, hempty]
      rfl
    rw [herrors]
    exact ⟨hrecovered, hrecovered.trees, hrecovered.length_errors⟩

example : (segments (sourceTokens "escreve 1 + ; escreve 2; 3")).map tree? =
    [none, some (.int default 2), none] := by
  decide +kernel

end Parser

end Tuga
