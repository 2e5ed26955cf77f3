import Tuga.Proofs.Token.Scanning
import Tuga.Proofs.Tree.Grammar
import Tuga.Tree.Parser

namespace Tuga

def Token.unplaced (t : Token) : Token := { t with span := default }

@[simp] theorem Token.kind_unplaced (t : Token) : t.unplaced.kind = t.kind := rfl

@[simp] theorem Token.literal_unplaced (t : Token) : t.unplaced.literal = t.literal := rfl

theorem Token.unplaced_eq_iff {t u : Token} :
    t.unplaced = u.unplaced ↔ t.kind = u.kind ∧ t.literal = u.literal := by
  simp [unplaced]

namespace Lexer

theorem tokens_unplaced (lexemes : List Lexeme) :
    (tokens lexemes).map Token.unplaced =
      (lexemes.map Lexeme.face).filterMap fun face =>
        face.1.map fun kind => ⟨kind, face.2, default⟩ := by
  rw [tokens, List.map_filterMap, List.filterMap_map]
  congr 1
  funext lexeme
  cases lexeme <;> rfl

theorem messages_errors (lexemes : List Lexeme) :
    (errors lexemes).map (fun e => e.cause.message) =
      (lexemes.map Lexeme.face).filterMap fun face =>
        if face.1.isNone then some face.2 else none := by
  rw [errors, List.map_filterMap, List.filterMap_map]
  congr 1
  funext lexeme
  cases lexeme <;> rfl

end Lexer

def SyntaxCause.unplaced : SyntaxCause → SyntaxCause
  | expected kind found => expected kind found.unplaced
  | expectedExpression found => expectedExpression found.unplaced
  | integerOutOfRange literal => integerOutOfRange literal
  | afterExpression found => afterExpression found.unplaced

@[simp] theorem SyntaxCause.message_unplaced (c : SyntaxCause) :
    c.unplaced.message = c.message := by
  cases c <;> rfl

def SyntaxError.unplaced (e : SyntaxError) : SyntaxError := ⟨e.cause.unplaced, default⟩

def NodeInfo.unplaced (info : NodeInfo) : NodeInfo := ⟨info.id, default⟩

-- The expression with the numbers of its nodes, but without their places.
def Expr.unplaced : Expr → Expr
  | .int info value => .int info.unplaced value
  | .real info value => .real info.unplaced value
  | .bool info value => .bool info.unplaced value
  | .text info quoted => .text info.unplaced quoted
  | .paren info inner => .paren info.unplaced inner.unplaced
  | .neg info operand => .neg info.unplaced operand.unplaced
  | .not info operand => .not info.unplaced operand.unplaced
  | .binary info level op left right =>
    .binary info.unplaced level op left.unplaced right.unplaced

theorem Expr.info_unplaced (e : Expr) : e.unplaced.info = e.info.unplaced := by
  cases e <;> rfl

theorem Expr.span_unplaced (e : Expr) : e.unplaced.span = default := by
  rw [span, info_unplaced]
  rfl

def Statement.unplaced (s : Statement) : Statement := ⟨s.info.unplaced, s.value.unplaced⟩

def Program.unplaced (p : Program) : Program :=
  ⟨p.info.unplaced, p.statements.map Statement.unplaced, p.nodeCount⟩

namespace Grammar

variable {ts us : List Token} {ph : Phrase} {e : Expr}

-- The grammar looks at the kinds and texts of tokens only.
theorem Derives.of_unplaced (h : Derives ph ts e)
    (hus : us.map Token.unplaced = ts.map Token.unplaced) : Derives ph us e := by
  induction h generalizing us with
  | level _ _ ih ih' =>
      rw [List.map_append, List.map_eq_append_iff] at hus
      obtain ⟨first, second, rfl, hfirst, hsecond⟩ := hus
      exact .level (ih hfirst) (ih' hsecond)
  | done =>
      obtain rfl := List.map_eq_nil_iff.mp hus
      exact .done
  | more sign _ _ ih ih' =>
      rw [List.map_cons, List.map_append, List.map_eq_cons_iff] at hus
      obtain ⟨t, rest, rfl, ht, hrest⟩ := hus
      obtain ⟨first, second, rfl, hfirst, hsecond⟩ := List.map_eq_append_iff.mp hrest
      rw [← (Token.unplaced_eq_iff.mp ht).1] at sign
      exact .more sign (ih hfirst) (ih' hsecond)
  | neg kind _ ih =>
      obtain ⟨t, rest, rfl, ht, hrest⟩ := List.map_eq_cons_iff.mp hus
      exact .neg ((Token.unplaced_eq_iff.mp ht).1.trans kind) (ih hrest)
  | not kind _ ih =>
      obtain ⟨t, rest, rfl, ht, hrest⟩ := List.map_eq_cons_iff.mp hus
      exact .not ((Token.unplaced_eq_iff.mp ht).1.trans kind) (ih hrest)
  | primary _ ih => exact .primary (ih hus)
  | int kind =>
      obtain ⟨t, rfl, ht⟩ := List.map_eq_singleton_iff.mp hus
      obtain ⟨hkind, hliteral⟩ := Token.unplaced_eq_iff.mp ht
      rw [← hliteral]
      exact .int (hkind.trans kind)
  | real kind =>
      obtain ⟨t, rfl, ht⟩ := List.map_eq_singleton_iff.mp hus
      obtain ⟨hkind, hliteral⟩ := Token.unplaced_eq_iff.mp ht
      rw [← hliteral]
      exact .real (hkind.trans kind)
  | text kind =>
      obtain ⟨t, rfl, ht⟩ := List.map_eq_singleton_iff.mp hus
      obtain ⟨hkind, hliteral⟩ := Token.unplaced_eq_iff.mp ht
      rw [← hliteral]
      exact .text (hkind.trans kind)
  | verdadeiro kind =>
      obtain ⟨t, rfl, ht⟩ := List.map_eq_singleton_iff.mp hus
      exact .verdadeiro ((Token.unplaced_eq_iff.mp ht).1.trans kind)
  | falso kind =>
      obtain ⟨t, rfl, ht⟩ := List.map_eq_singleton_iff.mp hus
      exact .falso ((Token.unplaced_eq_iff.mp ht).1.trans kind)
  | paren opening _ closing ih =>
      obtain ⟨t, rest, rfl, ht, hrest⟩ := List.map_eq_cons_iff.mp hus
      rw [List.map_append, List.map_eq_append_iff] at hrest
      obtain ⟨inner, last, rfl, hinner, hlast⟩ := hrest
      obtain ⟨u, rfl, hu⟩ := List.map_eq_singleton_iff.mp hlast
      exact .paren ((Token.unplaced_eq_iff.mp ht).1.trans opening) (ih hinner)
        ((Token.unplaced_eq_iff.mp hu).1.trans closing)

theorem IsStatement.of_unplaced (h : IsStatement ts e)
    (hus : us.map Token.unplaced = ts.map Token.unplaced) : IsStatement us e := by
  obtain ⟨escreve, value, semicolon⟩ := h
  obtain ⟨t, rest, rfl, ht, hrest⟩ := List.map_eq_cons_iff.mp hus
  rw [List.map_append, List.map_eq_append_iff] at hrest
  obtain ⟨inner, last, rfl, hinner, hlast⟩ := hrest
  obtain ⟨u, rfl, hu⟩ := List.map_eq_singleton_iff.mp hlast
  exact .intro ((Token.unplaced_eq_iff.mp ht).1.trans escreve) (value.of_unplaced hinner)
    ((Token.unplaced_eq_iff.mp hu).1.trans semicolon)

theorem IsProgram.of_unplaced {trees : List Expr} (h : IsProgram ts trees)
    (hus : us.map Token.unplaced = ts.map Token.unplaced) : IsProgram us trees := by
  induction h generalizing us with
  | one h => exact .one (h.of_unplaced hus)
  | cons h _ ih =>
      rw [List.map_append, List.map_eq_append_iff] at hus
      obtain ⟨first, second, rfl, hfirst, hsecond⟩ := hus
      exact .cons (h.of_unplaced hfirst) (ih hsecond)

theorem IsProgram.append {trees trees' : List Expr} (h : IsProgram ts trees)
    (h' : IsProgram us trees') : IsProgram (ts ++ us) (trees ++ trees') := by
  induction h with
  | one h => exact .cons h h'
  | cons h _ ih =>
      rw [List.append_assoc]
      exact .cons h ih

end Grammar

namespace Parser

def State.unplaced (s : State) : State :=
  ⟨s.tokens.map Token.unplaced, s.finish.unplaced, s.builder⟩

@[simp] theorem State.current_unplaced (s : State) : s.unplaced.current = s.current.unplaced := by
  rcases s with ⟨_ | ⟨t, tokens⟩, finish, builder⟩ <;> rfl

-- The result of a reader without places; `erase` takes them from what has been read.
def erased {α : Type} (erase : α → α) :
    EStateM.Result SyntaxError State α → EStateM.Result SyntaxError State α
  | .ok a s => .ok (erase a) s.unplaced
  | .error e s => .error e.unplaced s.unplaced

-- The second reader does without places what the first does with them.
def Mirrors {α : Type} (erase : α → α) (x y : Parse α) : Prop :=
  ∀ s : State, y s.unplaced = erased erase (x s)

namespace Mirrors

variable {α β : Type} {erase : α → α} {erase' : β → β} {x y : Parse α} {f g : α → Parse β}

theorem bind (hx : Mirrors erase x y) (hf : ∀ a, Mirrors erase' (f a) (g (erase a))) :
    Mirrors erase' (x >>= f) (y >>= g) := by
  intro s
  change EStateM.bind y g s.unplaced = erased erase' (EStateM.bind x f s)
  rw [EStateM.bind, EStateM.bind, hx s]
  cases x s with
  | ok a s' => exact hf a s'
  | error e s' => rfl

theorem pure (a : α) : Mirrors erase (Pure.pure a) (Pure.pure (erase a)) := fun _ => rfl

theorem current : Mirrors Token.unplaced Parser.current Parser.current := by
  intro s
  change EStateM.Result.ok s.unplaced.current s.unplaced = _
  rw [State.current_unplaced]
  rfl

theorem get : Mirrors State.unplaced MonadState.get MonadState.get := fun _ => rfl

theorem advance : Mirrors id Parser.advance Parser.advance := by
  rintro ⟨_ | ⟨t, tokens⟩, finish, builder⟩ <;> rfl

theorem fail (cause : SyntaxCause) :
    Mirrors erase (Parser.fail cause) (Parser.fail cause.unplaced) := by
  intro s
  change EStateM.Result.error (SyntaxError.mk _ s.unplaced.current.span) s.unplaced = _
  rw [State.current_unplaced]
  rfl

theorem expect (kind : Token.Kind) : Mirrors id (Parser.expect kind) (Parser.expect kind) := by
  refine current.bind fun token => ?_
  rw [Token.kind_unplaced]
  split
  · exact advance
  · exact fail _

theorem build {make make' : NodeInfo → α} (span : Span)
    (h : ∀ info, make' info.unplaced = erase (make info)) :
    Mirrors erase (Parser.build span make) (Parser.build default make') := by
  intro s
  change EStateM.Result.ok (make' (NodeInfo.unplaced ⟨s.builder.count, span⟩)) _ = _
  rw [h]
  rfl

end Mirrors

variable {x : Parse Expr}

theorem mirrors_primary (hx : Mirrors Expr.unplaced x x) :
    Mirrors Expr.unplaced (primary x) (primary x) := by
  refine Mirrors.current.bind fun token => ?_
  rw [Token.kind_unplaced]
  split
  · dsimp only
    rw [Token.literal_unplaced]
    split
    · exact .fail _
    · exact Mirrors.advance.bind fun _ => .build _ fun _ => rfl
  · exact Mirrors.advance.bind fun _ => .build _ fun _ => rfl
  · exact Mirrors.advance.bind fun _ => .build _ fun _ => rfl
  · exact Mirrors.advance.bind fun _ => .build _ fun _ => rfl
  · exact Mirrors.advance.bind fun _ => .build _ fun _ => rfl
  · refine Mirrors.advance.bind fun _ => hx.bind fun e => Mirrors.current.bind fun closing => ?_
    exact (Mirrors.expect _).bind fun _ => .build _ fun _ => rfl
  · exact .fail _

theorem mirrors_chainFrom (hx : Mirrors Expr.unplaced x x) (level : Level) (steps : Nat)
    (left : Expr) :
    Mirrors Expr.unplaced (chainFrom x level steps left)
      (chainFrom x level steps left.unplaced) := by
  induction steps generalizing left with
  | zero => exact .pure left
  | succ steps ih =>
      refine Mirrors.current.bind fun token => ?_
      rw [Token.kind_unplaced]
      split
      · exact .pure left
      · rename_i op _
        refine Mirrors.advance.bind fun _ => hx.bind fun right => ?_
        rw [Expr.span_unplaced, Expr.span_unplaced]
        have hnode : Mirrors Expr.unplaced
            (build ⟨left.span.start, right.span.stop⟩ (Expr.binary · level op left right))
            (build default (Expr.binary · level op left.unplaced right.unplaced)) :=
          .build _ fun _ => rfl
        exact hnode.bind fun e => ih e

theorem mirrors_chain (hx : Mirrors Expr.unplaced x x) (level : Level) :
    Mirrors Expr.unplaced (chain x level) (chain x level) := by
  refine hx.bind fun left => Mirrors.get.bind fun s => ?_
  have hlength : s.unplaced.tokens.length = s.tokens.length := List.length_map _
  rw [hlength]
  exact mirrors_chainFrom hx level _ left

theorem mirrors_levels (hx : Mirrors Expr.unplaced x x) :
    Mirrors Expr.unplaced (levels x) (levels x) := by
  have hfold : ∀ (ls : List Level) (y : Parse Expr), Mirrors Expr.unplaced y y →
      Mirrors Expr.unplaced (ls.foldl chain y) (ls.foldl chain y) := by
    intro ls
    induction ls with
    | nil => exact fun y hy => hy
    | cons level ls ih => exact fun y hy => ih _ (mirrors_chain hy level)
  exact hfold Level.all x hx

theorem mirrors_operand (depth : Nat) : Mirrors Expr.unplaced (operand depth) (operand depth) := by
  induction depth with
  | zero => exact Mirrors.current.bind fun token => .fail _
  | succ depth ih =>
      refine Mirrors.current.bind fun token => ?_
      rw [Token.kind_unplaced]
      split
      · refine Mirrors.advance.bind fun _ => ih.bind fun e => ?_
        rw [Expr.span_unplaced]
        exact .build _ fun _ => rfl
      · refine Mirrors.advance.bind fun _ => ih.bind fun e => ?_
        rw [Expr.span_unplaced]
        exact .build _ fun _ => rfl
      · exact mirrors_primary (mirrors_levels ih)

theorem mirrors_expression : Mirrors Expr.unplaced expression expression := by
  refine Mirrors.get.bind fun s => ?_
  have hlength : s.unplaced.tokens.length = s.tokens.length := List.length_map _
  rw [hlength]
  exact mirrors_levels (mirrors_operand _)

theorem mirrors_statement : Mirrors Statement.unplaced statement statement := by
  refine Mirrors.current.bind fun first => (Mirrors.expect _).bind fun _ => ?_
  refine mirrors_expression.bind fun value => Mirrors.current.bind fun last => ?_
  exact (Mirrors.expect _).bind fun _ => .build _ fun _ => rfl

theorem resume_unplaced (tokens : List Token) :
    resume (tokens.map Token.unplaced) = (resume tokens).map Token.unplaced := by
  induction tokens with
  | nil => rfl
  | cons t tokens ih =>
      rw [List.map_cons, resume, resume, Token.kind_unplaced]
      split
      · rfl
      · split
        · rfl
        · exact ih

theorem statements_unplaced (rounds : Nat) (s : State) :
    statements rounds s.unplaced =
      ((statements rounds s).1.map Statement.unplaced,
        (statements rounds s).2.1.map SyntaxError.unplaced,
        (statements rounds s).2.2.unplaced) := by
  induction rounds generalizing s with
  | zero => rfl
  | succ rounds ih =>
      have hempty : s.unplaced.tokens.isEmpty = s.tokens.isEmpty := List.isEmpty_map
      rw [statements, statements, hempty]
      split
      · rfl
      · rw [mirrors_statement s]
        cases statement s with
        | ok stmt s' =>
            simp only [erased]
            rw [ih s']
            rfl
        | error e s' =>
            have hresume : { s'.unplaced with tokens := resume s'.unplaced.tokens } =
                State.unplaced { s' with tokens := resume s'.tokens } := by
              simp [State.unplaced, resume_unplaced]
            simp only [erased]
            rw [hresume, ih]
            rfl

-- A program is read from tokens without places as it is from tokens with them.
theorem program_unplaced (s : State) :
    program s.unplaced =
      ((program s).1.unplaced, (program s).2.1.map SyntaxError.unplaced,
        (program s).2.2.unplaced) := by
  have hempty : s.unplaced.tokens.isEmpty = s.tokens.isEmpty := List.isEmpty_map
  have hlength : s.unplaced.tokens.length = s.tokens.length := List.length_map _
  have herrors : (if s.tokens.isEmpty then
        [⟨.expected (.keyword .escreve) s.unplaced.finish, s.unplaced.finish.span⟩] else []) =
      (if s.tokens.isEmpty then [⟨.expected (.keyword .escreve) s.finish, s.finish.span⟩]
        else [] : List SyntaxError).map SyntaxError.unplaced := by
    split <;> rfl
  rw [program, program, hempty, hlength, herrors, statements_unplaced, State.current_unplaced]
  simp only [List.map_append]
  rfl

end Parser

-- The tree and the syntax errors of a source, apart from places, come from its tokens apart from
-- places.
theorem Program.parse_unplaced (source : Text) :
    ((parse source).1.unplaced, (parse source).2.syntactic.map SyntaxError.unplaced) =
      let read := Parser.program ⟨(Lexer.tokens (Lexer.lexemes source)).map Token.unplaced,
        ⟨.endOfInput, [], default⟩, {}⟩
      (read.1, read.2.1) := by
  have h := Parser.program_unplaced (Parser.ofSource source).state
  have hstate : (Parser.ofSource source).state.unplaced =
      ⟨(Lexer.tokens (Lexer.lexemes source)).map Token.unplaced, ⟨.endOfInput, [], default⟩, {}⟩ :=
    rfl
  rw [hstate] at h
  rw [h]
  rfl

end Tuga
