import Tuga.Proofs.Token.Tiling
import Tuga.Proofs.Tree.Made
import Tuga.Proofs.Tree.Recovery

namespace Tuga

-- The first stretch lies inside the second.
def Span.Within (inner outer : Span) : Prop :=
  outer.start.offset ≤ inner.start.offset ∧ inner.stop.offset ≤ outer.stop.offset

-- The first stretch ends where the second starts, or before.
def Span.Before (first second : Span) : Prop :=
  first.stop.offset ≤ second.start.offset

-- What holds of a node if it holds of its parts holds of every expression.
theorem Expr.children_induction {motive : Expr → Prop}
    (h : ∀ e, (∀ part ∈ e.children, motive part) → motive e) (e : Expr) : motive e := by
  induction e with
  | int | real | bool | text => exact h _ (by simp [children])
  | paren _ _ ih | neg _ _ ih | not _ _ ih => exact h _ (by simpa [children] using ih)
  | binary _ _ _ _ _ ih ih' => exact h _ (by simp [children, ih, ih'])

-- A node that is not empty, with its parts inside it and one behind the other.
structure Expr.Encloses (e : Expr) : Prop where
  start_lt_stop : e.span.start.offset < e.span.stop.offset
  within : ∀ part ∈ e.children, part.span.Within e.span
  ordered : e.children.Pairwise fun first second => first.span.Before second.span

-- A program with its statements inside it and one behind the other, and what they print inside
-- them. So it goes on with the expressions.
structure Program.Nested (p : Program) : Prop where
  within : ∀ s ∈ p.statements, s.info.span.Within p.info.span
  ordered : p.statements.Pairwise fun first second => first.info.span.Before second.info.span
  values : ∀ s ∈ p.statements, s.value.span.Within s.info.span
  expressions : ∀ e ∈ p.expressions, e.Encloses

-- Tokens that stand one behind the other, none of them empty.
structure Token.Ordered (ts : List Token) : Prop where
  start_lt_stop : ∀ t ∈ ts, t.span.start.offset < t.span.stop.offset
  before : ts.Pairwise fun t u => t.span.Before u.span

namespace Token.Ordered

variable {ts us : List Token} {t u : Token}

theorem sublist (h : Ordered ts) (hus : us.Sublist ts) : Ordered us :=
  ⟨fun t ht => h.start_lt_stop t (hus.mem ht), h.before.sublist hus⟩

theorem head_le (h : Ordered ts) (ht : t ∈ ts.head?) (hu : u ∈ ts) :
    t.span.start.offset ≤ u.span.start.offset := by
  obtain ⟨rest, rfl⟩ := List.head?_eq_some_iff.mp ht
  have hlt := h.start_lt_stop t (by simp)
  rcases List.mem_cons.mp hu with rfl | hu
  · exact Int.le_refl _
  · have hbefore := List.rel_of_pairwise_cons h.before hu
    unfold Span.Before at hbefore
    omega

theorem le_last (h : Ordered ts) (hu : u ∈ ts.getLast?) (ht : t ∈ ts) :
    t.span.stop.offset ≤ u.span.stop.offset := by
  obtain ⟨rest, rfl⟩ := List.getLast?_eq_some_iff.mp hu
  have hlt := h.start_lt_stop u (by simp)
  rcases List.mem_append.mp ht with ht | ht
  · have hbefore := (List.pairwise_append.mp h.before).2.2 t ht u (by simp)
    unfold Span.Before at hbefore
    omega
  · obtain rfl := List.mem_singleton.mp ht
    exact Int.le_refl _

end Token.Ordered

-- The stretch from the first to the last of some tokens.
def Span.Covers (span : Span) (ts : List Token) : Prop :=
  ∃ first last, first ∈ ts.head? ∧ last ∈ ts.getLast? ∧ span = ⟨first.span.start, last.span.stop⟩

namespace Span.Covers

variable {span span' : Span} {ts us : List Token}

theorem within (h : span.Covers ts) (hts : Token.Ordered ts) (h' : span'.Covers us)
    (hus : us ⊆ ts) : span'.Within span := by
  obtain ⟨first, last, hfirst, hlast, rfl⟩ := h
  obtain ⟨first', last', hfirst', hlast', rfl⟩ := h'
  exact ⟨hts.head_le hfirst (hus (List.mem_of_mem_head? hfirst')),
    hts.le_last hlast (hus (List.mem_of_mem_getLast? hlast'))⟩

theorem before (h : span.Covers ts) (h' : span'.Covers us)
    (hbefore : ∀ t ∈ ts, ∀ u ∈ us, t.span.Before u.span) : span.Before span' := by
  obtain ⟨_, last, -, hlast, rfl⟩ := h
  obtain ⟨first, _, hfirst, -, rfl⟩ := h'
  exact hbefore last (List.mem_of_mem_getLast? hlast) first (List.mem_of_mem_head? hfirst)

theorem start_lt_stop (h : span.Covers ts) (hts : Token.Ordered ts) :
    span.start.offset < span.stop.offset := by
  obtain ⟨first, last, hfirst, hlast, rfl⟩ := h
  have hmem := List.mem_of_mem_head? hfirst
  exact Int.lt_of_lt_of_le (hts.start_lt_stop first hmem) (hts.le_last hlast hmem)

end Span.Covers

namespace Lexer

-- What tiles a text stands inside it, one behind the other.
theorem Tiles.ordered {text : Text} {offset : Nat} {lexemes : List Lexeme}
    (h : Tiles text offset lexemes) :
    (∀ lexeme ∈ lexemes, offset ≤ lexeme.span.start.offset ∧
      lexeme.span.start.offset < lexeme.span.stop.offset ∧
      lexeme.span.stop.offset ≤ text.length) ∧
    lexemes.Pairwise fun first second => first.span.Before second.span := by
  induction h with
  | done => exact ⟨by simp, .nil⟩
  | @next offset start stop lexeme rest hstart hstop hend _ hspan _ _ ih =>
      have hfirst : lexeme.span.start.offset = start := by rw [hspan]; rfl
      have hlast : lexeme.span.stop.offset = stop := by rw [hspan]; rfl
      refine ⟨List.forall_mem_cons.mpr ⟨by omega, fun next hnext => ?_⟩, .cons ?_ ih.2⟩
      · obtain ⟨hle, hrest⟩ := ih.1 next hnext
        exact ⟨by omega, hrest⟩
      · intro next hnext
        have hle := (ih.1 next hnext).1
        unfold Span.Before
        omega

theorem tiles_lexemes (source : Text) : Tiles (readable source) 0 (lexemes source) := by
  have hall : (readable source).characters = [] ++ (readable source).characters := rfl
  rw [lexemes, visible_eq]
  exact tiles_lexemesAfter hall

theorem endToken_stop (source : Text) :
    (endToken source).span.stop.offset = (readable source).length := by
  have hall : (readable source).characters = visible source ++ [] := by
    rw [visible_eq, List.append_nil]
  change (Position.start.afterAll (visible source)).offset = _
  rw [Position.afterAll_start_eq_ofOffset hall, visible_eq, Text.ofCharacters_characters]
  rfl

end Lexer

theorem mem_sourceTokens {source : Text} {t : Token} :
    t ∈ sourceTokens source ↔ .token t ∈ Lexer.lexemes source := by
  rw [sourceTokens, Lexer.tokens, List.mem_filterMap]
  constructor
  · rintro ⟨lexeme, hlexeme, ht⟩
    cases lexeme with
    | token u => exact Option.some.inj ht ▸ hlexeme
    | error e => cases ht
  · exact fun h => ⟨_, h, rfl⟩

theorem ordered_sourceTokens (source : Text) : Token.Ordered (sourceTokens source) := by
  obtain ⟨hall, hordered⟩ := (Lexer.tiles_lexemes source).ordered
  refine ⟨fun t ht => (hall _ (mem_sourceTokens.mp ht)).2.1, ?_⟩
  refine hordered.filterMap _ fun lexeme lexeme' hbefore t ht u hu => ?_
  cases lexeme with
  | error => cases ht
  | token =>
      cases lexeme' with
      | error => cases hu
      | token =>
          cases ht
          cases hu
          exact hbefore

theorem stop_le_endToken {source : Text} {t : Token} (ht : t ∈ sourceTokens source) :
    t.span.stop.offset ≤ (Lexer.endToken source).span.stop.offset := by
  rw [Lexer.endToken_stop]
  exact ((Lexer.tiles_lexemes source).ordered.1 _ (mem_sourceTokens.mp ht)).2.2

namespace Grammar

-- The grammar with places. An operator has what stands before it as its left operand, and a node
-- goes from its first token to its last.
inductive Covers : Phrase → List Token → Expr → Prop
  | literal {t : Token} {e : Expr} (derives : Derives .primary [t] e.bare) (leaf : e.children = [])
      (span : e.span = t.span) : Covers .primary [t] e
  | paren {t u : Token} {ts : List Token} {info : NodeInfo} {e : Expr}
      (opening : t.kind = .symbol .leftParen) (inner : Covers (.level .disjunction) ts e)
      (closing : u.kind = .symbol .rightParen) (span : info.span = ⟨t.span.start, u.span.stop⟩) :
      Covers .primary (t :: (ts ++ [u])) (.paren info e)
  | primary {ts : List Token} {e : Expr} (inner : Covers .primary ts e) : Covers .unary ts e
  | neg {t : Token} {ts : List Token} {info : NodeInfo} {e : Expr} (minus : t.kind = .symbol .minus)
      (inner : Covers .unary ts e) (span : info.span = ⟨t.span.start, e.span.stop⟩) :
      Covers .unary (t :: ts) (.neg info e)
  | not {t : Token} {ts : List Token} {info : NodeInfo} {e : Expr} (nao : t.kind = .keyword .nao)
      (inner : Covers .unary ts e) (span : info.span = ⟨t.span.start, e.span.stop⟩) :
      Covers .unary (t :: ts) (.not info e)
  | operand {l : Level} {ts : List Token} {e : Expr} (inner : Covers (operands l) ts e) :
      Covers (.level l) ts e
  | binary {l : Level} {op : Operator} {t : Token} {ts us : List Token} {info : NodeInfo}
      {left right : Expr} (sign : Sign l t.kind op) (first : Covers (.level l) ts left)
      (second : Covers (operands l) us right)
      (span : info.span = ⟨left.span.start, right.span.stop⟩) :
      Covers (.level l) (ts ++ t :: us) (.binary info l op left right)

variable {ph ph' : Phrase} {ts us : List Token} {e e' left right : Expr} {l : Level} {op : Operator}
  {t : Token}

theorem Derives.snoc (h : Derives (.more l left) us e) (sign : Sign l t.kind op)
    (next : Derives (operands l) ts right) :
    Derives (.more l left) (us ++ t :: ts) (.binary default l op e right) := by
  generalize hph : Phrase.more l left = ph at h
  induction h generalizing left with
  | done =>
      obtain ⟨rfl, rfl⟩ := Phrase.more.inj hph
      have hlast : Derives (.more l left) (t :: (ts ++ [])) (.binary default l op left right) :=
        .more sign next .done
      rwa [List.append_nil] at hlast
  | more sign' next' _ _ ih =>
      obtain ⟨rfl, rfl⟩ := Phrase.more.inj hph
      rw [List.cons_append, List.append_assoc]
      exact .more sign' next' (ih rfl)
  | _ => cases hph

namespace Covers

theorem derives (h : Covers ph ts e) : Derives ph ts e.bare := by
  induction h with
  | literal derives => exact derives
  | paren opening _ closing _ ih => exact .paren opening ih closing
  | primary _ ih => exact .primary ih
  | neg minus _ _ ih => exact .neg minus ih
  | not nao _ _ ih => exact .not nao ih
  | operand _ ih =>
      have halone := Derives.level ih .done
      rwa [List.append_nil] at halone
  | binary sign _ _ _ ih ih' =>
      cases ih with
      | level first rest =>
          rw [List.append_assoc]
          exact .level first (rest.snoc sign ih')

theorem expression (h : Covers ph ts e) : Covers (.level .disjunction) ts e := by
  have hunary (h : Covers .unary ts e) : Covers (.level .multiplicative) ts e := .operand h
  have hmul (h : Covers (.level .multiplicative) ts e) : Covers (.level .additive) ts e :=
    .operand h
  have hadd (h : Covers (.level .additive) ts e) : Covers (.level .relational) ts e := .operand h
  have hrel (h : Covers (.level .relational) ts e) : Covers (.level .equality) ts e := .operand h
  have heq (h : Covers (.level .equality) ts e) : Covers (.level .conjunction) ts e := .operand h
  have hand (h : Covers (.level .conjunction) ts e) : Covers (.level .disjunction) ts e :=
    .operand h
  cases ph with
  | level l =>
      cases l with
      | multiplicative => exact hand (heq (hrel (hadd (hmul h))))
      | additive => exact hand (heq (hrel (hadd h)))
      | relational => exact hand (heq (hrel h))
      | equality => exact hand (heq h)
      | conjunction => exact hand h
      | disjunction => exact h
  | more => cases h
  | unary => exact hand (heq (hrel (hadd (hmul (hunary h)))))
  | primary => exact hand (heq (hrel (hadd (hmul (hunary (.primary h))))))

theorem exists_part {part : Expr} (h : Covers ph ts e) (hpart : part ∈ e.children) :
    ∃ us, us <:+: ts ∧ Covers (.level .disjunction) us part := by
  induction h with
  | literal _ leaf _ =>
      rw [leaf] at hpart
      cases hpart
  | @paren t u ts _ _ _ inner _ _ _ =>
      obtain rfl := List.mem_singleton.mp hpart
      exact ⟨ts, ⟨[t], [u], by simp⟩, inner⟩
  | neg _ inner _ _ | not _ inner _ _ =>
      obtain rfl := List.mem_singleton.mp hpart
      exact ⟨_, (List.suffix_cons _ _).isInfix, inner.expression⟩
  | primary _ ih | operand _ ih => exact ih hpart
  | @binary _ _ t ts us _ _ _ _ first second _ _ _ =>
      rcases List.mem_cons.mp hpart with rfl | hpart
      · exact ⟨ts, (List.prefix_append _ _).isInfix, first.expression⟩
      · obtain rfl := List.mem_singleton.mp hpart
        exact ⟨us, ⟨ts ++ [t], [], by simp⟩, second.expression⟩

-- Every node of an expression covers a run of its tokens.
theorem exists_run {n : Expr} (h : Covers ph ts e) (hn : n ∈ e.nodes) :
    ∃ us, us <:+: ts ∧ Covers (.level .disjunction) us n := by
  induction e using Expr.children_induction generalizing ph ts with
  | h e ih =>
      rw [Expr.nodes_eq, List.mem_cons] at hn
      rcases hn with rfl | hn
      · exact ⟨ts, List.infix_rfl, h.expression⟩
      · obtain ⟨part, hpart, hn⟩ := List.mem_flatMap.mp hn
        obtain ⟨us, hus, hcovers⟩ := h.exists_part hpart
        obtain ⟨vs, hvs, hcovers⟩ := ih part hpart hcovers hn
        exact ⟨vs, hvs.trans hus, hcovers⟩

theorem span_covers (h : Covers ph ts e) : e.span.Covers ts := by
  induction h with
  | @literal t e _ _ span => exact ⟨t, t, rfl, rfl, span⟩
  | @paren t u ts info e _ _ _ span _ =>
      refine ⟨t, u, rfl, ?_, span⟩
      rw [← List.cons_append, List.getLast?_concat]
      rfl
  | primary _ ih | operand _ ih => exact ih
  | @neg t ts info e _ _ span ih | @not t ts info e _ _ span ih =>
      obtain ⟨first, last, -, hlast, hspan⟩ := ih
      refine ⟨t, last, rfl, ?_, ?_⟩
      · rw [List.getLast?_cons, Option.mem_def.mp hlast]
        rfl
      · change info.span = _
        rw [span, hspan]
  | @binary l op t ts us info left right _ _ _ span ih ih' =>
      obtain ⟨first, _, hfirst, -, hleft⟩ := ih
      obtain ⟨_, last, -, hlast, hright⟩ := ih'
      refine ⟨first, last, ?_, ?_, ?_⟩
      · rw [List.head?_append, Option.mem_def.mp hfirst]
        rfl
      · rw [List.getLast?_append, List.getLast?_cons, Option.mem_def.mp hlast]
        rfl
      · change info.span = _
        rw [span, hleft, hright]

theorem encloses (h : Covers ph ts e) (hts : Token.Ordered ts) : e.Encloses := by
  have hspan := h.span_covers
  have hlt := hspan.start_lt_stop hts
  induction h with
  | literal _ leaf _ => exact ⟨hlt, by simp [leaf], by simp [leaf]⟩
  | paren _ inner _ _ _ | neg _ inner _ _ | not _ inner _ _ =>
      have hinner := hspan.within hts inner.span_covers (by simp)
      exact ⟨hlt, by simp [Expr.children, hinner], List.pairwise_singleton _ _⟩
  | primary _ ih | operand _ ih => exact ih hts hspan hlt
  | binary _ first second _ _ _ =>
      obtain ⟨-, -, hbefore⟩ := List.pairwise_append.mp hts.before
      have hleft := hspan.within hts first.span_covers (by simp)
      have hright := hspan.within hts second.span_covers (by simp)
      have hsides := first.span_covers.before second.span_covers
        fun t ht u hu => hbefore t ht u (by simp [hu])
      exact ⟨hlt, by simp [Expr.children, hleft, hright], by simp [Expr.children, hsides]⟩

end Covers

-- A statement read from tokens: it goes from `escreve` to the semicolon.
inductive CoversStatement : List Token → Statement → Prop
  | intro {t u : Token} {ts : List Token} {stmt : Statement}
      (value : Covers (.level .disjunction) ts stmt.value)
      (span : stmt.info.span = ⟨t.span.start, u.span.stop⟩) :
      CoversStatement (t :: (ts ++ [u])) stmt

-- Statements read from tokens, one behind the other. Tokens in front of a statement and behind the
-- last one are skipped.
inductive CoversAll : List Token → List Statement → Prop
  | done {ts : List Token} : CoversAll ts []
  | next {skipped seg rest : List Token} {stmt : Statement} {stmts : List Statement}
      (first : CoversStatement seg stmt) (later : CoversAll rest stmts) :
      CoversAll (skipped ++ (seg ++ rest)) (stmt :: stmts)

theorem CoversStatement.span_covers {stmt : Statement} (h : CoversStatement ts stmt) :
    stmt.info.span.Covers ts := by
  obtain @⟨t, u, ts, _, _, span⟩ := h
  refine ⟨t, u, rfl, ?_, span⟩
  rw [← List.cons_append, List.getLast?_concat]
  rfl

namespace CoversAll

variable {stmts : List Statement}

theorem skip {skipped : List Token} (h : CoversAll ts stmts) : CoversAll (skipped ++ ts) stmts := by
  cases h with
  | done => exact .done
  | next first later =>
      rw [← List.append_assoc]
      exact .next first later

theorem exists_seg (h : CoversAll ts stmts) {stmt : Statement} (hstmt : stmt ∈ stmts) :
    ∃ seg, seg <:+: ts ∧ CoversStatement seg stmt := by
  induction h with
  | done => cases hstmt
  | @next skipped seg rest stmt' stmts first later ih =>
      rcases List.mem_cons.mp hstmt with rfl | hstmt
      · exact ⟨seg, ⟨skipped, rest, by simp⟩, first⟩
      · obtain ⟨seg', hseg', hcovers⟩ := ih hstmt
        exact ⟨seg', hseg'.trans ⟨skipped ++ seg, [], by simp⟩, hcovers⟩

theorem ordered (h : CoversAll ts stmts) (hts : Token.Ordered ts) :
    stmts.Pairwise fun first second => first.info.span.Before second.info.span := by
  induction h with
  | done => exact .nil
  | @next skipped seg rest stmt stmts first later ih =>
      have hrest : Token.Ordered (seg ++ rest) := hts.sublist (List.sublist_append_right _ _)
      refine .cons (fun stmt' hstmt' => ?_) (ih (hrest.sublist (List.sublist_append_right _ _)))
      obtain ⟨seg', hseg', hcovers⟩ := later.exists_seg hstmt'
      refine first.span_covers.before hcovers.span_covers fun t ht u hu => ?_
      exact (List.pairwise_append.mp hrest.before).2.2 t ht u (hseg'.subset hu)

theorem exists_run (h : CoversAll ts stmts)
    (he : e ∈ stmts.flatMap fun stmt => stmt.value.nodes) :
    ∃ us, us <:+: ts ∧ Covers (.level .disjunction) us e := by
  obtain ⟨stmt, hstmt, he⟩ := List.mem_flatMap.mp he
  obtain ⟨seg, hseg, @⟨t, u, inner, _, hvalue, -⟩⟩ := h.exists_seg hstmt
  obtain ⟨us, hus, hcovers⟩ := hvalue.exists_run he
  exact ⟨us, hus.trans (List.IsInfix.trans ⟨[t], [u], by simp⟩ hseg), hcovers⟩

end CoversAll

end Grammar

namespace Parser

open Grammar

theorem Reaches.expect_current {s : State} {kind : Token.Kind}
    (hfinish : s.finish.kind = .endOfInput) (hkind : kind ≠ .endOfInput)
    (hinner : ∀ t : Token, t.kind = kind → t.Inner) :
    Reaches s (Parser.expect kind) fun used _ => used = [s.current] ∧ s.current.kind = kind := by
  refine .current ?_
  split
  · rename_i h
    obtain ⟨rest, hs⟩ := s.exists_tokens hfinish (h ▸ hkind)
    exact ⟨rfl, [s.current], by simp [hs], by simpa using hinner _ h, rfl, h⟩
  · exact .fail

section Reading

variable {x : Parse Expr} {l : Level}

theorem covers_literal {s : State} {make : NodeInfo → Expr} (hfinish : s.finish.kind = .endOfInput)
    (hkind : s.current.kind ≠ .endOfInput)
    (h : ∀ info : NodeInfo, info.span = s.current.span → Covers .primary [s.current] (make info)) :
    Reaches s (advance >>= fun _ => build s.current.span make) (Covers .primary) := by
  obtain ⟨rest, hs⟩ := s.exists_tokens hfinish hkind
  have hinner := (h ⟨0, s.current.span⟩ rfl).derives.inner s.current (by simp)
  exact .advance hs hinner (.build h)

theorem covers_primary (hx : Follows x (Covers (.level .disjunction))) :
    Follows (primary x) (Covers .primary) := by
  intro s hfinish
  refine .current ?_
  split
  · rename_i hkind
    dsimp only
    split
    · exact .fail
    · exact covers_literal hfinish (by simp [hkind]) fun _ h => .literal (.int hkind) rfl h
  · rename_i hkind
    exact covers_literal hfinish (by simp [hkind]) fun _ h => .literal (.real hkind) rfl h
  · rename_i hkind
    exact covers_literal hfinish (by simp [hkind]) fun _ h => .literal (.text hkind) rfl h
  · rename_i hkind
    exact covers_literal hfinish (by simp [hkind]) fun _ h => .literal (.verdadeiro hkind) rfl h
  · rename_i hkind
    exact covers_literal hfinish (by simp [hkind]) fun _ h => .literal (.falso hkind) rfl h
  · rename_i hkind
    obtain ⟨rest, hs⟩ := s.exists_tokens hfinish (by simp [hkind])
    refine .advance hs (by simp [Token.Inner, hkind]) ?_
    refine (hx { s with tokens := rest } hfinish).bind fun e s' used hfinish' he => .current ?_
    have hclosing : Reaches s' (expect (.symbol .rightParen)) _ :=
      .expect_current (hfinish' ▸ hfinish) (by simp) (by simp +contextual [Token.Inner])
    refine hclosing.bind fun _ s'' closing _ hlast => ?_
    obtain ⟨rfl, hright⟩ := hlast
    refine .build fun info hinfo => ?_
    rw [List.append_nil]
    exact .paren hkind he hright hinfo
  · exact .fail

theorem covers_chainFrom (hx : Follows x (Covers (operands l))) (steps : Nat) {ts : List Token}
    {left : Expr} (hleft : Covers (.level l) ts left) :
    Follows (chainFrom x l steps left) fun used => Covers (.level l) (ts ++ used) := by
  induction steps generalizing ts left with
  | zero =>
      refine fun s _ => .pure ?_
      rwa [List.append_nil]
  | succ steps ih =>
      intro s hfinish
      refine .current ?_
      split
      · refine .pure ?_
        rwa [List.append_nil]
      · rename_i op hop
        have hsign := operator?_eq_some_iff.mp hop
        have hkind : s.current.kind ≠ .endOfInput := by
          intro h
          rw [h] at hsign
          cases hsign
        obtain ⟨rest, hs⟩ := s.exists_tokens hfinish hkind
        refine .advance hs hsign.inner ?_
        refine (hx { s with tokens := rest } hfinish).bind fun right s' used hfinish' hright => ?_
        have hbuild : Reaches s' (build ⟨left.span.start, right.span.stop⟩
            (Expr.binary · l op left right)) fun more e =>
              more = [] ∧ Covers (.level l) (ts ++ s.current :: used) e :=
          .build fun info hinfo => ⟨rfl, .binary hsign hleft hright hinfo⟩
        refine hbuild.bind fun e s'' more hfinish'' hnode => ?_
        obtain ⟨rfl, he⟩ := hnode
        have hfinish : s''.finish.kind = .endOfInput := by
          rw [hfinish'', hfinish']
          exact hfinish
        refine (ih he s'' hfinish).mono fun more e he => ?_
        simpa using he

theorem covers_chain (hx : Follows x (Covers (operands l))) :
    Follows (chain x l) (Covers (.level l)) := by
  intro s hfinish
  refine (hx s hfinish).bind fun left s' used hfinish' hleft => ?_
  exact .get (covers_chainFrom hx _ (.operand hleft) s' (hfinish' ▸ hfinish))

theorem covers_levels (hx : Follows x (Covers .unary)) :
    Follows (levels x) (Covers (.level .disjunction)) := by
  have hmul : Follows (chain x .multiplicative) (Covers (.level .multiplicative)) :=
    covers_chain hx
  have hadd : Follows _ (Covers (.level .additive)) := covers_chain hmul
  have hrel : Follows _ (Covers (.level .relational)) := covers_chain hadd
  have heq : Follows _ (Covers (.level .equality)) := covers_chain hrel
  have hand : Follows _ (Covers (.level .conjunction)) := covers_chain heq
  exact covers_chain hand

theorem covers_operand (depth : Nat) : Follows (operand depth) (Covers .unary) := by
  induction depth with
  | zero => exact fun s _ => .current .fail
  | succ depth ih =>
      intro s hfinish
      refine .current ?_
      split
      · rename_i hkind
        obtain ⟨rest, hs⟩ := s.exists_tokens hfinish (by simp [hkind])
        refine .advance hs (by simp [Token.Inner, hkind]) ?_
        refine (ih { s with tokens := rest } hfinish).bind fun e s' used _ he => ?_
        refine .build fun info hinfo => ?_
        rw [List.append_nil]
        exact .neg hkind he hinfo
      · rename_i hkind
        obtain ⟨rest, hs⟩ := s.exists_tokens hfinish (by simp [hkind])
        refine .advance hs (by simp [Token.Inner, hkind]) ?_
        refine (ih { s with tokens := rest } hfinish).bind fun e s' used _ he => ?_
        refine .build fun info hinfo => ?_
        rw [List.append_nil]
        exact .not hkind he hinfo
      · exact (covers_primary (covers_levels ih) s hfinish).mono fun used e => .primary

theorem covers_expression : Follows expression (Covers (.level .disjunction)) := by
  intro s hfinish
  exact .get (covers_levels (covers_operand _) s hfinish)

end Reading

theorem covers_statement {s s' : State} {stmt : Statement} (hfinish : s.finish.kind = .endOfInput)
    (h : statement s = .ok stmt s') :
    s'.finish = s.finish ∧ ∃ seg, s.tokens = seg ++ s'.tokens ∧ CoversStatement seg stmt := by
  rw [statement, bind_of_ok (current_eq s)] at h
  by_cases hescreve : s.current.kind = .keyword .escreve
  · obtain ⟨rest, hs⟩ := s.exists_tokens hfinish (by simp [hescreve])
    rw [bind_of_ok (expect_eq_ok hs hescreve)] at h
    have hread := covers_expression { s with tokens := rest } hfinish
    rw [Reaches] at hread
    cases hexpression : expression { s with tokens := rest } with
    | error error s₁ =>
        rw [bind_of_error hexpression] at h
        cases h
    | ok value s₁ =>
        rw [hexpression] at hread
        obtain ⟨hfinish₁, inner, htokens, -, hvalue⟩ := hread
        dsimp only at hfinish₁ htokens
        rw [bind_of_ok hexpression, bind_of_ok (current_eq s₁)] at h
        by_cases hsemicolon : s₁.current.kind = .symbol .semicolon
        · obtain ⟨rest', hs₁⟩ := s₁.exists_tokens (hfinish₁ ▸ hfinish) (by simp [hsemicolon])
          rw [bind_of_ok (expect_eq_ok hs₁ hsemicolon)] at h
          cases h
          refine ⟨hfinish₁, s.current :: (inner ++ [s₁.current]), ?_, .intro hvalue rfl⟩
          rw [hs, htokens, hs₁]
          simp
        · rw [bind_of_error (expect_eq_error hsemicolon)] at h
          cases h
  · rw [bind_of_error (expect_eq_error hescreve)] at h
    cases h

theorem covers_statements (rounds : Nat) {s : State} (hfinish : s.finish.kind = .endOfInput) :
    CoversAll s.tokens (statements rounds s).1 ∧ (statements rounds s).2.2.finish = s.finish := by
  induction rounds generalizing s with
  | zero => exact ⟨.done, rfl⟩
  | succ rounds ih =>
      rw [statements]
      split
      · exact ⟨.done, rfl⟩
      rename_i hne
      rw [List.isEmpty_iff] at hne
      split
      · rename_i stmt s' hstatement
        obtain ⟨hfinish', seg, htokens, hseg⟩ := covers_statement hfinish hstatement
        obtain ⟨hcovers, hfinish''⟩ := ih (s := s') (hfinish' ▸ hfinish)
        rw [htokens]
        exact ⟨(CoversAll.next hseg hcovers : CoversAll ([] ++ _) _), hfinish''.trans hfinish'⟩
      · rename_i error s' hstatement
        obtain ⟨hfinish', seg, htokens, -⟩ := exists_segment_of_error hfinish hne hstatement
        obtain ⟨hcovers, hfinish''⟩ :=
          ih (s := { s' with tokens := resume s'.tokens }) (hfinish' ▸ hfinish)
        rw [htokens]
        exact ⟨hcovers.skip, hfinish''.trans hfinish'⟩

theorem covers_parse (source : Text) :
    CoversAll (sourceTokens source) (Program.parse source).1.statements :=
  (covers_statements _ (s := (ofSource source).state) rfl).1

end Parser

theorem Program.span_parse {source : Text} {t : Token} (ht : t ∈ (sourceTokens source).head?) :
    (parse source).1.info.span = ⟨t.span.start, (Lexer.endToken source).span.stop⟩ := by
  obtain ⟨rest, htokens⟩ := List.head?_eq_some_iff.mp ht
  have hfinish := (Parser.covers_statements (sourceTokens source).length
    (s := (Parser.ofSource source).state) rfl).2
  have hcurrent : (Parser.ofSource source).state.current = t := by
    change (sourceTokens source).headD _ = t
    rw [htokens, List.headD_cons]
  change Span.mk _ _ = _
  rw [hcurrent]
  exact congrArg (fun finish : Token => Span.mk t.span.start finish.span.stop) hfinish

-- The tree of every source is nested.
theorem Program.nested_parse (source : Text) : (parse source).1.Nested := by
  have hcovers := Parser.covers_parse source
  have hordered := ordered_sourceTokens source
  refine ⟨fun stmt hstmt => ?_, hcovers.ordered hordered, fun stmt hstmt => ?_, fun e he => ?_⟩
  · obtain ⟨seg, hseg, hcovers⟩ := hcovers.exists_seg hstmt
    obtain ⟨first, last, hfirst, hlast, hspan⟩ := hcovers.span_covers
    have hfirst := hseg.subset (List.mem_of_mem_head? hfirst)
    have hlast := hseg.subset (List.mem_of_mem_getLast? hlast)
    obtain ⟨t, rest, htokens⟩ := List.exists_cons_of_ne_nil (List.ne_nil_of_mem hfirst)
    have ht : t ∈ (sourceTokens source).head? := by rw [htokens]; rfl
    rw [hspan, span_parse ht]
    exact ⟨hordered.head_le ht hfirst, stop_le_endToken hlast⟩
  · obtain ⟨seg, hseg, hcovers⟩ := hcovers.exists_seg hstmt
    have hspan := hcovers.span_covers
    obtain ⟨hvalue, -⟩ := hcovers
    exact hspan.within (hordered.sublist hseg.sublist) hvalue.span_covers (by simp)
  · obtain ⟨us, hus, hcovers⟩ := hcovers.exists_run he
    exact hcovers.encloses (hordered.sublist hus.sublist)

end Tuga
