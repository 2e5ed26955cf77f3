import Tuga.Proofs.Tree.Grammar

namespace Tuga

-- The integer literal that a token is, with its place.
def Token.integer? (t : Token) : Option (Span × Int) :=
  if t.kind = .integer then some (t.span, Text.toNat t.literal) else none

namespace Expr

-- The integer literal that a node is, with its place.
def integer? : Expr → Option (Span × Int)
  | .int info value => some (info.span, value)
  | _ => none

-- The integer literals in an expression, from left to right.
def integers (e : Expr) : List (Span × Int) :=
  e.nodes.filterMap integer?

section Integers

variable (info : NodeInfo) (e left right : Expr)

@[simp] theorem integers_int (value : Int) : (int info value).integers = [(info.span, value)] := rfl

@[simp] theorem integers_real (value : Real64) : (real info value).integers = [] := rfl

@[simp] theorem integers_bool (value : Bool) : (bool info value).integers = [] := rfl

@[simp] theorem integers_text (quoted : Text) : (text info quoted).integers = [] := rfl

@[simp] theorem integers_paren : (paren info e).integers = e.integers := rfl

@[simp] theorem integers_neg : (neg info e).integers = e.integers := rfl

@[simp] theorem integers_not : (not info e).integers = e.integers := rfl

@[simp] theorem integers_binary (level : Level) (op : Operator) :
    (binary info level op left right).integers = left.integers ++ right.integers := by
  rw [integers, nodes, List.filterMap_cons_none rfl, List.filterMap_append]
  rfl

end Integers

end Expr

namespace Parser

open Grammar

-- An expression read from the tokens `used`.
structure Matches (ph : Phrase) (used : List Token) (e : Expr) : Prop where
  derives : Derives ph used e.bare
  inRange : ∀ t ∈ used, t.InRange
  integers : e.integers = used.filterMap Token.integer?

-- An expression that extends `left` by what the tokens `used` say.
structure Extends (level : Level) (left : Expr) (used : List Token) (e : Expr) : Prop where
  derives : Derives (.more level left.bare) used e.bare
  inRange : ∀ t ∈ used, t.InRange
  integers : e.integers = left.integers ++ used.filterMap Token.integer?

-- What a reader comes to from a state: it uses up some tokens, all inside a statement, and a failure
-- is reported at the token where reading stopped.
def Reaches {α : Type} (s : State) (x : Parse α) (post : List Token → α → Prop) : Prop :=
  match x s with
  | .ok a s' => s'.finish = s.finish ∧
      ∃ used, s.tokens = used ++ s'.tokens ∧ (∀ t ∈ used, t.Inner) ∧ post used a
  | .error e s' => s'.finish = s.finish ∧
      ∃ used, s.tokens = used ++ s'.tokens ∧ (∀ t ∈ used, t.Inner) ∧ e.span = s'.current.span

-- What a reader does wherever it starts.
def Follows {α : Type} (x : Parse α) (post : List Token → α → Prop) : Prop :=
  ∀ s : State, s.finish.kind = .endOfInput → Reaches s x post

theorem State.exists_tokens {s : State} (hfinish : s.finish.kind = .endOfInput)
    (h : s.current.kind ≠ .endOfInput) : ∃ rest, s.tokens = s.current :: rest := by
  cases hs : s.tokens with
  | nil =>
      have hcurrent : s.current = s.finish := by rw [State.current, hs, List.headD_nil]
      exact absurd (hcurrent ▸ hfinish) h
  | cons t rest => exact ⟨rest, by rw [State.current, hs, List.headD_cons]⟩

section Bind

variable {α β : Type} {s s' : State}

theorem bind_of_ok {x : Parse α} {a : α} (h : x s = .ok a s') (f : α → Parse β) :
    (x >>= f) s = f a s' := by
  change EStateM.bind x f s = f a s'
  rw [EStateM.bind, h]

theorem advance_bind {t : Token} {rest : List Token} (hs : s.tokens = t :: rest)
    (f : Unit → Parse α) : (advance >>= f) s = f () { s with tokens := rest } := by
  change f () { s with tokens := s.tokens.tail } = _
  rw [hs, List.tail_cons]

end Bind

namespace Reaches

variable {α β : Type} {s : State} {x : Parse α} {t : Token} {rest : List Token}
  {post : List Token → α → Prop} {post' : List Token → β → Prop}

theorem bind {f : α → Parse β} (hx : Reaches s x post)
    (hf : ∀ a s' used, s'.finish = s.finish → post used a →
      Reaches s' (f a) fun more => post' (used ++ more)) : Reaches s (x >>= f) post' := by
  change match EStateM.bind x f s with | .ok a s' => _ | .error _ s' => _
  rw [EStateM.bind]
  rw [Reaches] at hx
  cases hxs : x s with
  | error e s' =>
      rw [hxs] at hx
      exact hx
  | ok a s' =>
      rw [hxs] at hx
      obtain ⟨hfinish, used, htokens, hinner, hpost⟩ := hx
      have hsecond := hf a s' used hfinish hpost
      rw [Reaches] at hsecond
      simp only
      cases hfs : f a s' with
      | error e s'' =>
          rw [hfs] at hsecond
          obtain ⟨hfinish', used', htokens', hinner', hspan⟩ := hsecond
          refine ⟨hfinish'.trans hfinish, used ++ used', ?_,
            List.forall_mem_append.mpr ⟨hinner, hinner'⟩, hspan⟩
          rw [htokens, htokens', List.append_assoc]
      | ok b s'' =>
          rw [hfs] at hsecond
          obtain ⟨hfinish', used', htokens', hinner', hpost'⟩ := hsecond
          refine ⟨hfinish'.trans hfinish, used ++ used', ?_,
            List.forall_mem_append.mpr ⟨hinner, hinner'⟩, hpost'⟩
          rw [htokens, htokens', List.append_assoc]

theorem pure {a : α} (h : post [] a) : Reaches s (Pure.pure a) post :=
  ⟨rfl, [], rfl, by simp, h⟩

theorem fail {cause : SyntaxCause} : Reaches s (Parser.fail cause) post :=
  ⟨rfl, [], rfl, by simp, rfl⟩

theorem current {f : Token → Parse α} (h : Reaches s (f s.current) post) :
    Reaches s (Parser.current >>= f) post := h

theorem get {f : State → Parse α} (h : Reaches s (f s) post) :
    Reaches s (MonadState.get >>= f) post := h

theorem build {span : Span} {make : NodeInfo → α}
    (h : ∀ info : NodeInfo, info.span = span → post [] (make info)) :
    Reaches s (Parser.build span make) post :=
  ⟨rfl, [], rfl, by simp, h _ rfl⟩

theorem built {span : Span} {make : NodeInfo → α} {f : α → Parse β}
    (h : ∀ info s', s'.finish = s.finish → Reaches s' (f (make info)) post') :
    Reaches s (Parser.build span make >>= f) post' := by
  exact h _ { s with builder := _ } rfl

theorem mono {post' : List Token → α → Prop} (h : Reaches s x post)
    (hpost : ∀ used a, post used a → post' used a) : Reaches s x post' := by
  rw [Reaches] at h ⊢
  cases hxs : x s with
  | error e s' =>
      rw [hxs] at h
      exact h
  | ok a s' =>
      rw [hxs] at h
      obtain ⟨hfinish, used, htokens, hinner, ha⟩ := h
      exact ⟨hfinish, used, htokens, hinner, hpost used a ha⟩

theorem advance {f : Unit → Parse α} (hs : s.tokens = t :: rest) (ht : t.Inner)
    (h : Reaches { s with tokens := rest } (f ()) fun more => post (t :: more)) :
    Reaches s (Parser.advance >>= f) post := by
  rw [Reaches] at h ⊢
  rw [advance_bind hs]
  cases hf : f () { s with tokens := rest } with
  | error e s' =>
      rw [hf] at h
      obtain ⟨hfinish, used, rfl, hinner, hspan⟩ := h
      exact ⟨hfinish, t :: used, hs, List.forall_mem_cons.mpr ⟨ht, hinner⟩, hspan⟩
  | ok a s' =>
      rw [hf] at h
      obtain ⟨hfinish, used, rfl, hinner, hpost⟩ := h
      exact ⟨hfinish, t :: used, hs, List.forall_mem_cons.mpr ⟨ht, hinner⟩, hpost⟩

theorem expect {kind : Token.Kind} (hfinish : s.finish.kind = .endOfInput)
    (hkind : kind ≠ .endOfInput) (hinner : ∀ t : Token, t.kind = kind → t.Inner) :
    Reaches s (Parser.expect kind) fun used _ => ∃ t, used = [t] ∧ t.kind = kind := by
  refine .current ?_
  split
  · rename_i h
    obtain ⟨rest, hs⟩ := s.exists_tokens hfinish (h ▸ hkind)
    exact ⟨rfl, [s.current], by simp [hs], by simpa using hinner _ h, _, rfl, h⟩
  · exact .fail

theorem literal {make : NodeInfo → Expr} (hs : s.tokens = t :: rest)
    (h : ∀ info : NodeInfo, info.span = t.span → Matches .primary [t] (make info)) :
    Reaches s (Parser.advance >>= fun _ => Parser.build t.span make) (Matches .primary) := by
  have hinner := (h ⟨0, t.span⟩ rfl).derives.inner t (by simp)
  exact .advance hs hinner (.build h)

end Reaches

variable {x : Parse Expr}

theorem follows_primary (hx : Follows x (Matches (.level .disjunction))) :
    Follows (primary x) (Matches .primary) := by
  intro s hfinish
  refine .current ?_
  split
  · rename_i hkind
    obtain ⟨rest, hs⟩ := s.exists_tokens hfinish (by simp [hkind])
    dsimp only
    split
    · exact .fail
    · rename_i hmax
      have hrange : s.current.InRange := by
        intro _
        simp only [maxInteger] at hmax
        omega
      exact .literal hs fun info hinfo =>
        ⟨.int hkind, by simpa using hrange, by simp [Token.integer?, hkind, hinfo]⟩
  · rename_i hkind
    obtain ⟨rest, hs⟩ := s.exists_tokens hfinish (by simp [hkind])
    exact .literal hs fun info hinfo =>
      ⟨.real hkind, by simp [Token.InRange, hkind], by simp [Token.integer?, hkind]⟩
  · rename_i hkind
    obtain ⟨rest, hs⟩ := s.exists_tokens hfinish (by simp [hkind])
    exact .literal hs fun info hinfo =>
      ⟨.text hkind, by simp [Token.InRange, hkind], by simp [Token.integer?, hkind]⟩
  · rename_i hkind
    obtain ⟨rest, hs⟩ := s.exists_tokens hfinish (by simp [hkind])
    exact .literal hs fun info hinfo =>
      ⟨.verdadeiro hkind, by simp [Token.InRange, hkind], by simp [Token.integer?, hkind]⟩
  · rename_i hkind
    obtain ⟨rest, hs⟩ := s.exists_tokens hfinish (by simp [hkind])
    exact .literal hs fun info hinfo =>
      ⟨.falso hkind, by simp [Token.InRange, hkind], by simp [Token.integer?, hkind]⟩
  · rename_i hkind
    obtain ⟨rest, hs⟩ := s.exists_tokens hfinish (by simp [hkind])
    refine .advance hs (by simp [Token.Inner, hkind]) ?_
    refine (hx { s with tokens := rest } hfinish).bind fun e s' used hfinish' he => .current ?_
    have hclosing : Reaches s' (expect (.symbol .rightParen)) _ :=
      .expect (hfinish' ▸ hfinish) (by simp) (by simp +contextual [Token.Inner])
    refine hclosing.bind fun _ s'' closing _ hclosing => ?_
    obtain ⟨u, rfl, hu⟩ := hclosing
    refine .build fun info _ => ?_
    rw [List.append_nil]
    refine ⟨.paren hkind he.derives hu, ?_, ?_⟩
    · simp only [List.forall_mem_cons, List.forall_mem_append]
      exact ⟨by simp [Token.InRange, hkind], he.inRange, by simp [Token.InRange, hu], by simp⟩
    · simp [Token.integer?, hkind, hu, he.integers]
  · exact .fail

theorem follows_chainFrom {level : Level} (hx : Follows x (Matches (operands level))) (steps : Nat)
    (left : Expr) : Follows (chainFrom x level steps left) (Extends level left) := by
  induction steps generalizing left with
  | zero => exact fun s _ => .pure ⟨.done, by simp, by simp⟩
  | succ steps ih =>
      intro s hfinish
      refine .current ?_
      split
      · exact .pure ⟨.done, by simp, by simp⟩
      · rename_i op hop
        have hsign := operator?_eq_some_iff.mp hop
        have hkind : s.current.kind ≠ .endOfInput ∧ s.current.kind ≠ .integer := by
          cases h : s.current.kind <;> rw [h] at hsign <;> cases hsign <;> simp
        obtain ⟨rest, hs⟩ := s.exists_tokens hfinish hkind.1
        refine .advance hs hsign.inner ?_
        refine (hx { s with tokens := rest } hfinish).bind fun right s' used hfinish' hright => ?_
        refine .built fun info s'' hfinish'' => ?_
        have hfinish : s''.finish.kind = .endOfInput := by
          rw [hfinish'', hfinish']
          exact hfinish
        refine (ih (.binary info level op left right) s'' hfinish).mono fun more e he => ?_
        refine ⟨.more hsign hright.derives he.derives, ?_, ?_⟩
        · simp only [List.forall_mem_cons, List.forall_mem_append]
          exact ⟨fun h => absurd h hkind.2, hright.inRange, he.inRange⟩
        · simp [he.integers, hright.integers, Token.integer?, hkind.2]

theorem follows_chain {level : Level} (hx : Follows x (Matches (operands level))) :
    Follows (chain x level) (Matches (.level level)) := by
  intro s hfinish
  refine (hx s hfinish).bind fun left s' used hfinish' hleft => ?_
  refine .get ((follows_chainFrom hx _ left s' (hfinish' ▸ hfinish)).mono fun more e he => ?_)
  refine ⟨.level hleft.derives he.derives, ?_, ?_⟩
  · exact List.forall_mem_append.mpr ⟨hleft.inRange, he.inRange⟩
  · rw [he.integers, hleft.integers, List.filterMap_append]

theorem follows_levels (hx : Follows x (Matches .unary)) :
    Follows (levels x) (Matches (.level .disjunction)) := by
  have hmul : Follows (chain x .multiplicative) (Matches (.level .multiplicative)) :=
    follows_chain hx
  have hadd : Follows _ (Matches (.level .additive)) := follows_chain hmul
  have hrel : Follows _ (Matches (.level .relational)) := follows_chain hadd
  have heq : Follows _ (Matches (.level .equality)) := follows_chain hrel
  have hand : Follows _ (Matches (.level .conjunction)) := follows_chain heq
  exact follows_chain hand

theorem follows_operand (depth : Nat) : Follows (operand depth) (Matches .unary) := by
  induction depth with
  | zero => exact fun s _ => .current .fail
  | succ depth ih =>
      intro s hfinish
      refine .current ?_
      split
      · rename_i hkind
        obtain ⟨rest, hs⟩ := s.exists_tokens hfinish (by simp [hkind])
        refine .advance hs (by simp [Token.Inner, hkind]) ?_
        refine (ih { s with tokens := rest } hfinish).bind fun e s' used _ he => ?_
        refine .build fun info _ => ?_
        rw [List.append_nil]
        refine ⟨.neg hkind he.derives, ?_, by simp [he.integers, Token.integer?, hkind]⟩
        exact List.forall_mem_cons.mpr ⟨by simp [Token.InRange, hkind], he.inRange⟩
      · rename_i hkind
        obtain ⟨rest, hs⟩ := s.exists_tokens hfinish (by simp [hkind])
        refine .advance hs (by simp [Token.Inner, hkind]) ?_
        refine (ih { s with tokens := rest } hfinish).bind fun e s' used _ he => ?_
        refine .build fun info _ => ?_
        rw [List.append_nil]
        refine ⟨.not hkind he.derives, ?_, by simp [he.integers, Token.integer?, hkind]⟩
        exact List.forall_mem_cons.mpr ⟨by simp [Token.InRange, hkind], he.inRange⟩
      · refine (follows_primary (follows_levels ih) s hfinish).mono fun used e he => ?_
        exact ⟨.primary he.derives, he.inRange, he.integers⟩

theorem follows_expression : Follows expression (Matches (.level .disjunction)) := by
  intro s hfinish
  exact .get (follows_levels (follows_operand _) s hfinish)

end Parser

end Tuga
