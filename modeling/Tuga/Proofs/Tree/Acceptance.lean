import Tuga.Proofs.Tree.Reading

namespace Tuga

-- How loosely a level binds.
def Level.rank : Level → Nat
  | .multiplicative => 0
  | .additive => 1
  | .relational => 2
  | .equality => 3
  | .conjunction => 4
  | .disjunction => 5

namespace Parser

open Grammar

-- A phrase ends before a token that is no operator of its level or of a tighter one.
def Stops : Phrase → Token.Kind → Prop
  | .level l, kind | .more l _, kind => ∀ l' op, l'.rank ≤ l.rank → ¬Sign l' kind op
  | _, _ => True

section Stops

variable {l : Level} {kind : Token.Kind}

theorem stops_operands (h : ∀ l' op, l'.rank < l.rank → ¬Sign l' kind op) :
    Stops (operands l) kind := by
  cases l
  case multiplicative => trivial
  all_goals
    intro l' op hrank
    exact h l' op (Nat.lt_succ_of_le hrank)

theorem Stops.operands (h : Stops (.level l) kind) : Stops (operands l) kind :=
  stops_operands fun l' op hrank => h l' op (Nat.le_of_lt hrank)

theorem stops_of_sign {op : Operator} (h : Sign l kind op) : Stops (operands l) kind := by
  refine stops_operands fun l' op' hrank h' => ?_
  rw [h.level_unique h'] at hrank
  exact Nat.lt_irrefl _ hrank

end Stops

-- A reader succeeds from a state and leaves the tokens `rest`.
def Gives {α : Type} (s : State) (x : Parse α) (rest : List Token) (post : α → Prop) : Prop :=
  ∃ a s', x s = .ok a s' ∧ s'.tokens = rest ∧ s'.finish = s.finish ∧ post a

namespace Gives

variable {α β : Type} {s : State} {x : Parse α} {t : Token} {mid rest : List Token}
  {post : α → Prop} {post' : β → Prop}

theorem bind {f : α → Parse β} (hx : Gives s x mid post)
    (hf : ∀ a s', s'.tokens = mid → s'.finish = s.finish → post a → Gives s' (f a) rest post') :
    Gives s (x >>= f) rest post' := by
  obtain ⟨a, s', hxs, hmid, hfinish, hpost⟩ := hx
  obtain ⟨b, s'', hfs, hrest, hfinish', hpost'⟩ := hf a s' hmid hfinish hpost
  exact ⟨b, s'', (bind_of_ok hxs f).trans hfs, hrest, hfinish'.trans hfinish, hpost'⟩

theorem pure {a : α} (hs : s.tokens = rest) (h : post a) : Gives s (Pure.pure a) rest post :=
  ⟨a, s, rfl, hs, rfl, h⟩

theorem current {f : Token → Parse α} (h : Gives s (f s.current) rest post) :
    Gives s (Parser.current >>= f) rest post := h

theorem get {f : State → Parse α} (h : Gives s (f s) rest post) :
    Gives s (MonadState.get >>= f) rest post := h

theorem build {span : Span} {make : NodeInfo → α} (hs : s.tokens = rest)
    (h : ∀ info, post (make info)) : Gives s (Parser.build span make) rest post :=
  ⟨_, _, rfl, hs, rfl, h _⟩

theorem advance {f : Unit → Parse α} (hs : s.tokens = t :: mid)
    (h : Gives { s with tokens := mid } (f ()) rest post) :
    Gives s (Parser.advance >>= f) rest post := by
  obtain ⟨a, s', hfs, hrest, hfinish, hpost⟩ := h
  exact ⟨a, s', (advance_bind hs f).trans hfs, hrest, hfinish, hpost⟩

theorem expect {kind : Token.Kind} (hs : s.tokens = t :: rest) (ht : t.kind = kind) :
    Gives s (Parser.expect kind) rest fun _ => True := by
  refine .current ?_
  rw [if_pos (by rw [State.current, hs, List.headD_cons, ht])]
  exact ⟨(), _, rfl, by simp [hs], rfl, trivial⟩

end Gives

-- A reader of expressions accepts what a phrase derives from at most `limit` tokens.
def Accepts (ph : Phrase) (limit : Nat) (x : Parse Expr) : Prop :=
  ∀ ⦃s : State⦄ ⦃used rest : List Token⦄ ⦃e : Expr⦄, Derives ph used e →
    (∀ t ∈ used, t.InRange) → used.length ≤ limit → Stops ph (rest.headD s.finish).kind →
    s.tokens = used ++ rest → Gives s x rest fun e' => e'.bare = e

variable {x : Parse Expr} {limit : Nat} {l : Level} {s : State} {used rest : List Token}
  {left e : Expr}

theorem stops_more {finish : Token} (h : Derives (.more l left) used e)
    (hstops : Stops (.level l) (rest.headD finish).kind) :
    Stops (operands l) ((used ++ rest).headD finish).kind := by
  cases h with
  | done => exact hstops.operands
  | more sign _ _ => exact stops_of_sign sign

theorem accepts_chainFrom (hx : Accepts (operands l) limit x) (steps : Nat)
    (h : Derives (.more l left.bare) used e) (hrange : ∀ t ∈ used, t.InRange)
    (hlimit : used.length ≤ limit) (hsteps : used.length ≤ steps)
    (hstops : Stops (.level l) (rest.headD s.finish).kind) (hs : s.tokens = used ++ rest) :
    Gives s (chainFrom x l steps left) rest fun e' => e'.bare = e := by
  induction steps generalizing s used left with
  | zero =>
      cases h with
      | done => exact .pure hs rfl
      | more => simp at hsteps
  | succ steps ih =>
      refine .current ?_
      cases h with
      | done =>
          rw [List.nil_append] at hs
          have hnone : l.operator? s.current.kind = none := by
            rw [State.current, hs]
            refine Option.eq_none_iff_forall_ne_some.mpr fun op hop => ?_
            exact hstops l op (Nat.le_refl _) (operator?_eq_some_iff.mp hop)
          rw [hnone]
          exact .pure hs rfl
      | @more _ op t ts us _ right _ sign next more =>
          simp only [List.length_cons, List.length_append] at hlimit hsteps
          rw [List.forall_mem_cons, List.forall_mem_append] at hrange
          rw [List.cons_append, List.append_assoc] at hs
          have hop : l.operator? s.current.kind = some op := by
            rw [State.current, hs, List.headD_cons]
            exact operator?_eq_some_iff.mpr sign
          rw [hop]
          refine .advance hs ?_
          have hright : Gives { s with tokens := ts ++ (us ++ rest) } x (us ++ rest) _ :=
            hx next hrange.2.1 (by omega) (stops_more more hstops) rfl
          refine hright.bind fun right' s₁ hs₁ hfinish hbare => ?_
          have hbuild : Gives s₁ (build ⟨left.span.start, right'.span.stop⟩
              (Expr.binary · l op left right')) (us ++ rest)
              fun e => e.bare = .binary default l op left.bare right :=
            .build hs₁ fun info => by rw [Expr.bare, hbare]
          refine hbuild.bind fun e' s₂ hs₂ hfinish' hbare' => ?_
          rw [← hbare'] at more
          refine ih more hrange.2.2 (by omega) (by omega) ?_ hs₂
          rw [hfinish', hfinish]
          exact hstops

theorem accepts_chain (hx : Accepts (operands l) limit x) :
    Accepts (.level l) limit (chain x l) := by
  intro s used rest e h hrange hlimit hstops hs
  cases h with
  | @level _ ts us left _ first more =>
      rw [List.forall_mem_append] at hrange
      rw [List.length_append] at hlimit
      rw [List.append_assoc] at hs
      have hleft := hx first hrange.1 (by omega) (stops_more more hstops) hs
      refine hleft.bind fun left' s₁ hs₁ hfinish hbare => .get ?_
      rw [← hbare] at more
      refine accepts_chainFrom hx _ more hrange.2 (by omega) ?_ ?_ hs₁
      · rw [hs₁, List.length_append]
        omega
      · rw [hfinish]
        exact hstops

theorem accepts_levels (hx : Accepts .unary limit x) :
    Accepts (.level .disjunction) limit (levels x) := by
  have hmul : Accepts (.level .multiplicative) limit _ := accepts_chain hx
  have hadd : Accepts (.level .additive) limit _ := accepts_chain hmul
  have hrel : Accepts (.level .relational) limit _ := accepts_chain hadd
  have heq : Accepts (.level .equality) limit _ := accepts_chain hrel
  have hand : Accepts (.level .conjunction) limit _ := accepts_chain heq
  exact accepts_chain hand

-- What stands in parentheses is shorter, so a smaller limit will do for it.
theorem accepts_primary (hx : Accepts (.level .disjunction) limit x) :
    Accepts .primary (limit + 1) (primary x) := by
  intro s used rest e h hrange hlimit _ hs
  refine .current ?_
  cases h with
  | @int t kind =>
      have hcurrent : s.current = t := by rw [State.current, hs]; rfl
      have hmax : ¬maxInteger < Text.toNat t.literal := by
        have hle := hrange t (by simp) kind
        rw [maxInteger]
        omega
      simp only [hcurrent, kind, if_neg hmax]
      exact .advance hs (.build rfl fun info => rfl)
  | @real t kind | @text t kind | @verdadeiro t kind | @falso t kind =>
      have hcurrent : s.current = t := by rw [State.current, hs]; rfl
      simp only [hcurrent, kind]
      exact .advance hs (.build rfl fun info => rfl)
  | @paren t u ts inner opening derives closing =>
      have hcurrent : s.current = t := by rw [State.current, hs]; rfl
      simp only [List.forall_mem_cons, List.forall_mem_append] at hrange
      simp only [List.length_cons, List.length_append] at hlimit
      rw [List.cons_append, List.append_assoc, List.singleton_append] at hs
      simp only [hcurrent, opening]
      refine .advance hs ?_
      have hstops : Stops (.level .disjunction) u.kind := by
        intro l op _ hsign
        rw [closing] at hsign
        cases hsign
      have hinner : Gives { s with tokens := ts ++ u :: rest } x (u :: rest) _ :=
        hx derives hrange.2.1 (by omega) hstops rfl
      refine hinner.bind fun e' s₁ hs₁ _ hbare => .current ?_
      refine (Gives.expect hs₁ closing).bind fun _ s₂ hs₂ _ _ => ?_
      exact .build hs₂ fun info => by rw [Expr.bare, hbare]

theorem accepts_operand (depth : Nat) : Accepts .unary depth (operand depth) := by
  induction depth with
  | zero =>
      intro s used rest e h _ hlimit _ _
      exact absurd (List.length_eq_zero_iff.mp (Nat.le_zero.mp hlimit)) h.unary_ne_nil
  | succ depth ih =>
      intro s used rest e h hrange hlimit hstops hs
      cases h with
      | @neg t ts e kind inner | @not t ts e kind inner =>
          have hcurrent : s.current = t := by rw [State.current, hs]; rfl
          rw [List.forall_mem_cons] at hrange
          rw [List.length_cons] at hlimit
          refine .current ?_
          simp only [hcurrent, kind]
          refine .advance hs ?_
          have hinner : Gives { s with tokens := ts ++ rest } (operand depth) rest _ :=
            ih inner hrange.2 (by omega) trivial rfl
          refine hinner.bind fun e' s₁ hs₁ _ hbare => ?_
          exact .build hs₁ fun info => by rw [Expr.bare, hbare]
      | primary inner =>
          have hprimary := accepts_primary (accepts_levels ih) inner hrange hlimit trivial hs
          obtain ⟨t, us, rfl, hminus, hnao⟩ := inner.exists_head
          have hcurrent : s.current = t := by rw [State.current, hs]; rfl
          refine .current ?_
          split
          · rename_i hkind
            exact absurd (hcurrent ▸ hkind) hminus
          · rename_i hkind
            exact absurd (hcurrent ▸ hkind) hnao
          · exact hprimary

theorem accepts_expression (h : Derives (.level .disjunction) used e)
    (hrange : ∀ t ∈ used, t.InRange)
    (hstops : Stops (.level .disjunction) (rest.headD s.finish).kind)
    (hs : s.tokens = used ++ rest) : Gives s expression rest fun e' => e'.bare = e := by
  refine .get (accepts_levels (accepts_operand _) h hrange ?_ hstops hs)
  rw [hs, List.length_append]
  omega

end Parser

end Tuga
