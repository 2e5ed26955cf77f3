import Tuga.Proofs.Tree.Made
import Tuga.Tree.Parser

namespace Tuga.Parser

open TreeBuilder

-- What a reader does to the builder. The nodes in `known` may be used as parts.
def Reads {α : Type} (known : List Expr) (x : Parse α)
    (post : List Expr → List Statement → α → Prop) : Prop :=
  ∀ (s : State) (es : List Expr) (ss : List Statement), known ⊆ es → s.builder.Made es ss →
    match x s with
    | .ok a s' => ∃ es' ss', es ⊆ es' ∧ ss ⊆ ss' ∧ s'.builder.Made es' ss' ∧ post es' ss' a
    | .error _ s' => ∃ es' ss', ss ⊆ ss' ∧ s'.builder.Made es' ss'

-- Readers of expressions give nodes that have been made.
def ReadsExpr (known : List Expr) (x : Parse Expr) : Prop :=
  Reads known x fun es _ e => e ∈ es

namespace Reads

variable {α β : Type} {known : List Expr} {x : Parse α} {f : α → Parse β}
  {post : List Expr → List Statement → α → Prop} {post' : List Expr → List Statement → β → Prop}

theorem bind (hx : Reads known x post)
    (hf : ∀ a es ss, known ⊆ es → post es ss a → Reads es (f a) post') :
    Reads known (x >>= f) post' := by
  intro s es ss hknown hmade
  have hfirst := hx s es ss hknown hmade
  change match EStateM.bind x f s with | .ok a s' => _ | .error _ s' => _
  rw [EStateM.bind]
  cases hxs : x s with
  | error e s' =>
      rw [hxs] at hfirst
      exact hfirst
  | ok a s' =>
      rw [hxs] at hfirst
      obtain ⟨es', ss', hes, hss, hmade', hpost⟩ := hfirst
      have hsecond := hf a es' ss' (List.Subset.trans hknown hes) hpost s' es' ss'
        (List.Subset.refl es') hmade'
      simp only
      cases hfs : f a s' with
      | error e s'' =>
          rw [hfs] at hsecond
          obtain ⟨es'', ss'', hss', hmade''⟩ := hsecond
          exact ⟨es'', ss'', List.Subset.trans hss hss', hmade''⟩
      | ok b s'' =>
          rw [hfs] at hsecond
          obtain ⟨es'', ss'', hes', hss', hmade'', hpost'⟩ := hsecond
          exact ⟨es'', ss'', List.Subset.trans hes hes', List.Subset.trans hss hss', hmade'',
            hpost'⟩

theorem pure {a : α} (h : ∀ es ss, known ⊆ es → post es ss a) :
    Reads known (Pure.pure a) post := by
  intro s es ss hknown hmade
  exact ⟨es, ss, List.Subset.refl es, List.Subset.refl ss, hmade, h es ss hknown⟩

theorem of_builder (h : ∀ s, match x s with
      | .ok _ s' => s'.builder = s.builder
      | .error _ s' => s'.builder = s.builder) :
    Reads known x fun _ _ _ => True := by
  intro s es ss _ hmade
  have hs := h s
  cases hxs : x s with
  | error e s' =>
      rw [hxs] at hs
      exact ⟨es, ss, List.Subset.refl ss, hs ▸ hmade⟩
  | ok a s' =>
      rw [hxs] at hs
      exact ⟨es, ss, List.Subset.refl es, List.Subset.refl ss, hs ▸ hmade, trivial⟩

theorem current : Reads known Parser.current fun _ _ _ => True :=
  of_builder fun _ => rfl

theorem advance : Reads known Parser.advance fun _ _ _ => True :=
  of_builder fun _ => rfl

theorem fail {cause : SyntaxCause} : Reads known (Parser.fail cause) post := by
  intro s es ss _ hmade
  exact ⟨es, ss, List.Subset.refl ss, hmade⟩

theorem expect {kind : Token.Kind} : Reads known (Parser.expect kind) fun _ _ _ => True := by
  refine current.bind fun token es ss _ _ => ?_
  split
  · exact advance
  · exact fail

theorem build {span : Span} {make : NodeInfo → Expr}
    (h : ∀ (b : TreeBuilder) es ss, known ⊆ es → b.Made es ss →
      (b.node span make).2.Made ((b.node span make).1 :: es) ss) :
    ReadsExpr known (Parser.build span make) := by
  intro s es ss hknown hmade
  exact ⟨_, ss, List.subset_cons_self _ _, List.Subset.refl ss, h s.builder es ss hknown hmade,
    List.mem_cons_self⟩

end Reads

variable {known : List Expr} {x : Parse Expr}

theorem reads_primary (hx : ∀ known, ReadsExpr known x) : ReadsExpr known (primary x) := by
  refine Reads.current.bind fun token _ _ _ _ => ?_
  split
  · dsimp only
    split
    · exact .fail
    · refine Reads.advance.bind fun _ _ _ _ _ => ?_
      exact .build fun b es ss _ hmade => hmade.int token.span _
  · refine Reads.advance.bind fun _ _ _ _ _ => ?_
    exact .build fun b es ss _ hmade => hmade.real token.span _
  · refine Reads.advance.bind fun _ _ _ _ _ => ?_
    exact .build fun b es ss _ hmade => hmade.text token.span _
  · refine Reads.advance.bind fun _ _ _ _ _ => ?_
    exact .build fun b es ss _ hmade => hmade.bool token.span _
  · refine Reads.advance.bind fun _ _ _ _ _ => ?_
    exact .build fun b es ss _ hmade => hmade.bool token.span _
  · refine Reads.advance.bind fun _ es _ _ _ => ?_
    refine (hx es).bind fun e _ _ _ he => ?_
    refine Reads.current.bind fun closing _ _ hclosing _ => ?_
    refine Reads.expect.bind fun _ _ _ hexpect _ => ?_
    exact .build fun b es ss hes hmade => hmade.paren _ (hes (hexpect (hclosing he)))
  · exact .fail

theorem level?_of_operator? {level : Level} {kind : Token.Kind} {op : Operator}
    (h : level.operator? kind = some op) : op.level? = some level := by
  rw [Level.operator?.eq_def] at h
  split at h <;> cases h <;> rfl

theorem reads_chainFrom {level : Level} (hx : ∀ known, ReadsExpr known x) (steps : Nat)
    {left : Expr} (hleft : left ∈ known) : ReadsExpr known (chainFrom x level steps left) := by
  induction steps generalizing known left with
  | zero => exact .pure fun es ss hes => hes hleft
  | succ steps ih =>
      refine Reads.current.bind fun token es ss hcurrent _ => ?_
      split
      · exact .pure fun es ss hes => hes (hcurrent hleft)
      · rename_i op hop
        refine Reads.advance.bind fun _ es _ hadvance _ => ?_
        refine (hx es).bind fun right es _ hes hright => ?_
        have hleft : left ∈ es := hes (hadvance (hcurrent hleft))
        refine Reads.bind (.build fun b es ss hes hmade => ?_) fun e _ _ _ he => ih he
        have hbinary : b.binary op left right = .ok (b.node ⟨left.span.start, right.span.stop⟩
            (Expr.binary · level op left right)) := by
          rw [TreeBuilder.binary, level?_of_operator? hop]
          rfl
        exact hmade.binary (hes hleft) (hes hright) hbinary

theorem reads_chain {level : Level} (hx : ∀ known, ReadsExpr known x) :
    ReadsExpr known (chain x level) := by
  refine (hx known).bind fun left _ _ _ hleft => ?_
  refine Reads.bind (.of_builder fun _ => rfl) fun s es _ hes _ => ?_
  exact reads_chainFrom hx _ (hes hleft)

theorem reads_levels (hx : ∀ known, ReadsExpr known x) : ReadsExpr known (levels x) := by
  have hfold : ∀ (ls : List Level) (y : Parse Expr), (∀ known, ReadsExpr known y) →
      ReadsExpr known (ls.foldl chain y) := by
    intro ls
    induction ls with
    | nil => exact fun y hy => hy known
    | cons level ls ih => exact fun y hy => ih _ fun known => reads_chain hy
  exact hfold Level.all x hx

theorem reads_operand (depth : Nat) : ReadsExpr known (operand depth) := by
  induction depth generalizing known with
  | zero => exact Reads.current.bind fun token _ _ _ _ => .fail
  | succ depth ih =>
      refine Reads.current.bind fun token _ _ _ _ => ?_
      split
      · refine Reads.advance.bind fun _ _ _ _ _ => ?_
        refine ih.bind fun e _ _ _ he => ?_
        exact .build fun b es ss hes hmade => hmade.neg _ (hes he)
      · refine Reads.advance.bind fun _ _ _ _ _ => ?_
        refine ih.bind fun e _ _ _ he => ?_
        exact .build fun b es ss hes hmade => hmade.not _ (hes he)
      · exact reads_primary fun known => reads_levels fun known => ih

theorem reads_expression : ReadsExpr known expression := by
  refine Reads.bind (.of_builder fun _ => rfl) fun s _ _ _ _ => ?_
  exact reads_levels fun known => reads_operand _

theorem reads_statement : Reads known statement fun _ ss stmt => stmt ∈ ss := by
  refine Reads.current.bind fun token _ _ _ _ => ?_
  refine Reads.expect.bind fun _ _ _ _ _ => ?_
  refine reads_expression.bind fun value _ _ _ hvalue => ?_
  refine Reads.current.bind fun closing _ _ hclosing _ => ?_
  refine Reads.expect.bind fun _ _ _ hexpect _ => ?_
  intro s es ss hes hmade
  exact ⟨es, _, List.Subset.refl _, List.subset_cons_self _ _,
    hmade.statement _ (hes (hexpect (hclosing hvalue))), List.mem_cons_self⟩

theorem made_statements {s : State} {es : List Expr} {ss : List Statement} (rounds : Nat)
    (hmade : s.builder.Made es ss) :
    ∃ es' ss', ss ⊆ ss' ∧ (statements rounds s).2.2.builder.Made es' ss' ∧
      (statements rounds s).1 ⊆ ss' := by
  induction rounds generalizing s es ss with
  | zero => exact ⟨es, ss, List.Subset.refl ss, hmade, List.nil_subset ss⟩
  | succ rounds ih =>
      rw [statements]
      split
      · exact ⟨es, ss, List.Subset.refl ss, hmade, List.nil_subset ss⟩
      · have hread := reads_statement s es ss (List.nil_subset es) hmade
        split
        · rename_i stmt s' hs
          rw [hs] at hread
          obtain ⟨es', ss', -, hss, hmade', hstmt⟩ := hread
          obtain ⟨es'', ss'', hss', hmade'', hrest⟩ := ih hmade'
          refine ⟨es'', ss'', List.Subset.trans hss hss', hmade'', ?_⟩
          exact List.cons_subset.mpr ⟨hss' hstmt, hrest⟩
        · rename_i e s' hs
          rw [hs] at hread
          obtain ⟨es', ss', hss, hmade'⟩ := hread
          obtain ⟨es'', ss'', hss', hmade'', hrest⟩ :=
            ih (s := { s' with tokens := resume s'.tokens }) hmade'
          exact ⟨es'', ss'', List.Subset.trans hss hss', hmade'', hrest⟩

-- Whatever the source, what is read from it has been made with a builder.
theorem built_parse (source : Text) : (Program.parse source).1.Built := by
  obtain ⟨es, ss, -, hmade, hstatements⟩ :=
    made_statements (s := (ofSource source).state) (ofSource source).state.tokens.length Made.start
  exact ⟨_, es, ss, _, _, hmade, hstatements, rfl⟩

end Tuga.Parser
