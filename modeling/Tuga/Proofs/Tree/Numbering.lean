import Mathlib.Data.List.Intervals
import Tuga.Proofs.Typing.Table
import Tuga.Tree.Parser

namespace Tuga

namespace Expr

def ids (e : Expr) : List Nat := e.postorder.map id

theorem postorder_eq (e : Expr) : e.postorder = e.children.flatMap postorder ++ [e] := by
  cases e <;> simp [postorder, children]

theorem self_mem_postorder (e : Expr) : e ∈ e.postorder := by
  rw [postorder_eq]
  simp

theorem sublist_postorder {e n : Expr} (hn : n ∈ e.postorder) :
    n.postorder.Sublist e.postorder := by
  induction e with
  | int | real | bool | text =>
      obtain rfl := List.mem_singleton.mp hn
      exact List.Sublist.refl _
  | paren _ inner ih | neg _ inner ih | not _ inner ih =>
      rcases List.mem_append.mp hn with hn | hn
      · exact (ih hn).trans (List.sublist_append_left _ _)
      · obtain rfl := List.mem_singleton.mp hn
        exact List.Sublist.refl _
  | binary _ _ _ left right ihl ihr =>
      rcases List.mem_append.mp hn with hn | hn
      · rcases List.mem_append.mp hn with hn | hn
        · refine (ihl hn).trans ?_
          exact (List.sublist_append_left _ _).trans (List.sublist_append_left _ _)
        · refine (ihr hn).trans ?_
          exact (List.sublist_append_right _ _).trans (List.sublist_append_left _ _)
      · obtain rfl := List.mem_singleton.mp hn
        exact List.Sublist.refl _

-- Where numbers increase in post-order, a part has a smaller number than the whole.
theorem id_lt_of_mem_children {e part : Expr} (h : e.ids.Pairwise (· < ·))
    (hpart : part ∈ e.children) : part.id < e.id := by
  rw [ids, postorder_eq, List.map_append, List.pairwise_append] at h
  refine h.2.2 part.id ?_ e.id (by simp)
  exact List.mem_map_of_mem (List.mem_flatMap.mpr ⟨part, hpart, self_mem_postorder part⟩)

end Expr

def Statement.ids (s : Statement) : List Nat := s.value.ids ++ [s.info.id]

def Program.ids (p : Program) : List Nat := p.statements.flatMap Statement.ids ++ [p.info.id]

namespace Parser

-- What a reader does to the count of nodes: it never falls, and a success leaves it as `post` says.
def Counts {α : Type} (s : State) (x : Parse α) (post : Nat → α → Prop) : Prop :=
  match x s with
  | .ok a s' => s.builder.count ≤ s'.builder.count ∧ post s'.builder.count a
  | .error _ s' => s.builder.count ≤ s'.builder.count

-- A reader of expressions whose nodes are all those it has built.
def CountsExpr (x : Parse Expr) : Prop :=
  ∀ s : State, Counts s x fun count e => e.ids = List.Ico s.builder.count count

namespace Counts

variable {α β : Type} {s : State} {x : Parse α} {post : Nat → α → Prop} {post' : Nat → β → Prop}

theorem bind {f : α → Parse β} (hx : Counts s x post)
    (hf : ∀ a s', s.builder.count ≤ s'.builder.count → post s'.builder.count a →
      Counts s' (f a) post') : Counts s (x >>= f) post' := by
  change match EStateM.bind x f s with | .ok a s' => _ | .error _ s' => _
  rw [EStateM.bind]
  rw [Counts] at hx
  cases hxs : x s with
  | error e s' =>
      rw [hxs] at hx
      exact hx
  | ok a s' =>
      rw [hxs] at hx
      have hsecond := hf a s' hx.1 hx.2
      rw [Counts] at hsecond
      simp only
      cases hfs : f a s' with
      | error e s'' =>
          rw [hfs] at hsecond
          exact Nat.le_trans hx.1 hsecond
      | ok b s'' =>
          rw [hfs] at hsecond
          exact ⟨Nat.le_trans hx.1 hsecond.1, hsecond.2⟩

theorem pure {a : α} (h : post s.builder.count a) : Counts s (Pure.pure a) post :=
  ⟨Nat.le_refl _, h⟩

theorem fail {cause : SyntaxCause} : Counts s (Parser.fail cause) post :=
  Nat.le_refl s.builder.count

theorem current {f : Token → Parse α} (h : Counts s (f s.current) post) :
    Counts s (Parser.current >>= f) post := h

theorem get {f : State → Parse α} (h : Counts s (f s) post) :
    Counts s (MonadState.get >>= f) post := h

theorem advance {f : Unit → Parse α} (h : Counts { s with tokens := s.tokens.tail } (f ()) post) :
    Counts s (Parser.advance >>= f) post := h

theorem expect {kind : Token.Kind} :
    Counts s (Parser.expect kind) fun count _ => count = s.builder.count := by
  refine .current ?_
  split
  · exact ⟨Nat.le_refl _, rfl⟩
  · exact .fail

theorem build {span : Span} {make : NodeInfo → α}
    (h : post (s.builder.count + 1) (make ⟨s.builder.count, span⟩)) :
    Counts s (Parser.build span make) post :=
  ⟨Nat.le_succ _, h⟩

theorem literal {span : Span} {make : NodeInfo → Expr} (h : ∀ info, (make info).ids = [info.id]) :
    Counts s (Parser.advance >>= fun _ => Parser.build span make)
      fun count e => e.ids = List.Ico s.builder.count count := by
  refine .advance (.build ?_)
  rw [h, List.Ico.succ_singleton]

end Counts

variable {x : Parse Expr}

theorem ico_append_next {m n : Nat} (h : m ≤ n) : List.Ico m n ++ [n] = List.Ico m (n + 1) :=
  (List.Ico.succ_top h).symm

theorem counts_primary (hx : CountsExpr x) : CountsExpr (primary x) := by
  intro s
  refine .current ?_
  split
  · dsimp only
    split
    · exact .fail
    · exact .literal fun _ => rfl
  · exact .literal fun _ => rfl
  · exact .literal fun _ => rfl
  · exact .literal fun _ => rfl
  · exact .literal fun _ => rfl
  · refine .advance ((hx _).bind fun e s₁ hle he => .current ?_)
    refine Counts.expect.bind fun _ s₂ _ hcount => .build ?_
    rw [hcount, ← ico_append_next hle, ← he]
    simp [Expr.ids, Expr.postorder, Expr.id, Expr.info]
  · exact .fail

-- The stretch of numbers of a chain starts with that of its first operand.
theorem counts_chainFrom {level : Level} (hx : CountsExpr x) (steps : Nat) {first : Nat}
    {left : Expr} {s : State} (hfirst : first ≤ s.builder.count)
    (hleft : left.ids = List.Ico first s.builder.count) :
    Counts s (chainFrom x level steps left) fun count e => e.ids = List.Ico first count := by
  induction steps generalizing left s with
  | zero => exact .pure hleft
  | succ steps ih =>
      refine .current ?_
      split
      · exact .pure hleft
      · rename_i op _
        refine .advance ((hx _).bind fun right s₁ hle hright => ?_)
        have hle₁ : first ≤ s₁.builder.count := Nat.le_trans hfirst hle
        have hnode : Counts s₁
            (build ⟨left.span.start, right.span.stop⟩ (Expr.binary · level op left right))
            fun count e => first ≤ count ∧ e.ids = List.Ico first count := by
          refine .build ⟨by omega, ?_⟩
          have happend := List.Ico.append_consecutive hfirst hle
          rw [← ico_append_next hle₁, ← happend, ← hleft, ← hright]
          simp [Expr.ids, Expr.postorder, Expr.id, Expr.info]
        exact hnode.bind fun e s₂ _ he => ih he.1 he.2

theorem counts_chain {level : Level} (hx : CountsExpr x) : CountsExpr (chain x level) := by
  intro s
  refine (hx s).bind fun left s₁ hle hleft => .get ?_
  exact counts_chainFrom hx _ hle hleft

theorem counts_levels (hx : CountsExpr x) : CountsExpr (levels x) := by
  have hfold : ∀ (ls : List Level) (y : Parse Expr), CountsExpr y →
      CountsExpr (ls.foldl chain y) := by
    intro ls
    induction ls with
    | nil => exact fun y hy => hy
    | cons level ls ih => exact fun y hy => ih _ (counts_chain hy)
  exact hfold Level.all x hx

theorem counts_operand (depth : Nat) : CountsExpr (operand depth) := by
  induction depth with
  | zero => exact fun s => .current .fail
  | succ depth ih =>
      intro s
      refine .current ?_
      split
      · refine .advance ((ih _).bind fun e s₁ hle he => .build ?_)
        rw [← ico_append_next hle, ← he]
        simp [Expr.ids, Expr.postorder, Expr.id, Expr.info]
      · refine .advance ((ih _).bind fun e s₁ hle he => .build ?_)
        rw [← ico_append_next hle, ← he]
        simp [Expr.ids, Expr.postorder, Expr.id, Expr.info]
      · exact counts_primary (counts_levels ih) s

theorem counts_expression : CountsExpr expression :=
  fun s => .get (counts_levels (counts_operand _) s)

theorem counts_statement (s : State) :
    Counts s statement fun count stmt => stmt.ids = List.Ico s.builder.count count := by
  refine .current (Counts.expect.bind fun _ s₁ _ hescreve => ?_)
  refine (counts_expression s₁).bind fun value s₂ hle hvalue => .current ?_
  refine Counts.expect.bind fun _ s₃ _ hsemicolon => .build ?_
  rw [hsemicolon, ← hescreve, ← ico_append_next hle, ← hvalue]
  rfl

-- The statements read have numbers in order. Every number is used unless there is an error.
theorem ids_statements {s s' : State} {rounds : Nat} {stmts : List Statement}
    {errors : List SyntaxError} (h : statements rounds s = (stmts, errors, s')) :
    s.builder.count ≤ s'.builder.count ∧
      (stmts.flatMap Statement.ids).Sublist (List.Ico s.builder.count s'.builder.count) ∧
      (errors = [] →
        stmts.flatMap Statement.ids = List.Ico s.builder.count s'.builder.count) := by
  induction rounds generalizing s stmts errors with
  | zero =>
      cases h
      simp
  | succ rounds ih =>
      rw [statements] at h
      split at h
      · cases h
        simp
      · have hread := counts_statement s
        rw [Counts] at hread
        split at h
        · rename_i stmt s₁ hs₁
          rw [hs₁] at hread
          cases h
          obtain ⟨hle, hsublist, hdense⟩ := ih (s := s₁) rfl
          rw [List.flatMap_cons, ← List.Ico.append_consecutive hread.1 hle, hread.2]
          refine ⟨Nat.le_trans hread.1 hle, (List.Sublist.refl _).append hsublist, ?_⟩
          exact fun hnil => congrArg _ (hdense hnil)
        · rename_i e s₁ hs₁
          rw [hs₁] at hread
          cases h
          obtain ⟨hle, hsublist, -⟩ :=
            ih (s := { s₁ with tokens := resume s₁.tokens }) rfl
          have hle₁ : s₁.builder.count ≤ _ := hle
          rw [← List.Ico.append_consecutive hread hle₁]
          refine ⟨Nat.le_trans hread hle, hsublist.trans (List.sublist_append_right _ _), ?_⟩
          exact fun hnil => nomatch hnil

-- The numbers of a tree read from a source are in order and below its count of nodes, and without
-- a syntax error they are all the numbers below it.
theorem ids_parse (source : Text) :
    (Program.parse source).1.ids.Sublist (List.range (Program.parse source).1.nodeCount) ∧
      ((Program.parse source).2.syntactic = [] →
        (Program.parse source).1.ids = List.range (Program.parse source).1.nodeCount) := by
  have hread : statements (ofSource source).state.tokens.length (ofSource source).state =
      (_, _, _) := rfl
  obtain ⟨hle, hsublist, hdense⟩ := ids_statements hread
  have hrange : List.range (Program.parse source).1.nodeCount =
      List.Ico 0 (statements (ofSource source).state.tokens.length
        (ofSource source).state).2.2.builder.count ++
        [(Program.parse source).1.info.id] := by
    rw [← List.Ico.zero_bot]
    exact List.Ico.succ_top hle
  rw [hrange, Program.ids]
  refine ⟨hsublist.append (List.Sublist.refl _), fun hnil => ?_⟩
  have herrors := (List.append_eq_nil_iff.mp hnil).2
  exact congrArg (· ++ _) (hdense (List.append_eq_nil_iff.mp herrors).2)

end Parser

namespace Program

variable {p : Program}

theorem ids_lt_of_pairwise (h : p.ids.Pairwise (· < ·)) :
    (∀ e ∈ p.expressions, ∀ part ∈ e.children, part.id < e.id) ∧
      ∀ s ∈ p.statements, s.value.id < s.info.id ∧ s.info.id < p.info.id := by
  rw [ids, List.pairwise_append] at h
  have hstatement : ∀ s ∈ p.statements, s.ids.Pairwise (· < ·) := fun s hs =>
    h.1.sublist (List.sublist_flatten_of_mem (List.mem_map_of_mem hs))
  refine ⟨fun e he part hpart => ?_, fun s hs => ⟨?_, ?_⟩⟩
  · obtain ⟨s, hs, he⟩ := List.mem_flatMap.mp he
    have hsublist := (Expr.sublist_postorder (Expr.mem_postorder_iff.mpr he)).map Expr.id
    refine Expr.id_lt_of_mem_children ((hstatement s hs).sublist ?_) hpart
    exact hsublist.trans (List.sublist_append_left _ _)
  · refine (List.pairwise_append.mp (hstatement s hs)).2.2 s.value.id ?_ s.info.id (by simp)
    exact List.mem_map_of_mem (Expr.self_mem_postorder s.value)
  · refine h.2.2 s.info.id ?_ p.info.id (by simp)
    exact List.mem_flatMap.mpr ⟨s, hs, by simp [Statement.ids]⟩

end Program

end Tuga
