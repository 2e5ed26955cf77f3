import Tuga.Proofs.Codegen.Expression
import Tuga.Proofs.Tree.Reading

namespace Tuga

namespace Codegen

-- The error about the first literal that does not fit into an instruction.
def tooWide? (literals : List (Span × Int)) : Option CodegenError :=
  (literals.find? fun literal => !fitsOperand literal.2).map fun literal =>
    ⟨literal.1, .literalTooWide literal.2⟩

@[simp] theorem tooWide?_nil : tooWide? [] = none := rfl

@[simp] theorem tooWide?_append (literals more : List (Span × Int)) :
    tooWide? (literals ++ more) = (tooWide? literals).or (tooWide? more) := by
  rw [tooWide?, List.find?_append, Option.map_or]
  rfl

-- Generation from a stretch of the tree with the given literals: it fails at the first one that
-- does not fit, if there is one, and succeeds otherwise.
structure Limited {α : Type} (literals : List (Span × Int)) (x : Gen α) : Prop where
  succeeds : tooWide? literals = none → ∀ pool, ∃ a pool', x pool = .ok (a, pool')
  fails : ∀ error, tooWide? literals = some error → ∀ pool, x pool = .error error

namespace Limited

variable {α β : Type} {literals more : List (Span × Int)} {x : Gen α}

theorem pure (a : α) : Limited [] (Pure.pure a : Gen α) :=
  ⟨fun _ pool => ⟨a, pool, rfl⟩, fun _ h => nomatch h⟩

theorem bind {f : α → Gen β} (hx : Limited literals x) (hf : ∀ a, Limited more (f a)) :
    Limited (literals ++ more) (x >>= f) where
  succeeds := by
    intro h pool
    rw [tooWide?_append, Option.or_eq_none_iff] at h
    obtain ⟨a, mid, ha⟩ := hx.succeeds h.1 pool
    obtain ⟨b, pool', hb⟩ := (hf a).succeeds h.2 mid
    exact ⟨b, pool', stateT_bind_eq_ok.mpr ⟨a, mid, ha, hb⟩⟩
  fails := by
    intro error h pool
    rw [tooWide?_append, Option.or_eq_some_iff] at h
    change (x pool >>= fun r => f r.1 r.2) = .error error
    rcases h with h | ⟨hnone, h⟩
    · rw [hx.fails error h pool]
      rfl
    · obtain ⟨a, mid, ha⟩ := hx.succeeds hnone pool
      rw [ha]
      exact (hf a).fails error h mid

theorem map {f : α → β} (hx : Limited literals x) :
    Limited literals (x >>= fun a => Pure.pure (f a)) := by
  have h := hx.bind fun a => Limited.pure (f a)
  rwa [List.append_nil] at h

theorem load (o : Operation) (c : Constant) : Limited [] (Codegen.load o c) :=
  ⟨fun _ _ => ⟨_, _, rfl⟩, fun _ h => nomatch h⟩

theorem int (info : NodeInfo) (value : Int) (types : TypeMap) :
    Limited [(info.span, value)] (expression types (.int info value)) := by
  cases h : fitsOperand value with
  | true =>
      have hnone : tooWide? [(info.span, value)] = none := by simp [tooWide?, h]
      refine ⟨fun _ pool => ?_, fun error herror => ?_⟩
      · rw [expression, if_pos h]
        exact ⟨_, _, rfl⟩
      · rw [hnone] at herror
        cases herror
  | false =>
      have hsome : tooWide? [(info.span, value)] = some ⟨info.span, .literalTooWide value⟩ := by
        simp [tooWide?, h]
      refine ⟨fun hnone => ?_, fun error herror pool => ?_⟩
      · rw [hsome] at hnone
        cases hnone
      · rw [hsome] at herror
        rw [expression, if_neg (by simp [h]), ← Option.some.inj herror]
        rfl

theorem operation {types : TypeMap} {left right : Expr} {l r : ValueType}
    {leftCode rightCode : Gen (List Instruction)} (hl : types.of left.id = .typed l)
    (hr : types.of right.id = .typed r) (hleft : Limited literals leftCode)
    (hright : Limited more rightCode) (convert : NodeType → List Instruction) (o : Operation) :
    Limited (literals ++ more)
      (Codegen.operation types convert left right leftCode rightCode o) := by
  simp only [Codegen.operation, operand, typeOf_eq hl, typeOf_eq hr, pure_bind]
  exact (hleft.map).bind fun ls => (hright.map).map

end Limited

-- An annotated expression has code unless a literal in it does not fit.
theorem limited_expression {types : TypeMap} {e : Expr} (he : e.Annotated types) :
    Limited e.integers (expression types e) := by
  induction e with
  | int info value => exact .int info value types
  | real info value => exact .load _ _
  | text info quoted => exact .load _ _
  | bool info value => exact .pure _
  | paren info inner ih =>
      rw [expression]
      exact ih (he.part (by simp [Expr.children]))
  | neg info operand ih =>
      obtain ⟨t, -, ht⟩ := he.exists_type
      rw [expression, typeOf_eq ht, pure_bind]
      exact (ih (he.part (by simp [Expr.children]))).map
  | not info operand ih =>
      rw [expression]
      exact (ih (he.part (by simp [Expr.children]))).map
  | binary info level op left right ihl ihr =>
      have hleft := he.part (show left ∈ _ by simp [Expr.children])
      have hright := he.part (show right ∈ _ by simp [Expr.children])
      obtain ⟨l, hl, hlid⟩ := hleft.exists_type
      obtain ⟨r, hr, hrid⟩ := hright.exists_type
      obtain ⟨t, ht, htid⟩ := he.exists_type
      change types.of info.id = .typed t at htid
      have hrule : level.type? op l r = some t := by simpa [Expr.type?, hl, hr] using ht
      obtain ⟨convert, o, heq, -⟩ := lowersNode_binary he.leveled hrule hlid hrid htid
      rw [heq, Expr.integers_binary]
      exact .operation hlid hrid (ihl hleft) (ihr hright) convert o

theorem limited_statements {types : TypeMap} {stmts : List Statement}
    (h : ∀ s ∈ stmts, s.value.Annotated types) :
    Limited (stmts.flatMap fun s => s.value.integers) (statements types stmts) := by
  induction stmts with
  | nil => exact .pure _
  | cons s stmts ih =>
      rw [List.forall_mem_cons] at h
      obtain ⟨t, -, ht⟩ := h.1.exists_type
      rw [List.flatMap_cons, statements, statement]
      simp only [typeOf_eq ht, pure_bind]
      exact ((limited_expression h.1).map).bind fun is => (ih h.2).map

end Codegen

-- A program without type errors has code unless an integer literal does not fit, and then the error
-- is about the first such literal.
theorem Program.Built.generate_eq {p : Program} (hp : p.Built) (hc : p.check.errors = []) :
    match Codegen.tooWide? (p.statements.flatMap fun s => s.value.integers) with
    | none => ∃ b, p.generate p.check.types = .ok b
    | some error => p.generate p.check.types = .error error := by
  have hlimited := Codegen.limited_statements (hp.annotated hc)
  split
  · rename_i hnone
    obtain ⟨code, pool, hcode⟩ := hlimited.succeeds hnone []
    rw [generate, StateT.run, hcode]
    exact ⟨_, rfl⟩
  · rename_i error hsome
    rw [generate, StateT.run, hlimited.fails error hsome []]
    rfl

end Tuga
