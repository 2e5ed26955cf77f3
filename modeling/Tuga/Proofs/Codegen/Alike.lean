import Mathlib.Data.List.Forall2
import Tuga.Codegen
import Tuga.Proofs.Evaluation
import Tuga.Proofs.Tree.Grammar

namespace Tuga

-- Two expressions that differ in the numbers and places of their nodes only, and two tables that
-- say the same about their nodes.
inductive Expr.Alike (types types' : TypeMap) : Expr → Expr → Prop where
  | int {info info' : NodeInfo} {value : Int} (same : types.of info.id = types'.of info'.id) :
      Alike types types' (.int info value) (.int info' value)
  | real {info info' : NodeInfo} {value : Real64} (same : types.of info.id = types'.of info'.id) :
      Alike types types' (.real info value) (.real info' value)
  | bool {info info' : NodeInfo} {value : Bool} (same : types.of info.id = types'.of info'.id) :
      Alike types types' (.bool info value) (.bool info' value)
  | text {info info' : NodeInfo} {quoted : Text} (same : types.of info.id = types'.of info'.id) :
      Alike types types' (.text info quoted) (.text info' quoted)
  | paren {info info' : NodeInfo} {inner inner' : Expr}
      (same : types.of info.id = types'.of info'.id) (hinner : Alike types types' inner inner') :
      Alike types types' (.paren info inner) (.paren info' inner')
  | neg {info info' : NodeInfo} {operand operand' : Expr}
      (same : types.of info.id = types'.of info'.id)
      (hoperand : Alike types types' operand operand') :
      Alike types types' (.neg info operand) (.neg info' operand')
  | not {info info' : NodeInfo} {operand operand' : Expr}
      (same : types.of info.id = types'.of info'.id)
      (hoperand : Alike types types' operand operand') :
      Alike types types' (.not info operand) (.not info' operand')
  | binary {info info' : NodeInfo} {level : Level} {op : Operator} {left left' right right' : Expr}
      (same : types.of info.id = types'.of info'.id) (hleft : Alike types types' left left')
      (hright : Alike types types' right right') :
      Alike types types' (.binary info level op left right) (.binary info' level op left' right')

namespace Expr.Alike

variable {types types' : TypeMap} {e e' : Expr}

theorem of_eq (h : e.Alike types types' e') : types.of e.id = types'.of e'.id := by
  cases h <;> assumption

theorem kindName_eq (h : e.Alike types types' e') : e.kindName = e'.kindName := by
  cases h with
  | @binary _ _ level => cases level <;> rfl
  | _ => rfl

theorem evaluate_eq (h : e.Alike types types' e') (read : Text → Text) :
    e.evaluate read = e'.evaluate read := by
  induction h with
  | int | real | bool | text => rfl
  | paren _ _ ih => exact ih
  | neg _ _ ih | not _ _ ih => simp only [evaluate, ih]
  | binary _ _ _ ihl ihr => simp only [evaluate, ihl, ihr]

end Expr.Alike

section Bare

variable {types types' : TypeMap} {e e' : Expr}

theorem Expr.type?_bare (e : Expr) : e.bare.type? = e.type? := by
  induction e with
  | int | real | bool | text => rfl
  | paren _ _ ih => exact ih
  | neg _ _ ih | not _ _ ih => simp only [bare, type?, ih]
  | binary _ _ _ _ _ ihl ihr => simp only [bare, type?, ihl, ihr]

-- The type of a node depends on the tree below it, and so does its annotation.
theorem Expr.Annotated.of_eq (h : e.Annotated types) (h' : e'.Annotated types')
    (hbare : e.bare = e'.bare) : types.of e.id = types'.of e'.id := by
  obtain ⟨t, ht, hof⟩ := h.exists_type
  obtain ⟨t', ht', hof'⟩ := h'.exists_type
  rw [← type?_bare, hbare, type?_bare, ht'] at ht
  rw [hof, hof', Option.some.inj ht]

theorem Expr.Annotated.alike (h : e.Annotated types) (h' : e'.Annotated types')
    (hbare : e.bare = e'.bare) : e.Alike types types' e' := by
  induction e generalizing e' with
  | int | real | bool | text =>
      have hsame := h.of_eq h' hbare
      cases e' <;> cases hbare
      constructor
      exact hsame
  | paren info inner ih | neg info inner ih | not info inner ih =>
      have hsame := h.of_eq h' hbare
      cases e' <;> simp only [bare, reduceCtorEq] at hbare
      injection hbare with _ hinner
      constructor
      · exact hsame
      · exact ih (h.part (by simp [children])) (h'.part (by simp [children])) hinner
  | binary info level op left right ihl ihr =>
      have hsame := h.of_eq h' hbare
      cases e' <;> simp only [bare, reduceCtorEq] at hbare
      injection hbare with _ hlevel hop hleft hright
      subst hlevel hop
      exact .binary hsame
        (ihl (h.part (by simp [children])) (h'.part (by simp [children])) hleft)
        (ihr (h.part (by simp [children])) (h'.part (by simp [children])) hright)

end Bare

namespace Codegen

-- Two generations do the same from any pool on, but for the place of an error.
def Agree {α : Type} (x y : Gen α) : Prop :=
  ∀ pool, (x pool).mapError CodegenError.cause = (y pool).mapError CodegenError.cause

namespace Agree

variable {α β : Type} {x y : Gen α}

theorem refl (x : Gen α) : Agree x x := fun _ => rfl

theorem throw {span span' : Span} {cause : CodegenCause} :
    Agree (throw ⟨span, cause⟩ : Gen α) (throw ⟨span', cause⟩) := fun _ => rfl

theorem bind {f g : α → Gen β} (hx : Agree x y) (hf : ∀ a, Agree (f a) (g a)) :
    Agree (x >>= f) (y >>= g) := by
  intro pool
  change (x pool >>= fun r => f r.1 r.2).mapError _ = (y pool >>= fun r => g r.1 r.2).mapError _
  have h := hx pool
  cases hxp : x pool with
  | error e =>
      rw [hxp] at h
      cases hyp : y pool with
      | error e' =>
          rw [hyp] at h
          have hcause : e.cause = e'.cause := Except.error.inj h
          exact congrArg Except.error hcause
      | ok r =>
          rw [hyp] at h
          cases h
  | ok r =>
      rw [hxp] at h
      cases hyp : y pool with
      | error e' =>
          rw [hyp] at h
          cases h
      | ok r' =>
          rw [hyp] at h
          cases h
          exact hf r.1 r.2

end Agree

variable {types types' : TypeMap} {e e' : Expr}

theorem agree_typeOf (h : e.Alike types types' e') : Agree (typeOf types e) (typeOf types' e') := by
  rw [typeOf, typeOf, h.of_eq, h.kindName_eq]
  split
  · exact .throw
  · exact .throw
  · exact .refl _

theorem agree_operation {left left' right right' : Expr} {leftCode leftCode' rightCode rightCode' :
    Gen (List Instruction)} (hleft : left.Alike types types' left')
    (hright : right.Alike types types' right') (hl : Agree leftCode leftCode')
    (hr : Agree rightCode rightCode') (convert : NodeType → List Instruction) (op : Operation) :
    Agree (operation types convert left right leftCode rightCode op)
      (operation types' convert left' right' leftCode' rightCode' op) := by
  have hoperand {e e' : Expr} {code code' : Gen (List Instruction)}
      (h : e.Alike types types' e') (hcode : Agree code code') :
      Agree (operand types convert e code) (operand types' convert e' code') :=
    (agree_typeOf h).bind fun _ => hcode.bind fun _ => .refl _
  exact (hoperand hleft hl).bind fun _ => (hoperand hright hr).bind fun _ => .refl _

-- Code is made from the tree and the annotations, never from numbers and places.
theorem agree_expression (h : e.Alike types types' e') :
    Agree (expression types e) (expression types' e') := by
  induction h with
  | int =>
      rw [expression, expression]
      split
      · exact .refl _
      · exact .throw
  | real | bool | text => exact .refl _
  | paren _ _ ih => exact ih
  | neg same hoperand ih =>
      have htype := agree_typeOf (.neg same hoperand)
      exact htype.bind fun _ => ih.bind fun _ => .refl _
  | not _ _ ih => exact ih.bind fun _ => .refl _
  | @binary info info' level op left left' right right' same hleft hright ihl ihr =>
      have htype : Agree (typeOf types (.binary info level op left right))
          (typeOf types' (.binary info' level op left' right')) :=
        agree_typeOf (.binary same hleft hright)
      have hbinary := agree_operation hleft hright ihl ihr
      cases level with
      | additive =>
          refine htype.bind fun type => ?_
          split
          · exact hbinary _ _
          · dsimp only
            split
            · exact hbinary _ _
            · exact .throw
      | multiplicative =>
          refine htype.bind fun type => ?_
          split
          · exact hbinary _ _
          · dsimp only
            split
            · exact hbinary _ _
            · exact .throw
      | relational | equality =>
          refine (agree_typeOf hleft).bind fun l => (agree_typeOf hright).bind fun r => ?_
          split
          · exact hbinary _ _
          · exact .throw
      | conjunction | disjunction => exact hbinary _ _

theorem agree_statements {ss ss' : List Statement}
    (h : List.Forall₂ (fun s s' => s.value.Alike types types' s'.value) ss ss') :
    Agree (statements types ss) (statements types' ss') := by
  induction h with
  | nil => exact .refl _
  | @cons s s' ss ss' hs _ ih =>
      have hstatement : Agree (statement types s) (statement types' s') :=
        (agree_expression hs).bind fun _ => (agree_typeOf hs).bind fun _ => .refl _
      exact hstatement.bind fun _ => ih.bind fun _ => .refl _

end Codegen

-- Programs with alike statements have the same code, or none for the same cause.
theorem Program.generate_alike {p p' : Program} {types types' : TypeMap}
    (h : List.Forall₂ (fun s s' => s.value.Alike types types' s'.value) p.statements
      p'.statements) :
    (p.generate types).mapError CodegenError.cause =
      (p'.generate types').mapError CodegenError.cause := by
  have hgenerate (p : Program) (types : TypeMap) :
      (p.generate types).mapError CodegenError.cause =
        (fun r => ⟨r.2, r.1 ++ [.of .halt]⟩) <$>
          (Codegen.statements types p.statements []).mapError CodegenError.cause := by
    rw [generate, StateT.run]
    cases Codegen.statements types p.statements [] <;> rfl
  rw [hgenerate, hgenerate, Codegen.agree_statements h []]

end Tuga
