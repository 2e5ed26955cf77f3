import Mathlib.Data.List.Basic
import Tuga.Codegen
import Tuga.Proofs.Tree.Parsed

namespace Tuga

-- Whether an annotation is there and is not that of a type error.
def NodeType.isUsable : NodeType → Bool
  | missing | error => false
  | typed _ | invalid => true

-- The expressions whose types the code of a node asks for, those of its parts' code apart.
def Expr.consulted : Expr → List Expr
  | e@(neg _ _) => [e]
  | e@(binary _ .multiplicative _ left right) => [e, left, right]
  | e@(binary _ .additive _ left right) => [e, left, right]
  | binary _ _ _ left right => [left, right]
  | _ => []

theorem Expr.mem_consulted_binary {info : NodeInfo} {level : Level} {op : Operator}
    {left right a : Expr} :
    a ∈ (binary info level op left right).consulted ↔
      (a = binary info level op left right ∧ (level = .multiplicative ∨ level = .additive)) ∨
        a = left ∨ a = right := by
  cases level <;> simp [consulted]

theorem Expr.mem_nodes_of_mem_consulted {e a : Expr} (h : a ∈ e.consulted) : a ∈ e.nodes := by
  cases e with
  | int | real | bool | text | paren | not => cases h
  | neg => exact List.mem_cons.mpr (.inl (List.mem_singleton.mp h))
  | binary info level op left right =>
      rw [nodes, List.mem_cons, List.mem_append]
      rcases mem_consulted_binary.mp h with ⟨rfl, -⟩ | rfl | rfl
      · exact .inl rfl
      · exact .inr (.inl (self_mem_nodes a))
      · exact .inr (.inr (self_mem_nodes a))

def Program.consulted (p : Program) : List Expr :=
  p.statements.map (·.value) ++ p.expressions.flatMap Expr.consulted

-- The table without what it says about an expression.
def TypeMap.without (types : TypeMap) (e : Expr) : TypeMap :=
  types.setIfInBounds e.id .missing

theorem TypeMap.of_without (types : TypeMap) (e : Expr) (id : Nat) :
    (types.without e).of id = if id = e.id then .missing else types.of id := by
  simp only [without, of, Array.getD_eq_getD_getElem?, Array.getElem?_setIfInBounds]
  by_cases hid : id = e.id
  · by_cases hlt : e.id < types.size
    · simp [hid, hlt]
    · simp [hid, hlt]
  · simp [hid, Ne.symm hid]

namespace Codegen

-- Generation that gives no code, whatever the pool.
def Fails {α : Type} (x : Gen α) : Prop :=
  ∀ pool, ∃ error, x pool = .error error

namespace Fails

variable {α β : Type} {x : Gen α} {f : α → Gen β}

theorem throw (error : CodegenError) : Fails (throw error : Gen α) :=
  fun _ => ⟨error, rfl⟩

theorem before (h : Fails x) : Fails (x >>= f) := by
  intro pool
  obtain ⟨error, herror⟩ := h pool
  refine ⟨error, ?_⟩
  change (x pool >>= fun r => f r.1 r.2) = .error error
  rw [herror]
  rfl

theorem after (h : ∀ a, Fails (f a)) : Fails (x >>= f) := by
  intro pool
  change ∃ error, (x pool >>= fun r => f r.1 r.2) = .error error
  cases x pool with
  | error error => exact ⟨error, rfl⟩
  | ok r => exact h r.1 r.2

end Fails

variable {types other : TypeMap} {e left right : Expr}

theorem fails_typeOf (h : (types.of e.id).isUsable = false) : Fails (typeOf types e) := by
  rw [typeOf]
  split
  · exact .throw _
  · exact .throw _
  · rename_i hmissing herror
    cases ht : types.of e.id with
    | missing => exact absurd ht hmissing
    | error => exact absurd ht herror
    | typed | invalid => rw [ht] at h; cases h

section Operands

variable {convert : NodeType → List Instruction} {leftCode rightCode : Gen (List Instruction)}

theorem fails_operand {code : Gen (List Instruction)}
    (h : (types.of e.id).isUsable = false ∨ Fails code) : Fails (operand types convert e code) := by
  rcases h with htype | hcode
  · exact (fails_typeOf htype).before
  · exact .after fun _ => hcode.before

theorem fails_operation {o : Operation}
    (h : Fails (operand types convert left leftCode) ∨
      Fails (operand types convert right rightCode)) :
    Fails (operation types convert left right leftCode rightCode o) := by
  rcases h with hleft | hright
  · exact hleft.before
  · exact .after fun _ => hright.before

end Operands

theorem fails_binary {info : NodeInfo} {level : Level} {op : Operator}
    (h : ∀ convert o, Fails
      (operation types convert left right (expression types left) (expression types right) o)) :
    Fails (expression types (.binary info level op left right)) := by
  cases level with
  | additive | multiplicative =>
      refine .after fun type => ?_
      split
      · exact h _ _
      · dsimp only
        split
        · exact h _ _
        · exact .throw _
  | relational | equality =>
      refine .after fun l => .after fun r => ?_
      split
      · exact h _ _
      · exact .throw _
  | conjunction | disjunction => exact h _ _

-- Induction on the expression: the node that asks is the expression itself or lies in a part.
theorem fails_expression {n a : Expr} (hn : n ∈ e.nodes) (ha : a ∈ n.consulted)
    (hunusable : (types.of a.id).isUsable = false) : Fails (expression types e) := by
  induction e with
  | int | real | bool | text =>
      obtain rfl := List.mem_singleton.mp hn
      cases ha
  | paren info inner ih =>
      rcases List.mem_cons.mp hn with rfl | hn
      · cases ha
      · exact ih hn
  | neg info operand ih =>
      rcases List.mem_cons.mp hn with rfl | hn
      · obtain rfl := List.mem_singleton.mp ha
        exact (fails_typeOf hunusable).before
      · exact .after fun _ => (ih hn).before
  | not info operand ih =>
      rcases List.mem_cons.mp hn with rfl | hn
      · cases ha
      · exact (ih hn).before
  | binary info level op left right ihl ihr =>
      rw [Expr.nodes, List.mem_cons, List.mem_append] at hn
      rcases hn with rfl | hn | hn
      · rcases Expr.mem_consulted_binary.mp ha with ⟨rfl, rfl | rfl⟩ | rfl | rfl
        · exact (fails_typeOf hunusable).before
        · exact (fails_typeOf hunusable).before
        · exact fails_binary fun _ _ => fails_operation (.inl (fails_operand (.inl hunusable)))
        · exact fails_binary fun _ _ => fails_operation (.inr (fails_operand (.inl hunusable)))
      · exact fails_binary fun _ _ => fails_operation (.inl (fails_operand (.inr (ihl hn))))
      · exact fails_binary fun _ _ => fails_operation (.inr (fails_operand (.inr (ihr hn))))

theorem fails_statements {s : Statement} {stmts : List Statement} (hs : s ∈ stmts)
    (h : Fails (statement types s)) : Fails (statements types stmts) := by
  induction stmts with
  | nil => cases hs
  | cons first stmts ih =>
      rcases List.mem_cons.mp hs with rfl | hs
      · exact h.before
      · exact .after fun _ => (ih hs).before

theorem typeOf_congr (h : other.of e.id = types.of e.id) : typeOf other e = typeOf types e := by
  rw [typeOf, typeOf, h]

theorem bind_eq_bind {α β : Type} {x y : Gen α} {f g : α → Gen β} (hx : x = y)
    (hf : ∀ a, f a = g a) : x >>= f = y >>= g := by
  rw [hx, funext hf]

-- Induction on the expression: what a node asks for is the same, and so is the code of its parts.
theorem expression_congr
    (h : ∀ n ∈ e.nodes, ∀ a ∈ n.consulted, other.of a.id = types.of a.id) :
    expression other e = expression types e := by
  induction e with
  | int | real | bool | text => rfl
  | paren info inner ih =>
      rw [Expr.nodes, List.forall_mem_cons] at h
      exact ih h.2
  | neg info operand ih =>
      rw [Expr.nodes, List.forall_mem_cons] at h
      have hself := typeOf_congr (h.1 (.neg info operand) (by simp [Expr.consulted]))
      exact bind_eq_bind hself fun _ => bind_eq_bind (ih h.2) fun _ => rfl
  | not info operand ih =>
      rw [Expr.nodes, List.forall_mem_cons] at h
      exact bind_eq_bind (ih h.2) fun _ => rfl
  | binary info level op left right ihl ihr =>
      rw [Expr.nodes, List.forall_mem_cons, List.forall_mem_append] at h
      have hleft := typeOf_congr (h.1 left (by simp [Expr.mem_consulted_binary]))
      have hright := typeOf_congr (h.1 right (by simp [Expr.mem_consulted_binary]))
      have hoperation : ∀ convert o,
          operation other convert left right (expression other left) (expression other right) o =
            operation types convert left right (expression types left) (expression types right)
              o := by
        intro convert o
        simp only [operation, operand, hleft, hright, ihl h.2.1, ihr h.2.2]
      cases level with
      | additive | multiplicative =>
          have hself := typeOf_congr (h.1 _ (Expr.mem_consulted_binary.mpr (.inl ⟨rfl, by simp⟩)))
          refine bind_eq_bind hself fun type => ?_
          simp only [hoperation]
      | relational | equality =>
          refine bind_eq_bind hleft fun l => bind_eq_bind hright fun r => ?_
          simp only [hoperation]
      | conjunction | disjunction => exact hoperation _ _

theorem statements_congr {stmts : List Statement}
    (hvalue : ∀ s ∈ stmts, other.of s.value.id = types.of s.value.id)
    (hnodes : ∀ s ∈ stmts, ∀ n ∈ s.value.nodes, ∀ a ∈ n.consulted,
      other.of a.id = types.of a.id) :
    statements other stmts = statements types stmts := by
  induction stmts with
  | nil => rfl
  | cons s stmts ih =>
      rw [List.forall_mem_cons] at hvalue hnodes
      have hstatement : statement other s = statement types s :=
        bind_eq_bind (expression_congr hnodes.1) fun _ =>
          bind_eq_bind (typeOf_congr hvalue.1) fun _ => rfl
      exact bind_eq_bind hstatement fun _ => bind_eq_bind (ih hvalue.2 hnodes.2) fun _ => rfl

end Codegen

namespace Program

variable {p : Program} {types : TypeMap} {e : Expr}

theorem mem_consulted_iff :
    e ∈ p.consulted ↔ (∃ s ∈ p.statements, s.value = e) ∨
      ∃ s ∈ p.statements, ∃ n ∈ s.value.nodes, e ∈ n.consulted := by
  simp only [consulted, expressions, List.mem_append, List.mem_map, List.mem_flatMap]
  grind

theorem generate_eq_error (he : e ∈ p.consulted) (hunusable : (types.of e.id).isUsable = false) :
    ∃ error, p.generate types = .error error := by
  have hfails : Codegen.Fails (Codegen.statements types p.statements) := by
    rcases mem_consulted_iff.mp he with ⟨s, hs, rfl⟩ | ⟨s, hs, n, hn, ha⟩
    · exact Codegen.fails_statements hs (.after fun _ => (Codegen.fails_typeOf hunusable).before)
    · exact Codegen.fails_statements hs (Codegen.fails_expression hn ha hunusable).before
  obtain ⟨error, herror⟩ := hfails []
  refine ⟨error, ?_⟩
  rw [generate, StateT.run, herror]
  rfl

theorem generate_congr {other : TypeMap} (h : ∀ e ∈ p.consulted, other.of e.id = types.of e.id) :
    p.generate other = p.generate types := by
  have hstatements : Codegen.statements other p.statements =
      Codegen.statements types p.statements := by
    refine Codegen.statements_congr (fun s hs => ?_) (fun s hs n hn a ha => ?_)
    · exact h _ (mem_consulted_iff.mpr (.inl ⟨s, hs, rfl⟩))
    · exact h a (mem_consulted_iff.mpr (.inr ⟨s, hs, n, hn, ha⟩))
  rw [generate, generate, hstatements]

-- A consulted expression of a built program shares its number with no other expression.
theorem Built.eq_of_id_eq (hp : p.Built) {a : Expr} (ha : a ∈ p.consulted)
    (he : e ∈ p.expressions) (hid : a.id = e.id) : a = e := by
  obtain ⟨es, hes, hvalues⟩ := hp.exists_numbered
  have hmem : ∀ s ∈ p.statements, ∀ n ∈ s.value.nodes, n ∈ es := fun s hs =>
    hes.nodes _ (hvalues s hs)
  have ha : a ∈ es := by
    rcases mem_consulted_iff.mp ha with ⟨s, hs, rfl⟩ | ⟨s, hs, n, hn, ha⟩
    · exact hvalues s hs
    · exact hes.nodes n (hmem s hs n hn) a (Expr.mem_nodes_of_mem_consulted ha)
  obtain ⟨s, hs, he⟩ := List.mem_flatMap.mp he
  exact hes.unique a ha e (hmem s hs e he) hid

-- A program has no code if a consulted expression has no usable type, and its code depends on the
-- types of consulted expressions only. So, of a built program that has code, exactly those
-- expressions may lose their annotation that are not consulted.
theorem generate_needs_consulted (p : Program) (types : TypeMap) :
    ((∃ e ∈ p.consulted, (types.of e.id).isUsable = false) →
      ∃ error, p.generate types = .error error) ∧
    (∀ other : TypeMap, (∀ e ∈ p.consulted, other.of e.id = types.of e.id) →
      p.generate other = p.generate types) ∧
    (p.Built → ∀ b, p.generate types = .ok b → ∀ e ∈ p.expressions,
      (p.generate (types.without e) = .ok b ↔ e ∉ p.consulted)) := by
  refine ⟨?_, fun other => generate_congr, fun hp b hb e he => ⟨fun hwithout hconsulted => ?_,
    fun hconsulted => ?_⟩⟩
  · rintro ⟨e, he, hunusable⟩
    exact generate_eq_error he hunusable
  · have hmissing : ((types.without e).of e.id).isUsable = false := by
      rw [TypeMap.of_without, if_pos rfl]
      rfl
    obtain ⟨error, herror⟩ := generate_eq_error hconsulted hmissing
    rw [herror] at hwithout
    cases hwithout
  · rw [← hb]
    refine generate_congr fun a ha => ?_
    rw [TypeMap.of_without, if_neg]
    intro hid
    exact hconsulted (hp.eq_of_id_eq ha he hid ▸ ha)

-- The literal in parentheses has no annotation, and the program has code.
theorem generate_without_annotation :
    let p := (Program.parse "escreve (1);").1
    let types : TypeMap := #[.missing, .typed .integer]
    p.Built ∧ p.expressions.map (fun e => types.of e.id) = [.typed .integer, .missing] ∧
      p.generate types =
        .ok ⟨[], [⟨Operation.iconst.code, 1⟩, .of .iprint, .of .halt]⟩ := by
  refine ⟨Parser.built_parse _, by decide +kernel, by decide +kernel⟩

end Program

end Tuga
