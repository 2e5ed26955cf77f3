import Tuga.Proofs.Typing.Table

namespace Tuga

-- The type of a binary expression, given those of its operands.
inductive Level.Rule : Level → Operator → ValueType → ValueType → ValueType → Prop
  | concatenation {l r : ValueType} (text : l = .text ∨ r = .text) : Rule .additive .plus l r .text
  | additive {op : Operator} {l r : ValueType} (left : l.isNumeric) (right : r.isNumeric) :
      Rule .additive op l r (l.widen r)
  | multiplicative {op : Operator} {l r : ValueType} (notMod : op ≠ .mod) (left : l.isNumeric)
      (right : r.isNumeric) : Rule .multiplicative op l r (l.widen r)
  | modulo : Rule .multiplicative .mod .integer .integer .integer
  | relational {op : Operator} {l r : ValueType} (left : l.isNumeric) (right : r.isNumeric) :
      Rule .relational op l r .boolean
  | numbers {op : Operator} {l r : ValueType} (left : l.isNumeric) (right : r.isNumeric) :
      Rule .equality op l r .boolean
  | booleans {op : Operator} : Rule .equality op .boolean .boolean .boolean
  | texts {op : Operator} : Rule .equality op .text .text .boolean
  | conjunction {op : Operator} : Rule .conjunction op .boolean .boolean .boolean
  | disjunction {op : Operator} : Rule .disjunction op .boolean .boolean .boolean

-- The type of an expression.
inductive Expr.HasType : Expr → ValueType → Prop
  | int {info : NodeInfo} {value : Int} : HasType (.int info value) .integer
  | real {info : NodeInfo} {value : Real64} : HasType (.real info value) .real
  | bool {info : NodeInfo} {value : Bool} : HasType (.bool info value) .boolean
  | text {info : NodeInfo} {quoted : Text} : HasType (.text info quoted) .text
  | paren {info : NodeInfo} {inner : Expr} {t : ValueType} (h : HasType inner t) :
      HasType (.paren info inner) t
  | neg {info : NodeInfo} {operand : Expr} {t : ValueType} (h : HasType operand t)
      (numeric : t.isNumeric) : HasType (.neg info operand) t
  | not {info : NodeInfo} {operand : Expr} (h : HasType operand .boolean) :
      HasType (.not info operand) .boolean
  | binary {info : NodeInfo} {level : Level} {op : Operator} {left right : Expr}
      {l r t : ValueType} (hleft : HasType left l) (hright : HasType right r)
      (rule : level.Rule op l r t) : HasType (.binary info level op left right) t

theorem ValueType.arithmetic?_eq_some_iff {l r t : ValueType} :
    l.arithmetic? r = some t ↔ (l.isNumeric ∧ r.isNumeric) ∧ l.widen r = t := by
  simp [arithmetic?]

theorem Level.type?_eq_some_iff {level : Level} {op : Operator} {l r t : ValueType} :
    level.type? op l r = some t ↔ level.Rule op l r t := by
  constructor
  · intro h
    cases level with
    | multiplicative =>
        rw [type?] at h
        split at h
        · rename_i hop
          obtain ⟨htypes, ht⟩ := Option.ite_none_right_eq_some.mp h
          obtain ⟨hl, hr⟩ : l = .integer ∧ r = .integer := by simpa using htypes
          cases ht
          rw [hop, hl, hr]
          exact .modulo
        · rename_i hop
          obtain ⟨⟨hl, hr⟩, rfl⟩ := ValueType.arithmetic?_eq_some_iff.mp h
          exact .multiplicative hop hl hr
    | additive =>
        rw [type?] at h
        split at h
        · rename_i hconcat
          obtain ⟨rfl, htext⟩ : op = .plus ∧ (l = .text ∨ r = .text) := by simpa using hconcat
          cases h
          exact .concatenation htext
        · obtain ⟨⟨hl, hr⟩, rfl⟩ := ValueType.arithmetic?_eq_some_iff.mp h
          exact .additive hl hr
    | relational =>
        obtain ⟨htypes, ht⟩ := Option.ite_none_right_eq_some.mp h
        obtain ⟨hl, hr⟩ := Bool.and_eq_true_iff.mp htypes
        cases ht
        exact .relational hl hr
    | equality =>
        obtain ⟨htypes, ht⟩ := Option.ite_none_right_eq_some.mp h
        cases ht
        simp only [Bool.or_eq_true, Bool.and_eq_true, decide_eq_true_eq] at htypes
        rcases htypes with (⟨rfl, rfl⟩ | ⟨rfl, rfl⟩) | ⟨hl, hr⟩
        · exact .booleans
        · exact .texts
        · exact .numbers hl hr
    | conjunction | disjunction =>
        obtain ⟨htypes, ht⟩ := Option.ite_none_right_eq_some.mp h
        obtain ⟨rfl, rfl⟩ : l = .boolean ∧ r = .boolean := by simpa using htypes
        cases ht
        constructor
  · intro h
    cases h with
    | concatenation text => simp [type?, text]
    | additive left right =>
        rw [type?, if_neg, ValueType.arithmetic?, left, right]
        · rfl
        · cases l <;> cases r <;> simp [ValueType.isNumeric] at left right ⊢
    | multiplicative notMod left right => simp [type?, notMod, ValueType.arithmetic?, left, right]
    | relational left right | numbers left right => simp [type?, left, right]
    | modulo | booleans | texts | conjunction | disjunction => rfl

namespace Expr

variable {e : Expr} {t : ValueType}

theorem type?_eq_some_iff : e.type? = some t ↔ e.HasType t := by
  constructor
  · intro h
    induction e generalizing t with
    | int | real | bool | text => cases h; constructor
    | paren info inner ih => exact .paren (ih h)
    | neg info operand ih =>
        obtain ⟨t', ht', hneg⟩ := Option.bind_eq_some_iff.mp h
        obtain ⟨hnumeric, ht⟩ := Option.ite_none_right_eq_some.mp hneg
        cases ht
        exact .neg (ih ht') hnumeric
    | not info operand ih =>
        obtain ⟨t', ht', hnot⟩ := Option.bind_eq_some_iff.mp h
        obtain ⟨rfl, ht⟩ := Option.ite_none_right_eq_some.mp hnot
        cases ht
        exact .not (ih ht')
    | binary info level op left right ihl ihr =>
        obtain ⟨l, hl, h⟩ := Option.bind_eq_some_iff.mp h
        obtain ⟨r, hr, h⟩ := Option.bind_eq_some_iff.mp h
        exact .binary (ihl hl) (ihr hr) (Level.type?_eq_some_iff.mp h)
  · intro h
    induction h with
    | int | real | bool | text => rfl
    | paren _ ih => exact ih
    | neg _ numeric ih => simp [type?, ih, ValueType.neg?, numeric]
    | not _ ih => simp [type?, ih, ValueType.not?]
    | binary _ _ rule ihl ihr => simp [type?, ihl, ihr, Level.type?_eq_some_iff.mpr rule]

theorem HasType.violation?_eq_none (h : e.HasType t) : e.violation? = none := by
  cases h with
  | int | real | bool | text | paren => rfl
  | neg h numeric =>
      simp [violation?, type?_eq_some_iff.mpr h, ValueType.neg?, numeric]
  | not h => simp [violation?, type?_eq_some_iff.mpr h, ValueType.not?]
  | binary hleft hright rule =>
      simp [violation?, type?_eq_some_iff.mpr hleft, type?_eq_some_iff.mpr hright,
        Level.type?_eq_some_iff.mpr rule]

end Expr

-- Checking finds no error exactly if every expression of the program has a type.
theorem Program.check_errors_eq_nil_iff (p : Program) :
    p.check.errors = [] ↔ ∀ e ∈ p.expressions, ∃ t, e.HasType t := by
  rw [check_eq, List.filterMap_eq_nil_iff]
  constructor
  · intro h e he
    obtain ⟨s, hs, he⟩ := List.mem_flatMap.mp he
    have hnone : ∀ n ∈ s.value.nodes, n.violation? = none := fun n hn =>
      h n (List.mem_flatMap.mpr ⟨s, hs, Expr.mem_postorder_iff.mpr hn⟩)
    obtain ⟨t, ht⟩ := Option.isSome_iff_exists.mp
      (Expr.type?_isSome_of_violation?_eq_none hnone e he)
    exact ⟨t, Expr.type?_eq_some_iff.mp ht⟩
  · intro h e he
    obtain ⟨s, hs, he⟩ := List.mem_flatMap.mp he
    obtain ⟨t, ht⟩ := h e (List.mem_flatMap.mpr ⟨s, hs, Expr.mem_postorder_iff.mp he⟩)
    exact ht.violation?_eq_none

end Tuga
