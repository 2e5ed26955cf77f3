import Tuga.Codegen
import Tuga.Proofs.Machine.Code

namespace Tuga.Codegen

open Machine

variable {program : Bytecode} {op : Operator} {o : Operation}

theorem ofInt_tdiv_toInt (l r : Int32) : Int32.ofInt (l.toInt.tdiv r.toInt) = l / r := by
  rw [← Int32.toInt_inj, Int32.toInt_ofInt, Int32.toInt_div]

theorem ofInt_tmod_toInt (l r : Int32) : Int32.ofInt (l.toInt.tmod r.toInt) = l % r := by
  rw [← Int32.toInt_mod, Int32.ofInt_toInt]

theorem computes_idiv (l r : Int32) :
    Computes program [.of .idiv] [.int r, .int l] (Operator.div.onIntegers l.toInt r.toInt) := by
  by_cases hzero : r = 0
  · subst hzero
    exact .binary_error Value.int? rfl rfl rfl (if_pos rfl) rfl .idiv
  · have hint : r.toInt ≠ 0 := fun h => hzero (Int32.toInt_inj.mp h)
    simp only [Operator.onIntegers, if_neg hint, ofInt_tdiv_toInt]
    exact .binary Value.int? rfl rfl rfl (if_neg hzero)

theorem computes_imod (l r : Int32) :
    Computes program [.of .imod] [.int r, .int l] (Operator.mod.onIntegers l.toInt r.toInt) := by
  by_cases hzero : r = 0
  · subst hzero
    exact .binary_error Value.int? rfl rfl rfl (if_pos rfl) rfl .imod
  · have hint : r.toInt ≠ 0 := fun h => hzero (Int32.toInt_inj.mp h)
    simp only [Operator.onIntegers, if_neg hint, ofInt_tmod_toInt]
    exact .binary Value.int? rfl rfl rfl (if_neg hzero)

theorem computes_ddiv (l r : Real64) :
    Computes program [.of .ddiv] [.real r, .real l] (Operator.div.onReals l r) := by
  by_cases hzero : r.abs.lt epsilon
  · simp only [Operator.onReals, if_pos hzero]
    exact .binary_error Value.real? rfl rfl rfl (if_pos hzero) rfl .ddiv
  · simp only [Operator.onReals, if_neg hzero]
    exact .binary Value.real? rfl rfl rfl (if_neg hzero)

theorem computes_integer_arithmetic (ho : arithmetic? op false = some o) (l r : Int32) :
    Computes program [.of o] [.int r, .int l] (op.onIntegers l.toInt r.toInt) := by
  cases op <;> simp [arithmetic?] at ho <;> subst ho
  case div => exact computes_idiv l r
  all_goals
    simp only [Operator.onIntegers, Int32.ofInt_add, Int32.ofInt_sub, Int32.ofInt_mul,
      Int32.ofInt_toInt]
    exact .instruction fun stack => rfl

theorem computes_real_arithmetic (ho : arithmetic? op true = some o) (l r : Real64) :
    Computes program [.of o] [.real r, .real l] (op.onReals l r) := by
  cases op <;> simp [arithmetic?] at ho <;> subst ho
  case div => exact computes_ddiv l r
  all_goals exact .instruction fun stack => rfl

-- The operators that compare.
def compares (op : Operator) : Bool :=
  op.level? = some .relational || op.level? = some .equality

theorem computes_integer_comparison (hop : compares op) (l r : Int32) :
    Computes program [.of (comparison op false)] [.int r, .int l]
      (op.onIntegers l.toInt r.toInt) := by
  cases op <;> simp [compares, Operator.level?] at hop
  all_goals
    simp only [Operator.onIntegers, ← Int32.lt_iff_toInt_lt, ← Int32.le_iff_toInt_le,
      Int32.toInt_inj, ne_eq]
    exact .instruction fun stack => rfl

theorem computes_real_comparison (hop : compares op) (l r : Real64) :
    Computes program [.of (comparison op true)] [.real r, .real l] (op.onReals l r) := by
  cases op <;> simp [compares, Operator.level?] at hop
  all_goals exact .instruction fun stack => rfl

theorem computes_boolean_equality (ho : equality? op .beq .bneq = some o) (l r : Bool) :
    Computes program [.of o] [.bool r, .bool l] (op.onBooleans l r) := by
  cases op <;> cases ho
  all_goals exact .instruction fun stack => rfl

theorem computes_text_equality (ho : equality? op .seq .sneq = some o) (l r : Text) :
    Computes program [.of o] [.text r, .text l] (op.onTexts l r) := by
  cases op <;> cases ho
  all_goals exact .instruction fun stack => rfl

-- An operand brought to the type real.
def widened : Value → Value
  | .int v => .real (Real64.ofInt v.toInt)
  | v => v

theorem computes_widening (v : Value) :
    Computes program (widening (.typed v.type) (.typed .real)) [v] (.ok (widened v)) := by
  cases v with
  | int => exact .instruction fun stack => rfl
  | real | bool | text => exact .nil _

theorem widening_eq_nil {type target : NodeType} (h : target ≠ .typed .real) :
    widening type target = [] := by
  simp [widening, h]

theorem computes_toText (v : Value) :
    Computes program (toText (.typed v.type)) [v] (.ok (.text v.render)) := by
  cases v with
  | text => exact .nil _
  | int | real | bool => exact .instruction fun stack => rfl

-- Conversions and an operation that compute an operator on operands of the given types.
structure Lowers (op : Operator) (l r : ValueType) (convert : NodeType → List Instruction)
    (o : Operation) : Prop where
  computes : ∃ converted : Value → Value,
    (∀ (program : Bytecode) (v : Value),
      Computes program (convert (.typed v.type)) [v] (.ok (converted v))) ∧
    ∀ (program : Bytecode) (x y : Value), x.type = l → y.type = r →
      Computes program [.of o] [converted y, converted x] (op.apply x y)
  convert_silent : ∀ t, ∀ i ∈ convert t, ∃ c : Operation, i = .of c ∧ c.isPrint = false
  silent : o.isPrint = false

theorem widening_silent (type target : NodeType) :
    ∀ i ∈ widening type target, ∃ c : Operation, i = .of c ∧ c.isPrint = false := by
  intro i hi
  rw [widening] at hi
  split at hi
  · exact ⟨.itod, List.mem_singleton.mp hi, rfl⟩
  · simp at hi

theorem toText_silent (type : NodeType) :
    ∀ i ∈ toText type, ∃ c : Operation, i = .of c ∧ c.isPrint = false := by
  intro i hi
  rw [toText.eq_def] at hi
  split at hi
  · exact ⟨.itos, List.mem_singleton.mp hi, rfl⟩
  · exact ⟨.dtos, List.mem_singleton.mp hi, rfl⟩
  · exact ⟨.btos, List.mem_singleton.mp hi, rfl⟩
  · simp at hi

theorem lowers_same {l r : ValueType} {target : NodeType} (ht : target ≠ .typed .real)
    (ho : o.isPrint = false)
    (h : ∀ program (x y : Value), x.type = l → y.type = r →
      Computes program [.of o] [y, x] (op.apply x y)) :
    Lowers op l r (widening · target) o where
  computes := by
    refine ⟨id, fun program v => ?_, h⟩
    rw [widening_eq_nil ht]
    exact .nil v
  convert_silent := fun t => widening_silent t _
  silent := ho

theorem lowers_widened {l r : ValueType} (hl : l.isNumeric) (hr : r.isNumeric)
    (hcommon : l.widen r = .real) (ho : o.isPrint = false)
    (h : ∀ program (x y : Real64),
      Computes program [.of o] [.real y, .real x] (op.onReals x y)) :
    Lowers op l r (widening · (.typed .real)) o where
  computes := by
    refine ⟨widened, fun program v => computes_widening v, ?_⟩
    rintro program x y rfl rfl
    cases x with
    | bool | text => cases hl
    | int x =>
        cases y with
        | bool | text => cases hr
        | int y => cases hcommon
        | real y => exact op.apply_int_real x y ▸ h program _ y
    | real x =>
        cases y with
        | bool | text => cases hr
        | int y => exact op.apply_real_int x y ▸ h program x _
        | real y => exact op.apply_real_real x y ▸ h program x y
  convert_silent := fun t => widening_silent t _
  silent := ho

theorem lowers_numbers {l r : ValueType} (hl : l.isNumeric) (hr : r.isNumeric)
    (ho : o.isPrint = false)
    (hint : l.widen r = .integer → ∀ program (x y : Int32),
      Computes program [.of o] [.int y, .int x] (op.onIntegers x.toInt y.toInt))
    (hreal : l.widen r = .real → ∀ program (x y : Real64),
      Computes program [.of o] [.real y, .real x] (op.onReals x y)) :
    Lowers op l r (widening · (.typed (l.widen r))) o := by
  by_cases hcommon : l.widen r = .real
  · rw [hcommon]
    exact lowers_widened hl hr hcommon ho (hreal hcommon)
  · obtain ⟨rfl, rfl⟩ : l = .integer ∧ r = .integer := by
      cases l <;> cases hl <;> cases r <;> cases hr <;> simp [ValueType.widen] at hcommon ⊢
    refine lowers_same (by decide) ho fun program x y hx hy => ?_
    cases x <;> cases hx
    cases y <;> cases hy
    rw [Operator.apply_int_int]
    exact hint rfl program _ _

theorem arithmetic?_isPrint {real : Bool} (ho : arithmetic? op real = some o) :
    o.isPrint = false := by
  cases real <;> cases op <;> cases ho <;> rfl

theorem comparison_isPrint (op : Operator) (real : Bool) :
    (comparison op real).isPrint = false := by
  cases real <;> cases op <;> rfl

theorem arithmetic?_ne_text {l r t : ValueType} (ht : l.arithmetic? r = some t) :
    NodeType.typed t ≠ .typed .text := by
  cases l <;> cases r <;> cases ht <;> decide

theorem lowers_arithmetic {l r t : ValueType} (ht : l.arithmetic? r = some t)
    (ho : arithmetic? op (NodeType.typed t = .typed .real) = some o) :
    Lowers op l r (widening · (.typed t)) o := by
  obtain ⟨hnumeric, rfl⟩ : (l.isNumeric && r.isNumeric) = true ∧ l.widen r = t := by
    simpa [ValueType.arithmetic?] using ht
  rw [Bool.and_eq_true] at hnumeric
  refine lowers_numbers hnumeric.1 hnumeric.2 (arithmetic?_isPrint ho) ?_ ?_
  · intro hcommon program x y
    refine computes_integer_arithmetic ?_ x y
    simpa [hcommon] using ho
  · intro hcommon program x y
    refine computes_real_arithmetic ?_ x y
    simpa [hcommon] using ho

theorem lowers_comparison {l r : ValueType} (hop : compares op) (hl : l.isNumeric)
    (hr : r.isNumeric) :
    Lowers op l r (widening · (.typed (l.widen r))) (comparison op (l.widen r = .real)) := by
  refine lowers_numbers hl hr (comparison_isPrint _ _) ?_ ?_
  · intro hcommon program x y
    simpa [hcommon] using computes_integer_comparison hop x y
  · intro hcommon program x y
    simpa [hcommon] using computes_real_comparison hop x y

theorem lowers_concat {l r : ValueType} (htext : l = .text ∨ r = .text) :
    Lowers .plus l r toText .sconcat where
  computes := by
    refine ⟨fun v => .text v.render, fun program v => computes_toText v, ?_⟩
    rintro program x y rfl rfl
    rw [Operator.apply_plus htext]
    exact .instruction fun stack => rfl
  convert_silent := toText_silent
  silent := rfl

theorem lowers_booleans {target : NodeType} (ht : target ≠ .typed .real) (ho : o.isPrint = false)
    (h : ∀ program (x y : Bool), Computes program [.of o] [.bool y, .bool x] (op.onBooleans x y)) :
    Lowers op .boolean .boolean (widening · target) o := by
  refine lowers_same ht ho fun program x y hx hy => ?_
  cases x <;> cases hx
  cases y <;> cases hy
  rw [Operator.apply_bool_bool]
  exact h program _ _

theorem lowers_texts {target : NodeType} (ht : target ≠ .typed .real) (hop : op ≠ .plus)
    (ho : o.isPrint = false)
    (h : ∀ program (x y : Text), Computes program [.of o] [.text y, .text x] (op.onTexts x y)) :
    Lowers op .text .text (widening · target) o := by
  refine lowers_same ht ho fun program x y hx hy => ?_
  cases x <;> cases hx
  cases y <;> cases hy
  rw [Operator.apply_text_text hop]
  exact h program _ _

theorem lowers_modulo : Lowers .mod .integer .integer (widening · (.typed .integer)) .imod := by
  refine lowers_same (by decide) rfl fun program x y hx hy => ?_
  cases x <;> cases hx
  cases y <;> cases hy
  rw [Operator.apply_int_int]
  exact computes_imod _ _

-- Operands that the typing rules let compare have a comparison.
theorem exists_compare? {level : Level} {l r t : ValueType} (hop : op.level? = some level)
    (hlevel : level = .relational ∨ level = .equality) (ht : level.type? op l r = some t) :
    ∃ common o, compare? op (.typed l) (.typed r) = some (common, o) ∧
      Lowers op l r (widening · common) o := by
  have hcompares : compares op := by
    rcases hlevel with rfl | rfl <;> simp [compares, hop]
  by_cases hnumeric : l.isNumeric ∧ r.isNumeric
  · refine ⟨_, _, ?_, lowers_comparison hcompares hnumeric.1 hnumeric.2⟩
    cases l <;> cases hnumeric.1 <;> cases r <;> cases hnumeric.2 <;> rfl
  · rcases hlevel with rfl | rfl
    · simp [Level.type?, hnumeric] at ht
    · have htypes : l = .boolean ∧ r = .boolean ∨ l = .text ∧ r = .text := by
        simp only [Level.type?] at ht
        split at ht
        · rename_i hrule
          simpa [hnumeric] using hrule
        · cases ht
      rcases htypes with ⟨rfl, rfl⟩ | ⟨rfl, rfl⟩
      · obtain ⟨o, ho, hsilent⟩ : ∃ o, equality? op .beq .bneq = some o ∧ o.isPrint = false := by
          cases op <;> cases hop <;> exact ⟨_, rfl, rfl⟩
        refine ⟨.typed .boolean, o, by simp [compare?, ho], ?_⟩
        exact lowers_booleans (by decide) hsilent fun program => computes_boolean_equality ho
      · obtain ⟨o, ho, hsilent⟩ : ∃ o, equality? op .seq .sneq = some o ∧ o.isPrint = false := by
          cases op <;> cases hop <;> exact ⟨_, rfl, rfl⟩
        have hplus : op ≠ .plus := by
          rintro rfl
          cases hop
        refine ⟨.typed .text, o, by simp [compare?, ho], ?_⟩
        exact lowers_texts (by decide) hplus hsilent fun program => computes_text_equality ho

end Tuga.Codegen
