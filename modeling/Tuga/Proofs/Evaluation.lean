import Tuga.Machine.Step
import Tuga.Proofs.Computation
import Tuga.Proofs.Typing.Table

namespace Tuga

-- Why an expression has no value. Well-typed expressions fail only by dividing by zero.
inductive Failure where
  | divisionByZero
  | moduloByZero
  | illTyped
  deriving DecidableEq, Repr

-- The fault that reports a failure.
def Failure.fault? : Failure → Option Fault
  | divisionByZero => some .divisionByZero
  | moduloByZero => some .moduloByZero
  | illTyped => none

namespace Value

def type : Value → ValueType
  | int _ => .integer
  | real _ => .real
  | bool _ => .boolean
  | text _ => .text

def neg : Value → Except Failure Value
  | int v => .ok (int (Int32.ofInt (-v.toInt)))
  | real v => .ok (real v.neg)
  | _ => .error .illTyped

def not : Value → Except Failure Value
  | bool v => .ok (bool !v)
  | _ => .error .illTyped

end Value

namespace Operator

def onIntegers (op : Operator) (l r : Int) : Except Failure Value :=
  match op with
  | plus => .ok (.int (Int32.ofInt (l + r)))
  | minus => .ok (.int (Int32.ofInt (l - r)))
  | mul => .ok (.int (Int32.ofInt (l * r)))
  | div => if r = 0 then .error .divisionByZero else .ok (.int (Int32.ofInt (l.tdiv r)))
  | mod => if r = 0 then .error .moduloByZero else .ok (.int (Int32.ofInt (l.tmod r)))
  | less => .ok (.bool (l < r))
  | lessEq => .ok (.bool (l ≤ r))
  | greater => .ok (.bool (r < l))
  | greaterEq => .ok (.bool (r ≤ l))
  | equal => .ok (.bool (l = r))
  | notEqual => .ok (.bool (l ≠ r))
  | _ => .error .illTyped

-- Reals are equal if they are closer than epsilon; a NaN is neither equal to a real nor different.
def onReals (op : Operator) (l r : Real64) : Except Failure Value :=
  match op with
  | plus => .ok (.real (l.add r))
  | minus => .ok (.real (l.sub r))
  | mul => .ok (.real (l.mul r))
  | div => if r.abs.lt Machine.epsilon then .error .divisionByZero else .ok (.real (l.div r))
  | less => .ok (.bool (l.lt r))
  | lessEq => .ok (.bool (l.le r))
  | greater => .ok (.bool (r.lt l))
  | greaterEq => .ok (.bool (r.le l))
  | equal => .ok (.bool ((l.sub r).abs.lt Machine.epsilon))
  | notEqual => .ok (.bool (Machine.epsilon.le (l.sub r).abs))
  | _ => .error .illTyped

def onBooleans (op : Operator) (l r : Bool) : Except Failure Value :=
  match op with
  | and => .ok (.bool (l && r))
  | or => .ok (.bool (l || r))
  | equal => .ok (.bool (l = r))
  | notEqual => .ok (.bool (l ≠ r))
  | _ => .error .illTyped

def onTexts (op : Operator) (l r : Text) : Except Failure Value :=
  match op with
  | equal => .ok (.bool (l = r))
  | notEqual => .ok (.bool (l ≠ r))
  | _ => .error .illTyped

-- The value of an operator on two values.
def apply (op : Operator) (l r : Value) : Except Failure Value :=
  if op = plus && (l.type = .text || r.type = .text) then .ok (.text (l.render ++ r.render))
  else
    match l, r with
    | .int l, .int r => op.onIntegers l.toInt r.toInt
    | .int l, .real r => op.onReals (Real64.ofInt l.toInt) r
    | .real l, .int r => op.onReals l (Real64.ofInt r.toInt)
    | .real l, .real r => op.onReals l r
    | .bool l, .bool r => op.onBooleans l r
    | .text l, .text r => op.onTexts l r
    | _, _ => .error .illTyped

section Apply

variable (op : Operator)

@[simp] theorem apply_int_int (l r : Int32) :
    op.apply (.int l) (.int r) = op.onIntegers l.toInt r.toInt :=
  if_neg (by simp [Value.type])

@[simp] theorem apply_int_real (l : Int32) (r : Real64) :
    op.apply (.int l) (.real r) = op.onReals (Real64.ofInt l.toInt) r :=
  if_neg (by simp [Value.type])

@[simp] theorem apply_real_int (l : Real64) (r : Int32) :
    op.apply (.real l) (.int r) = op.onReals l (Real64.ofInt r.toInt) :=
  if_neg (by simp [Value.type])

@[simp] theorem apply_real_real (l r : Real64) :
    op.apply (.real l) (.real r) = op.onReals l r :=
  if_neg (by simp [Value.type])

@[simp] theorem apply_bool_bool (l r : Bool) :
    op.apply (.bool l) (.bool r) = op.onBooleans l r :=
  if_neg (by simp [Value.type])

theorem apply_text_text {op : Operator} (hop : op ≠ plus) (l r : Text) :
    op.apply (.text l) (.text r) = op.onTexts l r := by
  simp [apply, hop]

theorem apply_plus {l r : Value} (htext : l.type = .text ∨ r.type = .text) :
    plus.apply l r = .ok (.text (l.render ++ r.render)) := by
  simp [apply, htext]

end Apply

end Operator

-- The value of an expression, where `read` gives the value of a text from how it is written.
def Expr.evaluate (read : Text → Text) : Expr → Except Failure Value
  | .int _ value => .ok (.int (Int32.ofInt value))
  | .real _ value => .ok (.real value)
  | .bool _ value => .ok (.bool value)
  | .text _ quoted => .ok (.text (read quoted))
  | .paren _ inner => inner.evaluate read
  | .neg _ operand => do (← operand.evaluate read).neg
  | .not _ operand => do (← operand.evaluate read).not
  | .binary _ _ op left right => do
    let l ← left.evaluate read
    let r ← right.evaluate read
    op.apply l r

-- The values of statements up to the first that fails, and that failure.
def evaluateAll (read : Text → Text) : List Statement → List Value × Option Failure
  | [] => ([], none)
  | s :: rest =>
    match s.value.evaluate read with
    | .ok v => (v :: (evaluateAll read rest).1, (evaluateAll read rest).2)
    | .error failure => ([], some failure)

-- What a program prints, and why it stops early if it does.
def Program.evaluate (p : Program) (read : Text → Text) : List Value × Option Failure :=
  evaluateAll read p.statements

def Value.lines (values : List Value) : Text :=
  values.flatMap fun v => v.render ++ [10]

theorem Value.type_neg {v w : Value} {t : ValueType} (ht : v.type.neg? = some t)
    (hw : v.neg = .ok w) : w.type = t := by
  cases v <;> cases ht <;> cases hw <;> rfl

theorem Value.type_not {v w : Value} {t : ValueType} (ht : v.type.not? = some t)
    (hw : v.not = .ok w) : w.type = t := by
  cases v <;> cases ht
  cases hw
  rfl

namespace Operator

-- The type of a result on two operands brought to the type `common`.
def resultType (op : Operator) (common : ValueType) : ValueType :=
  match op.level? with
  | some .multiplicative | some .additive => common
  | _ => .boolean

theorem type_onIntegers {op : Operator} {l r : Int} {v : Value} (h : op.onIntegers l r = .ok v) :
    v.type = op.resultType .integer := by
  cases op
  case div | mod =>
    simp only [onIntegers] at h
    split at h
    · cases h
    · cases h
      rfl
  all_goals cases h <;> rfl

theorem type_onReals {op : Operator} {l r : Real64} {v : Value} (h : op.onReals l r = .ok v) :
    v.type = op.resultType .real := by
  cases op
  case div =>
    simp only [onReals] at h
    split at h
    · cases h
    · cases h
      rfl
  all_goals cases h <;> rfl

theorem type_onBooleans {op : Operator} {l r : Bool} {v : Value}
    (h : op.onBooleans l r = .ok v) : v.type = .boolean := by
  cases op <;> cases h <;> rfl

theorem type_onTexts {op : Operator} {l r : Text} {v : Value} (h : op.onTexts l r = .ok v) :
    v.type = .boolean := by
  cases op <;> cases h <;> rfl

theorem type_apply {op : Operator} {level : Level} {l r v : Value} {t : ValueType}
    (hlevel : op.level? = some level) (ht : level.type? op l.type r.type = some t)
    (hv : op.apply l r = .ok v) : v.type = t := by
  unfold apply at hv
  split at hv
  · rename_i hplus
    rw [Bool.and_eq_true, decide_eq_true_eq] at hplus
    obtain ⟨rfl, htext⟩ := hplus
    cases hlevel
    cases hv
    simp only [Level.type?, htext, decide_true, Bool.and_self, ite_true] at ht
    exact Option.some.inj ht
  · rename_i hplus
    rw [Bool.and_eq_true, decide_eq_true_eq, not_and] at hplus
    split at hv
    · rw [type_onIntegers hv]
      cases op <;> cases hlevel <;> cases ht <;> rfl
    · rw [type_onReals hv]
      cases op <;> cases hlevel <;> cases ht <;> rfl
    · rw [type_onReals hv]
      cases op <;> cases hlevel <;> cases ht <;> rfl
    · rw [type_onReals hv]
      cases op <;> cases hlevel <;> cases ht <;> rfl
    · rw [type_onBooleans hv]
      cases op <;> cases hlevel <;> cases ht <;> rfl
    · rw [type_onTexts hv]
      cases op <;> cases hlevel <;> cases ht <;> simp [Value.type] at hplus ⊢
    · cases hv
end Operator

-- The value of an expression has its type.
theorem Expr.Annotated.type_evaluate {types : TypeMap} {read : Text → Text} {e : Expr}
    {t : ValueType} {v : Value} (he : e.Annotated types) (ht : e.type? = some t)
    (hv : e.evaluate read = .ok v) : v.type = t := by
  induction e generalizing t v with
  | int | real | bool | text =>
      cases ht
      cases hv
      rfl
  | paren info inner ih => exact ih (he.part (by simp [children])) ht hv
  | neg info operand ih =>
      obtain ⟨o, ho, ht⟩ := Option.bind_eq_some_iff.mp ht
      obtain ⟨w, hw, hv⟩ := bind_eq_ok.mp hv
      rw [← ih (he.part (by simp [children])) ho hw] at ht
      exact Value.type_neg ht hv
  | not info operand ih =>
      obtain ⟨o, ho, ht⟩ := Option.bind_eq_some_iff.mp ht
      obtain ⟨w, hw, hv⟩ := bind_eq_ok.mp hv
      rw [← ih (he.part (by simp [children])) ho hw] at ht
      exact Value.type_not ht hv
  | binary info level op left right ihl ihr =>
      obtain ⟨l, hl, ht⟩ := Option.bind_eq_some_iff.mp ht
      obtain ⟨r, hr, ht⟩ := Option.bind_eq_some_iff.mp ht
      obtain ⟨x, hx, hv⟩ := bind_eq_ok.mp hv
      obtain ⟨y, hy, hv⟩ := bind_eq_ok.mp hv
      rw [← ihl (he.part (by simp [children])) hl hx,
        ← ihr (he.part (by simp [children])) hr hy] at ht
      exact Operator.type_apply he.leveled ht hv

end Tuga
