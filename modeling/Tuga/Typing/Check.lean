import Tuga.Source.Position
import Tuga.Typing.Basic

namespace Tuga

def ValueType.arithmetic? (l r : ValueType) : Option ValueType :=
  if l.isNumeric && r.isNumeric then some (l.widen r) else none

def Level.type? (level : Level) (op : Operator) (l r : ValueType) : Option ValueType :=
  match level with
  | .multiplicative =>
    if op = .mod then
      if l = .integer && r = .integer then some .integer else none
    else l.arithmetic? r
  | .additive =>
    if op = .plus && (l = .text || r = .text) then some .text else l.arithmetic? r
  | .relational => if l.isNumeric && r.isNumeric then some .boolean else none
  | .equality =>
    if (l = .boolean && r = .boolean) || (l = .text && r = .text) ||
        (l.isNumeric && r.isNumeric) then some .boolean
    else none
  | .conjunction | .disjunction =>
    if l = .boolean && r = .boolean then some .boolean else none

def ValueType.neg? (t : ValueType) : Option ValueType :=
  if t.isNumeric then some t else none

def ValueType.not? (t : ValueType) : Option ValueType :=
  if t = .boolean then some .boolean else none

def Expr.type? : Expr → Option ValueType
  | .int _ _ => some .integer
  | .real _ _ => some .real
  | .bool _ _ => some .boolean
  | .text _ _ => some .text
  | .paren _ inner => inner.type?
  | .neg _ operand => operand.type?.bind ValueType.neg?
  | .not _ operand => operand.type?.bind ValueType.not?
  | .binary _ level op left right =>
    left.type?.bind fun l => right.type?.bind fun r => level.type? op l r

-- A violated typing rule: the operator and the types of its operands, left to right.
structure TypeError where
  span : Span
  op : Operator
  types : List ValueType
  deriving DecidableEq, Repr

namespace TypeError

def message (e : TypeError) : Text :=
  ("operator '" : Text) ++ e.op.text ++ ("' cannot be applied to " : Text) ++
    Text.join " and " (e.types.map fun t => (39 : UInt8) :: t.name ++ [39])

def diagnostic (e : TypeError) : Diagnostic :=
  ⟨e.span, e.message⟩

def render (e : TypeError) : Text :=
  ("line " : Text) ++ Text.ofInt e.span.start.line ++ (": " : Text) ++ e.message

end TypeError

-- What checking has found so far. The latest error stands first.
structure Report where
  types : TypeMap
  found : List TypeError

namespace Report

def record (report : Report) (e : Expr) (type : Option ValueType) : Report :=
  { report with types := report.types.setIfInBounds e.id (.ofType? type) }

def violation (report : Report) (e : Expr) (op : Operator) (types : List ValueType) : Report :=
  { report with found := ⟨e.span, op, types⟩ :: report.found }

def conclude (report : Report) (e : Expr) (op : Operator) (types : List ValueType)
    (type : Option ValueType) : Option ValueType × Report :=
  let report := if type.isNone then report.violation e op types else report
  (type, report.record e type)

def poisoned (report : Report) (e : Expr) : Option ValueType × Report :=
  (none, report.record e none)

end Report

-- Checks an expression, extending the report. Each violation is reported once, at the node where it
-- first arises; an ill-typed part makes the whole ill-typed without another report.
def Expr.check (report : Report) : Expr → Option ValueType × Report
  | e@(.paren _ inner) =>
    let (type, report) := inner.check report
    (type, report.record e type)
  | e@(.neg _ operand) =>
    match operand.check report with
    | (some t, report) => report.conclude e .neg [t] t.neg?
    | (none, report) => report.poisoned e
  | e@(.not _ operand) =>
    match operand.check report with
    | (some t, report) => report.conclude e .not [t] t.not?
    | (none, report) => report.poisoned e
  | e@(.binary _ level op left right) =>
    let (leftType, report) := left.check report
    match leftType, right.check report with
    | some l, (some r, report) => report.conclude e op [l, r] (level.type? op l r)
    | _, (_, report) => report.poisoned e
  | e => (e.type?, report.record e e.type?)

structure Typing where
  types : TypeMap
  errors : List TypeError

def Report.blank (n : Nat) : Report := ⟨TypeMap.blank n, []⟩

def Report.errors (report : Report) : List TypeError := report.found.reverse

def Report.hasErrors (report : Report) : Bool := !report.found.isEmpty

-- Checks a whole program with a report that may be left from another one, and gives the
-- annotations. Nothing of the earlier report is kept.
def Program.recheck (p : Program) : StateM Report TypeMap := do
  set (Report.blank p.nodeCount)
  p.statements.forM fun s => modify fun report => (s.value.check report).2
  return (← get).types

def Program.check (p : Program) : Typing :=
  let (types, report) := Id.run (p.recheck.run (.blank 0))
  ⟨types, report.errors⟩

end Tuga
