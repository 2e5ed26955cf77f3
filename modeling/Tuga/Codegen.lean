import Tuga.Bytecode.Basic
import Tuga.Typing.Basic

namespace Tuga

inductive CodegenCause where
  | missingType (kind : Text)
  | typeError
  | literalTooWide (value : Int)
  | noArithmetic (op : Operator)
  | cannotCompare (left right : NodeType)
  deriving DecidableEq, Repr

def CodegenCause.message : CodegenCause → Text
  | missingType kind => ("no type annotation for *compiler." : Text) ++ kind
  | typeError => "expression has a type error"
  | literalTooWide value =>
    ("integer literal " : Text) ++ Text.ofInt value ++ (" does not fit in 32 bits" : Text)
  | noArithmetic op => ("no arithmetic instruction for '" : Text) ++ op.text ++ ("'" : Text)
  | cannotCompare left right =>
    ("cannot compare '" : Text) ++ left.name ++ ("' with '" : Text) ++ right.name ++ ("'" : Text)

structure CodegenError where
  span : Span
  cause : CodegenCause
  deriving DecidableEq, Repr

def CodegenError.message (e : CodegenError) : Text :=
  ("line " : Text) ++ Text.ofInt e.span.start.line ++ (": " : Text) ++ e.cause.message

namespace Codegen

abbrev Gen := StateT (List Constant) (Except CodegenError)

-- The annotation of an expression, which must be there and must not be an error.
def typeOf (types : TypeMap) (e : Expr) : Gen NodeType :=
  match types.of e.id with
  | .missing => throw ⟨e.span, .missingType e.kindName⟩
  | .error => throw ⟨e.span, .typeError⟩
  | t => pure t

def load (op : Operation) (c : Constant) : Gen (List Instruction) := fun pool =>
  let (index, pool) := pooled pool c
  .ok ([⟨op.code, Int32.ofNat index⟩], pool)

def arithmetic? (op : Operator) (real : Bool) : Option Operation :=
  match op with
  | .plus => some (if real then .dadd else .iadd)
  | .minus => some (if real then .dsub else .isub)
  | .mul => some (if real then .dmult else .imult)
  | .div => some (if real then .ddiv else .idiv)
  | _ => none

-- The comparison of an operator, for integers and for reals. The byte zero, a load, stands in for
-- operators that compare nothing.
def comparison (op : Operator) (real : Bool) : Operation :=
  match op with
  | .less => if real then .dlt else .ilt
  | .lessEq => if real then .dleq else .ileq
  | .greater => if real then .dgt else .igt
  | .greaterEq => if real then .dgeq else .igeq
  | .equal => if real then .deq else .ieq
  | .notEqual => if real then .dneq else .ineq
  | _ => .iconst

def equality? (op : Operator) (equal notEqual : Operation) : Option Operation :=
  match op with
  | .equal => some equal
  | .notEqual => some notEqual
  | _ => none

def widening (type target : NodeType) : List Instruction :=
  if type = .typed .integer && target = .typed .real then [.of .itod] else []

def toText (type : NodeType) : List Instruction :=
  match type with
  | .typed .integer => [.of .itos]
  | .typed .real => [.of .dtos]
  | .typed .boolean => [.of .btos]
  | _ => []

def printing (type : NodeType) : List Instruction :=
  match type with
  | .typed .integer => [.of .iprint]
  | .typed .real => [.of .dprint]
  | .typed .boolean => [.of .bprint]
  | .typed .text => [.of .sprint]
  | _ => []

-- An operand: its annotation is needed first, then its code and the conversion follow.
def operand (types : TypeMap) (convert : NodeType → List Instruction) (e : Expr)
    (code : Gen (List Instruction)) : Gen (List Instruction) := do
  let type ← typeOf types e
  let is ← code
  return is ++ convert type

def operation (types : TypeMap) (convert : NodeType → List Instruction) (left right : Expr)
    (leftCode rightCode : Gen (List Instruction)) (op : Operation) : Gen (List Instruction) := do
  let ls ← operand types convert left leftCode
  let rs ← operand types convert right rightCode
  return ls ++ rs ++ [.of op]

-- How two annotated operands are compared: the type both are brought to, and the operation.
def compare? (op : Operator) (l r : NodeType) : Option (NodeType × Operation) :=
  match l, r with
  | .typed .boolean, .typed .boolean =>
    (equality? op .beq .bneq).map fun op => (.typed .boolean, op)
  | .typed .text, .typed .text => (equality? op .seq .sneq).map fun op => (.typed .text, op)
  | .typed l, .typed r =>
    if l.isNumeric && r.isNumeric then
      let common := l.widen r
      some (.typed common, comparison op (common = .real))
    else none
  | _, _ => none

def fitsOperand (value : Int) : Bool :=
  -0x80000000 ≤ value && value < 0x80000000

-- The code of an expression, which leaves its value on the stack: the code of the operands, each
-- widened or turned into text where the operation needs it, and then the operation. A node whose
-- type is needed and missing is an error.
def expression (types : TypeMap) : Expr → Gen (List Instruction)
  | .int info value =>
    if fitsOperand value then pure [⟨Operation.iconst.code, Int32.ofInt value⟩]
    else throw ⟨info.span, .literalTooWide value⟩
  | .real _ value => load .dconst (.ofReal value)
  | .text _ quoted => load .sconst (.ofText quoted)
  | .bool _ value => pure [.of (if value then .tconst else .fconst)]
  | .paren _ inner => expression types inner
  | e@(.neg _ inner) => do
    let type ← typeOf types e
    let is ← expression types inner
    return is ++ [.of (if type = .typed .real then .duminus else .iuminus)]
  | .not _ inner => do
    let is ← expression types inner
    return is ++ [.of .not]
  | e@(.binary info level op left right) =>
    let binary (convert : NodeType → List Instruction) (op : Operation) :=
      operation types convert left right (expression types left) (expression types right) op
    let arithmetic (type : NodeType) : Gen (List Instruction) :=
      match arithmetic? op (type = .typed .real) with
      | some operation => binary (widening · type) operation
      | none => throw ⟨left.span, .noArithmetic op⟩
    match level with
    | .additive => do
      let type ← typeOf types e
      if type = .typed .text then binary toText .sconcat else arithmetic type
    | .multiplicative => do
      let type ← typeOf types e
      if op = .mod then binary (widening · (.typed .integer)) .imod else arithmetic type
    | .relational | .equality => do
      let l ← typeOf types left
      let r ← typeOf types right
      match compare? op l r with
      | some (common, operation) => binary (widening · common) operation
      | none => throw ⟨info.span, .cannotCompare l r⟩
    | .conjunction => binary (widening · (.typed .boolean)) .and
    | .disjunction => binary (widening · (.typed .boolean)) .or

def statement (types : TypeMap) (s : Statement) : Gen (List Instruction) := do
  let is ← expression types s.value
  let type ← typeOf types s.value
  return is ++ printing type

def statements (types : TypeMap) : List Statement → Gen (List Instruction)
  | [] => pure []
  | s :: rest => do
    let is ← statement types s
    let more ← statements types rest
    return is ++ more

end Codegen

def Program.generate (p : Program) (types : TypeMap) : Except CodegenError Bytecode := do
  let (code, constants) ← (Codegen.statements types p.statements).run []
  return { constants, code := code ++ [.of .halt] }

end Tuga
