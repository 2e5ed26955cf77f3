import Tuga.Real.Rounding
import Tuga.Source.Position
import Tuga.Token.Lexer
import Tuga.Tree.Builder

namespace Tuga

inductive SyntaxCause where
  | expected (kind : Token.Kind) (found : Token)
  | expectedExpression (found : Token)
  | integerOutOfRange (literal : Text)
  | afterExpression (found : Token)
  deriving DecidableEq, Repr

def SyntaxCause.message : SyntaxCause → Text
  | expected kind found => ("expected " : Text) ++ kind.name ++ (", got " : Text) ++ found.describe
  | expectedExpression found =>
    ("unexpected " : Text) ++ found.describe ++ (", expected an expression" : Text)
  | integerOutOfRange literal =>
    ("integer literal " : Text) ++ literal ++ (" out of range" : Text)
  | afterExpression found =>
    ("unexpected " : Text) ++ found.describe ++ (" after expression" : Text)

structure SyntaxError where
  cause : SyntaxCause
  span : Span
  deriving DecidableEq, Repr

def SyntaxError.diagnostic (e : SyntaxError) : Diagnostic :=
  ⟨e.span, e.cause.message⟩

def LexicalError.diagnostic (e : LexicalError) : Diagnostic :=
  ⟨e.span, e.cause.message⟩

namespace Parser

-- What is left to read: the tokens without the end of input, the end of input, and the builder
-- that numbers the nodes.
structure State where
  tokens : List Token
  finish : Token
  builder : TreeBuilder

-- A reader of one construct. A failure keeps the tokens and numbers that were used up.
abbrev Parse := EStateM SyntaxError State

def State.current (s : State) : Token :=
  s.tokens.headD s.finish

def current : Parse Token := do
  return (← get).current

def advance : Parse Unit :=
  modify fun s => { s with tokens := s.tokens.tail }

def fail {α : Type} (cause : SyntaxCause) : Parse α := do
  throw ⟨cause, (← current).span⟩

def expect (kind : Token.Kind) : Parse Unit := do
  let token ← current
  if token.kind = kind then advance else fail (.expected kind token)

def build {α : Type} (span : Span) (make : NodeInfo → α) : Parse α :=
  modifyGet fun s =>
    let (node, builder) := s.builder.node span make
    (node, { s with builder })

def maxInteger : Nat := 0x7FFFFFFFFFFFFFFF

def realValue (literal : Text) : Real64 :=
  let whole := literal.takeWhile (· ≠ 46)
  let fraction := (literal.dropWhile (· ≠ 46)).drop 1
  Real64.ofDecimal (Text.toNat (whole ++ fraction)) (-(fraction.length : Int))

def primary (inner : Parse Expr) : Parse Expr := do
  let token ← current
  match token.kind with
  | .integer =>
    let value := Text.toNat token.literal
    if maxInteger < value then fail (.integerOutOfRange token.literal)
    else
      advance
      build token.span (Expr.int · value)
  | .real =>
    advance
    build token.span (Expr.real · (realValue token.literal))
  | .text =>
    advance
    build token.span (Expr.text · token.literal)
  | .keyword .verdadeiro =>
    advance
    build token.span (Expr.bool · true)
  | .keyword .falso =>
    advance
    build token.span (Expr.bool · false)
  | .symbol .leftParen =>
    advance
    let e ← inner
    let stop := (← current).span.stop
    expect (.symbol .rightParen)
    build ⟨token.span.start, stop⟩ (Expr.paren · e)
  | _ => fail (.expectedExpression token)

-- Extends `left` by the operators of a level and their operands, as long as one follows. Every
-- step takes a token, so as many steps as there are tokens suffice.
def chainFrom (operand : Parse Expr) (level : Level) : Nat → Expr → Parse Expr
  | 0, left => pure left
  | steps + 1, left => do
    match level.operator? (← current).kind with
    | none => pure left
    | some op =>
      advance
      let right ← operand
      let e ← build ⟨left.span.start, right.span.stop⟩ (Expr.binary · level op left right)
      chainFrom operand level steps e

def chain (operand : Parse Expr) (level : Level) : Parse Expr := do
  let left ← operand
  chainFrom operand level (← get).tokens.length left

def levels (operand : Parse Expr) : Parse Expr :=
  Level.all.foldl chain operand

def operand : Nat → Parse Expr
  | 0 => do fail (.expectedExpression (← current))
  | depth + 1 => do
    let token ← current
    match token.kind with
    | .symbol .minus =>
      advance
      let e ← operand depth
      build ⟨token.span.start, e.span.stop⟩ (Expr.neg · e)
    | .keyword .nao =>
      advance
      let e ← operand depth
      build ⟨token.span.start, e.span.stop⟩ (Expr.not · e)
    | _ => primary (levels (operand depth))

-- An expression. Each level of nesting takes a token, so the number of tokens bounds the depth.
def expression : Parse Expr := do
  levels (operand ((← get).tokens.length + 1))

def statement : Parse Statement := do
  let start := (← current).span.start
  expect (.keyword .escreve)
  let value ← expression
  let stop := (← current).span.stop
  expect (.symbol .semicolon)
  build ⟨start, stop⟩ (Statement.mk · value)

-- Where reading goes on after an error: past the next semicolon or at the next `escreve`.
def resume : List Token → List Token
  | [] => []
  | t :: rest =>
    if t.kind = .keyword .escreve then t :: rest
    else if t.kind = .symbol .semicolon then rest
    else resume rest

-- The statements up to the end of input and the errors met on the way. Every round takes a
-- token, so as many rounds as there are tokens suffice.
def statements : Nat → State → List Statement × List SyntaxError × State
  | 0, s => ([], [], s)
  | rounds + 1, s =>
    if s.tokens.isEmpty then ([], [], s)
    else
      match statement s with
      | .ok stmt s =>
        let (stmts, errors, s) := statements rounds s
        (stmt :: stmts, errors, s)
      | .error e s =>
        let (stmts, errors, s) := statements rounds { s with tokens := resume s.tokens }
        (stmts, e :: errors, s)

-- A whole program from the current token on. An empty one is an error, yet gives a tree.
def program (s : State) : Program × List SyntaxError × State :=
  let start := s.current.span.start
  let empty : List SyntaxError :=
    if s.tokens.isEmpty then [⟨.expected (.keyword .escreve) s.finish, s.finish.span⟩] else []
  let (stmts, errors, s) := statements s.tokens.length s
  let (tree, builder) := s.builder.program ⟨start, s.finish.span.stop⟩ stmts
  (tree, empty ++ errors, { s with builder })

def fragment (s : State) : Option Expr × List SyntaxError × State :=
  match expression s with
  | .ok e s =>
    if s.tokens.isEmpty then (some e, [], s)
    else (some e, [⟨.afterExpression s.current, s.current.span⟩], s)
  | .error e s => (none, [e], s)

end Parser

structure Parser where
  state : Parser.State
  lexical : List LexicalError
  syntactic : List SyntaxError

namespace Parser

def ofSource (source : Text) : Parser :=
  let lexemes := Lexer.lexemes source
  { state := ⟨Lexer.tokens lexemes, Lexer.endToken source, {}⟩
    lexical := Lexer.errors lexemes
    syntactic := [] }

def readProgram (p : Parser) : Program × Parser :=
  let (tree, errors, state) := program p.state
  (tree, { p with state, syntactic := p.syntactic ++ errors })

def readExpression (p : Parser) : Option Expr × Parser :=
  let (tree, errors, state) := fragment p.state
  (tree, { p with state, syntactic := p.syntactic ++ errors })

-- The lexical errors met so far: reading looks one token ahead of the current one.
def lexicalErrors (p : Parser) : List LexicalError :=
  match p.state.tokens with
  | _ :: ahead :: _ => p.lexical.filter (·.span.start.offset < ahead.span.start.offset)
  | _ => p.lexical

def diagnostics (p : Parser) : List Diagnostic :=
  p.lexicalErrors.map LexicalError.diagnostic ++ p.syntactic.map SyntaxError.diagnostic

end Parser

-- A source read as a program, and the reader afterwards. Each failure is recorded once, at the
-- token where reading stopped, and reading goes on after the next semicolon or at the next
-- `escreve`.
def Program.parse (source : Text) : Program × Parser :=
  (Parser.ofSource source).readProgram

end Tuga
