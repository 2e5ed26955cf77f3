import Tuga.Compile
import Tuga.Document.Position
import Tuga.Text.DecimalDigit

namespace Tuga

structure Problem where
  range : DocumentRange
  stage : Stage
  message : Text
  deriving DecidableEq, Repr

structure Hover where
  range : DocumentRange
  type : NodeType
  deriving DecidableEq, Repr

namespace Document

-- What the first stage that objects to a document objects to. A span without an end covers its
-- start only.
def problems (document : Text) : List Problem :=
  match (compile document).rejection with
  | none => []
  | some rejection =>
    rejection.diagnostics.map fun d =>
      let stop := if d.span.stop.line = 0 then d.span.start else d.span.stop
      ⟨.ofSpan document ⟨d.span.start, stop⟩, rejection.stage, d.message⟩

-- The type of the innermost expression at a place. Types are known once a document has neither
-- lexical nor syntax errors.
def hover? (document : Text) (p : DocumentPosition) : Option Hover := do
  let compilation := compile document
  let types ← compilation.types
  let offset ← p.offset? document
  let expr ← compilation.tree.exprAt? offset
  let type := types.of expr.id
  if type = .missing then none else some ⟨.ofSpan document expr.span, type⟩

def isWordCode (code : Nat) : Bool :=
  Text.isLetter code || Text.isDecimalDigit code || code = 95

def wordBefore (document : Text) (p : DocumentPosition) : Text :=
  let before := (p.before? document).getD []
  Text.ofCharacters (before.reverse.takeWhile fun c => isWordCode c.code).reverse

-- The reserved words that go on from the word before a place, in alphabetical order.
def completions (document : Text) (p : DocumentPosition) : List Keyword :=
  let word := wordBefore document p
  if word.isEmpty then []
  else Keyword.all.filter fun k => word.isPrefixOf k.word && k.word ≠ word

end Document

end Tuga
