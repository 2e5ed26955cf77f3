import Tuga.Codegen
import Tuga.Tree.Parser
import Tuga.Typing.Check

namespace Tuga

inductive Stage where
  | lexical
  | parsing
  | typing
  | generation
  deriving DecidableEq, Repr

def Stage.name : Stage → Text
  | lexical => "lexical"
  | parsing => "syntax"
  | typing => "type"
  | generation => "codegen"

def Stage.all : List Stage := [lexical, parsing, typing, generation]

inductive Rejection where
  | lexical (errors : List LexicalError)
  | parsing (errors : List SyntaxError)
  | typing (errors : List TypeError)
  | generation (error : CodegenError)
  deriving Repr

namespace Rejection

def stage : Rejection → Stage
  | lexical _ => .lexical
  | parsing _ => .parsing
  | typing _ => .typing
  | generation _ => .generation

def message : Rejection → Text
  | lexical _ => "Input has lexical errors"
  | parsing _ => "Input has parsing errors"
  | typing _ => "Input has type checking errors"
  | generation error => ("code generation failed: " : Text) ++ error.message

def diagnostics : Rejection → List Diagnostic
  | lexical errors => errors.map LexicalError.diagnostic
  | parsing errors => errors.map SyntaxError.diagnostic
  | typing errors => errors.map TypeError.diagnostic
  | generation error => [⟨error.span, error.cause.message⟩]

end Rejection

structure Detail where
  lexical : Bool := false
  parsing : Bool := false
  typing : Bool := false

def Text.lines (texts : List Text) : Text :=
  texts.flatMap fun t => t ++ [10]

-- What a rejection shows under the given choice of stages. Code generation shows nothing.
def Rejection.shown (detail : Detail) : Rejection → Text
  | lexical errors =>
    if detail.lexical then Text.lines (errors.map fun e => e.diagnostic.render) else []
  | parsing errors =>
    if detail.parsing then Text.lines (errors.map fun e => e.diagnostic.render) else []
  | typing errors => if detail.typing then Text.lines (errors.map TypeError.render) else []
  | generation _ => []

structure Compilation where
  tree : Program
  types : Option TypeMap := none
  bytecode : Option Bytecode := none
  rejection : Option Rejection := none

-- Writes the errors of a stage, one per line, if the stage shows them.
def showErrors (shows : Bool) (errors : List Text) : StateM Text Unit :=
  if shows then modify (· ++ Text.lines errors) else pure ()

-- Reads and checks a source, without code generation. The output takes what the stages show.
def checkShowing (detail : Detail) (source : Text) : StateM Text Compilation := do
  let (tree, reader) := Program.parse source
  if !reader.lexicalErrors.isEmpty then
    showErrors detail.lexical (reader.lexicalErrors.map fun e => e.diagnostic.render)
    return { tree, rejection := some (.lexical reader.lexicalErrors) }
  else if !reader.syntactic.isEmpty then
    showErrors detail.parsing (reader.syntactic.map fun e => e.diagnostic.render)
    return { tree, rejection := some (.parsing reader.syntactic) }
  else
    let typing := tree.check
    -- type errors are shown while checking goes on
    showErrors detail.typing (typing.errors.map TypeError.render)
    if !typing.errors.isEmpty then
      return { tree, types := some typing.types, rejection := some (.typing typing.errors) }
    else return { tree, types := some typing.types }

def Compilation.generate (checked : Compilation) : Compilation :=
  match checked.rejection, checked.types with
  | none, some types =>
    match checked.tree.generate types with
    | .ok bytecode => { checked with bytecode := some bytecode }
    | .error e => { checked with rejection := some (.generation e) }
  | _, _ => checked

-- Reads, checks and compiles a source. A stage runs only if the one before it found nothing wrong,
-- so a source is rejected by the first stage that objects to it. Code generation shows nothing.
def compileShowing (detail : Detail) (source : Text) : StateM Text Compilation := do
  return (← checkShowing detail source).generate

def check (source : Text) : Compilation :=
  (Id.run ((checkShowing {} source).run [])).1

def compile (source : Text) : Compilation :=
  (Id.run ((compileShowing {} source).run [])).1

def Compilation.shown (c : Compilation) (detail : Detail) : Text :=
  (c.rejection.map (·.shown detail)).getD []

end Tuga
