import Tuga.Path
import Tuga.Text.CaseFolding
import Tuga.Text.Quoted
import Tuga.Toml.Document

namespace Tuga

-- The settings of a project. `dir` is the directory that holds them.
structure Manifest where
  name : Text := []
  showLexical : Bool := false
  showParsing : Bool := false
  showTyping : Bool := false
  bytecode : Text := []
  listing : Text := []
  trace : Bool := false
  profile : Bool := false
  verbosity : Int := 0
  logFile : Text := []
  dir : Text := []
  deriving DecidableEq, Repr

inductive ManifestError where
  | malformed
  | unknownKey (path : Toml.Path)
  | negativeVerbosity (value : Int)
  deriving DecidableEq, Repr

-- The wording of an error. A malformed document has no wording of its own.
def ManifestError.message : ManifestError → Text
  | malformed => []
  | unknownKey path => ("unknown key " : Text) ++ Text.quote (Toml.renderPath path)
  | negativeVerbosity value =>
    ("log.verbosity must not be negative, got " : Text) ++ Text.ofInt value

namespace Manifest

def fileName : Text := "tuga.toml"

def defaultBytecode : Text := "bytecodes"

-- A change of the settings by the value of a key, none if the value has the wrong type.
abbrev Setter := Toml.Value → Manifest → Option Manifest

def setText (f : Manifest → Text → Manifest) : Setter
  | .text t, m => some (f m t)
  | _, _ => none

def setBool (f : Manifest → Bool → Manifest) : Setter
  | .boolean b, m => some (f m b)
  | _, _ => none

def setInt (f : Manifest → Int → Manifest) : Setter
  | .integer n, m => some (f m n)
  | _, _ => none

def sections : List (Text × List (Text × Setter)) :=
  [("project", [("name", setText fun m v => { m with name := v })]),
    ("diagnostics",
      [("show-lexer-errors", setBool fun m v => { m with showLexical := v }),
        ("show-parser-errors", setBool fun m v => { m with showParsing := v }),
        ("show-type-errors", setBool fun m v => { m with showTyping := v })]),
    ("output",
      [("bytecode", setText fun m v => { m with bytecode := v }),
        ("listing", setText fun m v => { m with listing := v })]),
    ("vm",
      [("trace", setBool fun m v => { m with trace := v }),
        ("profile", setBool fun m v => { m with profile := v })]),
    ("log",
      [("verbosity", setInt fun m v => { m with verbosity := v }),
        ("file", setText fun m v => { m with logFile := v })])]

def find? {α : Type} (table : List (Text × α)) (key : Text) : Option α :=
  ((table.find? (·.1 = key)).or (table.find? fun e => Text.sameFolded e.1 key)).map (·.2)

def applySection (keys : List (Text × Setter)) (name : Text) :
    Toml.Table → Manifest × List Toml.Path → Option (Manifest × List Toml.Path)
  | [], s => some s
  | (key, node) :: rest, (m, known) =>
    match find? keys key, node with
    | none, _ => applySection keys name rest (m, known)
    | some setter, .value v => do
      let m ← setter v m
      applySection keys name rest (m, [name, key] :: known)
    | some _, _ => none

def apply : Toml.Table → Manifest × List Toml.Path → Option (Manifest × List Toml.Path)
  | [], s => some s
  | (key, node) :: rest, (m, known) =>
    match find? sections key, node with
    | none, _ => apply rest (m, known)
    | some keys, .table entries => do
      let s ← applySection keys key entries (m, [key] :: known)
      apply rest s
    | some _, _ => none

def withDefaults (m : Manifest) : Manifest :=
  if m.bytecode.isEmpty then { m with bytecode := defaultBytecode } else m

def default : Manifest := withDefaults {}

-- The settings that a document holds. Every key must be one of the settings above; keys match
-- exactly or, failing that, without regard to case.
def parse (text : Text) : Except ManifestError Manifest :=
  match Toml.Document.ofText? text with
  | none => .error .malformed
  | some document =>
    match apply document.root ({}, []) with
    | none => .error .malformed
    | some (m, known) =>
      match document.keys.find? fun path => !known.contains path with
      | some path => .error (.unknownKey path)
      | none =>
        if m.verbosity < 0 then .error (.negativeVerbosity m.verbosity) else .ok m.withDefaults

def resolve (m : Manifest) (path : Text) : Text :=
  if path.isEmpty || Path.isAbsolute path || m.dir.isEmpty then path else Path.join m.dir path

def bytecodePath (m : Manifest) : Text := m.resolve m.bytecode

def listingPath (m : Manifest) : Text := m.resolve m.listing

def logPath? (m : Manifest) : Option Text :=
  if m.logFile.isEmpty then none else some (m.resolve m.logFile)

end Manifest

end Tuga
