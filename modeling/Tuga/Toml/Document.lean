import Tuga.Toml.Parser

namespace Tuga.Toml

inductive Node where
  | value (value : Value)
  | table (entries : List (Text × Node))
  | tables (elements : List (List (Text × Node)))

abbrev Table := List (Text × Node)

namespace Table

def get? (t : Table) (key : Text) : Option Node := t.lookup key

def set (t : Table) (key : Text) (node : Node) : Table :=
  if (t.lookup key).isSome then t.map fun (k, n) => if k = key then (k, node) else (k, n)
  else t ++ [(key, node)]

-- Changes the table at a path. Of an array of tables the last one is meant.
def updateAt (change : Table → Option Table) : Path → Table → Option Table
  | [], t => change t
  | key :: rest, t => do
    match ← t.get? key with
    | .table entries => return t.set key (.table (← updateAt change rest entries))
    | .tables elements =>
      let last ← elements.getLast?
      return t.set key (.tables (elements.dropLast ++ [← updateAt change rest last]))
    | .value _ => none

def at? : Path → Table → Option Table
  | [], t => some t
  | key :: rest, t => do
    match ← t.get? key with
    | .table entries => at? rest entries
    | .tables elements => at? rest (← elements.getLast?)
    | .value _ => none

-- Puts a node at a path, creating the tables on the way. None if the way leads through something
-- that is no table.
def insert? (node : Node) : Path → Table → Option Table
  | [], t => some t
  | [key], t => some (t.set key node)
  | key :: rest, t => do
    let inner ← match t.get? key with
      | none => some []
      | some (.table entries) => some entries
      | some _ => none
    return t.set key (.table (← insert? node rest inner))

end Table

mutual

def Value.node? : Value → Option Node
  | .array items => do
    Value.allNodes items
    return .value (.array items)
  | .inline entries => do
    return .table (← Value.entriesTable? [] entries)
  | v => some (.value v)

def Value.allNodes : List Value → Option Unit
  | [] => some ()
  | item :: rest => do
    let _ ← item.node?
    Value.allNodes rest

def Value.entriesTable? (t : Table) : List (Path × Value) → Option Table
  | [] => some t
  | (path, v) :: rest => do
    let t ← t.insert? (← v.node?) path
    Value.entriesTable? t rest

end

-- What has been assembled so far. `implicit` holds the tables that may be defined once more,
-- `arrays` the keys whose value is an array, and `keys` the defined keys, the latest first.
structure Assembly where
  root : Table := []
  context : Path := []
  implicit : List Path := []
  arrays : List Path := []
  keys : List Path := []

namespace Assembly

def addImplicit (s : Assembly) (path : Path) : Assembly :=
  { s with implicit := path :: s.implicit.filter (· ≠ path) }

def removeImplicit (s : Assembly) (path : Path) : Assembly :=
  { s with implicit := s.implicit.filter (· ≠ path) }

-- Records whether the value at a path is an array. An empty last part stands for its table.
def setKind (s : Assembly) (key : Text) (isArray : Bool) : Assembly :=
  let path := if key.isEmpty then s.context else s.context ++ [key]
  let path := if path.isEmpty then [[]] else path
  let arrays := s.arrays.filter (· ≠ path)
  { s with arrays := if isArray then path :: arrays else arrays }

-- Defines a key in the current table. An implicit table keeps what it holds.
def define (s : Assembly) (key : Text) (node : Node) : Option Assembly := do
  let path := s.context ++ [key]
  let table ← s.root.at? s.context
  let store : Option Assembly := do
    return { s with root := ← s.root.updateAt (fun t => some (t.set key node)) s.context }
  match table.get? key with
  | none => store
  | some _ =>
    if !s.implicit.contains path then none
    else if s.arrays.contains path then (← store).removeImplicit path
    else s.removeImplicit path

def establish (s : Assembly) (done : Path) : Path → Option Assembly
  | [] => some s
  | key :: rest => do
    let table ← s.root.at? done
    let path := done ++ [key]
    match table.get? key with
    | none =>
      let root ← s.root.updateAt (fun t => some (t.set key (.table []))) done
      establish { s.addImplicit path with root } path rest
    | some (.value _) => none
    | some _ => establish s path rest

def pushTable (s : Assembly) (key : Text) : Option Assembly := do
  let change (t : Table) : Option Table :=
    match t.get? key with
    | none => some (t.set key (.tables [[]]))
    | some (.tables elements) => some (t.set key (.tables (elements ++ [[]])))
    | some _ => none
  return { s with root := ← s.root.updateAt change s.context }

def enter (s : Assembly) (path : Path) (asArray : Bool) : Option Assembly := do
  let parent := path.dropLast
  let key := path.getLastD []
  let s ← s.establish [] parent
  let s := { s with context := parent }
  let s ← if asArray then s.pushTable key else s.define key (.table [])
  return { s with context := path }

def enterParts (s : Assembly) : Path → Option Assembly
  | [] => some s
  | key :: rest => do
    let path := s.context ++ [key]
    let s ← (s.addImplicit path).enter path false
    enterParts s rest

end Assembly

-- The entries of the inline tables that values hold define keys too, before the value itself is
-- defined.
mutual

def Assembly.takeValue (s : Assembly) (key : Text) (inArray : Bool) : Value → Option Assembly
  | .array items => do
    let s := s.setKind key true
    s.takeItems key items
  | .inline entries => do
    let outer := s.context
    let path := outer ++ [key]
    let s ← (s.addImplicit path).enter path inArray
    let s ← s.takeEntries path entries
    return { s with context := outer }
  | _ => some s

def Assembly.takeItems (s : Assembly) (key : Text) : List Value → Option Assembly
  | [] => some s
  | item :: rest => do
    let s ← s.takeValue key true item
    s.takeItems key rest

def Assembly.takeEntries (s : Assembly) (context : Path) : List (Path × Value) → Option Assembly
  | [] => some s
  | (path, v) :: rest => do
    let s ← s.enterParts path.dropLast
    let key := path.getLastD []
    let s := { s with keys := (s.context ++ [key]) :: s.keys }
    let s ← s.takeValue key false v
    let s ← s.define key (match v with | .inline _ => .table [] | v => .value v)
    let isArray := match v with | .array _ => true | _ => false
    let s := s.setKind key isArray
    Assembly.takeEntries { s with context } context rest

end

def Assembly.takeItem (s : Assembly) : Item → Option Assembly
  | .table path => do
    let s ← s.enter path false
    let s := s.setKind [] false
    return { s with keys := path :: s.keys }
  | .tableArray path => do
    let s ← s.enter path true
    let s := s.setKind [] false
    return { s with keys := path :: s.keys }
  | .entry path v => do
    let _ ← v.node?
    s.takeEntries s.context [(path, v)]

structure Document where
  root : Table
  keys : List Path

-- The document that a text holds, none if it is malformed or defines something twice. Headers and
-- dotted keys create the tables they pass through; such a table may be opened once more by a header
-- of its own, and everything else may be defined once.
def Document.ofText? (text : Text) : Option Document := do
  let items ← parse text
  let s ← items.foldlM Assembly.takeItem {}
  return ⟨s.root, s.keys.reverse⟩

end Tuga.Toml
