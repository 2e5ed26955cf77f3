import Tuga.Files.Basic

namespace Tuga

-- Files and directories by their absolute path, given as the list of its parts. The root is a
-- directory without parts. A sink is a file that stays empty whatever is written to it.
structure FileTree where
  files : List (List Text × Text) := []
  dirs : List (List Text) := [[]]
  sinks : List (List Text) := []

namespace FileTree

inductive Found where
  | file (content : Text)
  | directory
  | nothing
  deriving DecidableEq, Repr

def look (t : FileTree) (place : List Text) : Found :=
  match t.files.lookup place with
  | some content => .file content
  | none =>
    if t.dirs.contains place then .directory
    else if t.sinks.contains place then .file []
    else .nothing

def maxName : Nat := 255

def maxPath : Nat := 4095

-- Follows the parts of a path from a place on. Every part but the last must lead to a directory;
-- the last one may be missing.
def walk (t : FileTree) (place : List Text) : List Text → Except FileCause (List Text)
  | [] => .ok place
  | part :: rest =>
    match t.look place with
    | .file _ => .error .notDirectory
    | .nothing => .error .notFound
    | .directory =>
      if part.isEmpty || part = [46] then t.walk place rest
      else if part = [46, 46] then t.walk place.dropLast rest
      else if maxName < part.length then .error .nameTooLong
      else t.walk (place ++ [part]) rest

def place (t : FileTree) (cwd path : Text) : Except FileCause (List Text) :=
  let full := if Path.isAbsolute path then path else cwd ++ Path.slash :: path
  if path.any (· = 0) then .error .invalid
  else if maxPath < path.length then .error .nameTooLong
  else t.walk [] (full.splitOn Path.slash)

def read (t : FileTree) (cwd path : Text) : Except FileError Text :=
  match t.place cwd path with
  | .error cause => .error ⟨.opening, path, cause⟩
  | .ok place =>
    match t.look place with
    | .file content => .ok content
    | .directory => .error ⟨.reading, path, .isDirectory⟩
    | .nothing => .error ⟨.opening, path, .notFound⟩

def isThere (t : FileTree) (cwd path : Text) : Bool :=
  match t.place cwd path with
  | .ok place => t.look place ≠ .nothing
  | .error _ => false

def put (t : FileTree) (place : List Text) (content : Text) : FileTree :=
  { t with files := (place, content) :: t.files.filter (·.1 ≠ place) }

-- Writes a whole file. The directory that holds it must be there, and a slash at the end of the
-- path would make the file one.
def write (t : FileTree) (cwd path content : Text) : Except FileError FileTree :=
  let name := (path.reverse.dropWhile (· = Path.slash)).reverse
  match t.place cwd (if name.isEmpty then path else name) with
  | .error cause => .error ⟨.opening, path, cause⟩
  | .ok place =>
    match t.look place with
    | .directory => .error ⟨.opening, path, .isDirectory⟩
    | _ =>
      if name ≠ path then .error ⟨.opening, path, .isDirectory⟩
      else .ok (if t.sinks.contains place then t else t.put place content)

def create (t : FileTree) (cwd path : Text) : Except FileError FileTree :=
  match t.read cwd path with
  | .ok _ => .ok t
  | .error _ => t.write cwd path []

def makeDir (t : FileTree) (place : List Text) : FileTree :=
  let ways := (List.range (place.length + 1)).map fun n => place.take n
  { t with dirs := ways.filter (fun d => !t.dirs.contains d) ++ t.dirs }

def makeFile (t : FileTree) (place : List Text) (content : Text) : FileTree :=
  (t.makeDir place.dropLast).put place content

end FileTree

def FileTree.operations (cwd : Text) : Files (StateM FileTree) where
  read path := do return (← get).read cwd path
  write path content := do
    match (← get).write cwd path content with
    | .ok t =>
      set t
      return .ok ()
    | .error e => return .error e
  create path := do
    match (← get).create cwd path with
    | .ok t =>
      set t
      return .ok ()
    | .error e => return .error e
  isThere path := do return (← get).isThere cwd path

end Tuga
