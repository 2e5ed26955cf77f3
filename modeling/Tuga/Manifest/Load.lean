import Tuga.Files.Basic
import Tuga.Manifest

namespace Tuga

inductive LoadError where
  | unreadable (path : Text) (error : FileError)
  | invalid (path : Text) (error : ManifestError)
  deriving DecidableEq, Repr

def LoadError.message : LoadError → Text
  | unreadable path error => ("cannot read " : Text) ++ path ++ (": " : Text) ++ error.message
  | invalid path error => ("parse error in " : Text) ++ path ++ (": " : Text) ++ error.message

namespace Manifest

variable {m : Type → Type} [Monad m]

-- Loads the settings in a directory, given as seen from the working directory.
def load (files : Files m) (cwd dir : Text) : m (Except LoadError Manifest) := do
  let path := Path.join dir fileName
  match ← files.read path with
  | .error e => return .error (.unreadable path e)
  | .ok text =>
    match parse text with
    | .error e => return .error (.invalid path e)
    | .ok settings => return .ok { settings with dir := Path.absolute cwd dir }

def findIn (files : Files m) (cwd : Text) : List Text → m (Except LoadError (Option Manifest))
  | [] => return .ok none
  | dir :: rest => do
    if ← files.isThere (Path.join dir fileName) then
      return (← load files cwd dir).map some
    else findIn files cwd rest

-- Loads the settings in a directory or in the nearest directory above it.
def find (files : Files m) (cwd dir : Text) : m (Except LoadError (Option Manifest)) :=
  findIn files cwd (Path.ancestors (Path.absolute cwd dir))

end Manifest

end Tuga
