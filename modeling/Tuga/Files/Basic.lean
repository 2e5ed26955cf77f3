import Tuga.Path

namespace Tuga

inductive FileCause where
  | notFound
  | isDirectory
  | notDirectory
  | nameTooLong
  | invalid
  | other (message : Text)
  deriving DecidableEq, Repr

def FileCause.message : FileCause → Text
  | notFound => "no such file or directory"
  | isDirectory => "is a directory"
  | notDirectory => "not a directory"
  | nameTooLong => "file name too long"
  | invalid => "invalid argument"
  | other message => message

inductive FileAction where
  | opening
  | reading
  deriving DecidableEq, Repr

structure FileError where
  action : FileAction
  path : Text
  cause : FileCause
  deriving DecidableEq, Repr

def FileError.message (e : FileError) : Text :=
  let action : Text := match e.action with
    | .opening => "open "
    | .reading => "read "
  action ++ e.path ++ (": " : Text) ++ e.cause.message

-- The operations of a file system, in a monad that holds its state. `create` makes an empty file
-- unless there is one already.
structure Files (m : Type → Type) where
  read : Text → m (Except FileError Text)
  write : Text → Text → m (Except FileError Unit)
  create : Text → m (Except FileError Unit)
  isThere : Text → m Bool

end Tuga
