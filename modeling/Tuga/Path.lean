import Tuga.Text.Basic

namespace Tuga.Path

def slash : UInt8 := 47

def isAbsolute (path : Text) : Bool := path.head? = some slash

-- One more part after the parts so far, the latest first. Going up removes the latest part; above
-- the root there is nothing, and above the start of a relative path the step stays.
def step (rooted : Bool) (parts : List Text) (part : Text) : List Text :=
  if part.isEmpty || part = [46] then parts
  else if part = [46, 46] then
    match parts with
    | [] => if rooted then [] else [part]
    | last :: rest => if last = [46, 46] then part :: parts else rest
  else part :: parts

def clean (path : Text) : Text :=
  let rooted := isAbsolute path
  let parts := ((path.splitOn slash).foldl (step rooted) []).reverse
  let joined := Text.join [slash] parts
  if rooted then slash :: joined else if joined.isEmpty then [46] else joined

-- A path inside a directory, cleaned. Empty operands count for nothing.
def join (dir path : Text) : Text :=
  if dir.isEmpty then if path.isEmpty then [] else clean path
  else clean (dir ++ slash :: path)

def parent (path : Text) : Text :=
  clean (path.reverse.dropWhile (· ≠ slash)).reverse

def absolute (cwd path : Text) : Text :=
  if isAbsolute path then clean path else join cwd path

def parts (path : Text) : List Text :=
  (path.splitOn slash).filter (!·.isEmpty)

def ancestors (path : Text) : List Text :=
  let parts := parts path
  (List.range (parts.length + 1)).map fun n =>
    slash :: Text.join [slash] (parts.take (parts.length - n))

end Tuga.Path
