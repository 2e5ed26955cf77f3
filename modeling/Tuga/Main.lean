import Tuga.Command.Run
import Tuga.Server.Session

namespace Tuga.Main

def ofBytes (bytes : ByteArray) : Text := bytes.toList

def toBytes (text : Text) : ByteArray := ⟨text.toArray⟩

def pathString (path : Text) : String := (String.fromUTF8? (toBytes path)).getD ""

def cause : IO.Error → FileCause
  | .noFileOrDirectory _ _ _ => .notFound
  | .inappropriateType _ _ details =>
    if details.toLower = "is a directory" then .isDirectory else .notDirectory
  | e => .other (Text.ofString (toString e))

-- The files of the operating system. A directory can be opened, but not read.
def files : Files IO where
  read path := do
    match ← (IO.FS.readBinFile (pathString path)).toBaseIO with
    | .ok bytes => return .ok (ofBytes bytes)
    | .error e =>
      let action := if cause e = .isDirectory then .reading else .opening
      return .error ⟨action, path, cause e⟩
  write path content := do
    match ← (IO.FS.writeBinFile (pathString path) (toBytes content)).toBaseIO with
    | .ok () => return .ok ()
    | .error e => return .error ⟨.opening, path, cause e⟩
  create path := do
    match ← (IO.FS.Handle.mk (pathString path) .append).toBaseIO with
    | .ok _ => return .ok ()
    | .error e => return .error ⟨.opening, path, cause e⟩
  isThere path := do
    match ← (IO.FS.Handle.mk (pathString path) .read).toBaseIO with
    | .ok _ => return true
    | .error _ => return false

-- Reads up to a number of bytes, fewer only at the end of the input.
partial def readBytes (input : IO.FS.Stream) (count : Nat) (taken : Text) : IO Text := do
  if count = 0 then return taken
  let more ← input.read (USize.ofNat (min count 65536))
  if more.isEmpty then return taken
  readBytes input (count - more.size) (taken ++ ofBytes more)

partial def readAll (input : IO.FS.Stream) (taken : Text) : IO Text := do
  let more ← readBytes input 65536 []
  if more.isEmpty then return taken
  readAll input (taken ++ more)

-- Reads header lines up to an empty one and gives the length they announce. None at the end of
-- the input.
partial def readHeader (input : IO.FS.Stream) (length : Nat) : IO (Option Nat) := do
  let line ← input.getLine
  if line.isEmpty then return none
  if line = "\n" || line = "\r\n" then return some length
  readHeader input ((Server.contentLength? (Text.ofString line)).getD length)

-- Serves a client until it leaves. What is not a message is skipped.
partial def serve (input output : IO.FS.Stream) (state : Server.State) : IO Unit := do
  match ← readHeader input 0 with
  | none => return
  | some length =>
    let body ← readBytes input length []
    match JsonValue.parse? body with
    | none => serve input output state
    | some message =>
      match state.converse? message with
      | none => return
      | some (state, replies) =>
        output.write (toBytes (replies.flatMap Server.frame))
        output.flush
        serve input output state

end Tuga.Main

def main (arguments : List String) : IO UInt32 := do
  let input ← IO.getStdin
  let output ← IO.getStdout
  let cwd := Tuga.Text.ofString (← IO.currentDir).toString
  let result ←
    Tuga.Command.run Tuga.Main.files (Tuga.Main.readAll input [])
      ⟨arguments.map Tuga.Text.ofString, cwd⟩
  output.write (Tuga.Main.toBytes result.stdout)
  output.flush
  (← IO.getStderr).write (Tuga.Main.toBytes result.stderr)
  if result.serve then Tuga.Main.serve input output {}
  return UInt32.ofNat result.code
