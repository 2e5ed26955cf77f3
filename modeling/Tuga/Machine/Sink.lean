import Tuga.Text.Basic

namespace Tuga

-- A destination of output. `room` is the number of writes it still accepts, if there is a limit.
structure Sink where
  room : Option Nat := none
  deriving DecidableEq, Repr

namespace Sink

def failure : Text := "disk full"

def write? (sink : Sink) : Option Sink :=
  match sink.room with
  | none => some sink
  | some 0 => none
  | some (n + 1) => some ⟨some n⟩

-- Writes texts one by one until the sink is full. Gives what was written and whether all was.
def writeAll (sink : Sink) : List Text → Text × Bool
  | [] => ([], true)
  | t :: rest =>
    match sink.write? with
    | none => ([], false)
    | some sink =>
      let (written, ok) := sink.writeAll rest
      (t ++ written, ok)

end Sink

end Tuga
