import Tuga.Document.Features
import Tuga.Server.Message

namespace Tuga.Server

-- The server between two messages. A client is connected from its first handshake until it shuts
-- the server down. Documents are kept in the order of their identifiers.
structure State where
  connected : Bool := false
  documents : List (Text × Text) := []
  deriving DecidableEq, Repr

namespace State

def document? (s : State) (uri : Text) : Option Text :=
  s.documents.lookup uri

def put (s : State) (uri text : Text) : State :=
  let before := s.documents.filter fun d => Text.lt d.1 uri
  let after := s.documents.filter fun d => Text.lt uri d.1
  { s with documents := before ++ (uri, text) :: after }

def erase (s : State) (uri : Text) : State :=
  { s with documents := s.documents.filter fun d => d.1 ≠ uri }

end State

inductive Answer where
  | nothing
  | capabilities
  | completions (words : List Keyword)
  | hover (hover : Option Hover)
  deriving DecidableEq, Repr

structure Publication where
  uri : Text
  problems : List Problem
  deriving DecidableEq, Repr

-- How the server deals with a message: it refuses everything else before the handshake, leaves
-- methods it does not know alone, rejects malformed parameters, and answers the rest.
inductive Outcome where
  | unconnected
  | unhandled
  | invalid
  | answered (answer : Answer) (publications : List Publication)
  deriving DecidableEq, Repr

def publication (uri text : Text) : Publication := ⟨uri, Document.problems text⟩

-- What a message does to the server, and what the client gets back. Only the last change of a
-- list counts, because every change that counts brings the whole text.
def State.receive (s : State) : Message → Answer × List Publication × State
  | .connect => (.capabilities, [], { s with connected := true })
  | .connected => (.nothing, [], s)
  | .shutdown => (.nothing, [], {})
  | .setTrace => (.nothing, [], s)
  | .opened uri text => (.nothing, [publication uri text], s.put uri text)
  | .changed uri changes =>
    match changes.getLast? with
    | some (.whole text) => (.nothing, [publication uri text], s.put uri text)
    | _ => (.nothing, [], s)
  | .closed uri => (.nothing, [⟨uri, []⟩], s.erase uri)
  | .completion uri position =>
    match s.document? uri with
    | some text => (.completions (Document.completions text position), [], s)
    | none => (.nothing, [], s)
  | .hover uri position =>
    match s.document? uri with
    | some text => (.hover (Document.hover? text position), [], s)
    | none => (.nothing, [], s)

def State.handle (s : State) (method : Text) (params : JsonValue) : Outcome × State :=
  if !s.connected && method ≠ Method.connect.name then (.unconnected, s)
  else
    match Method.ofName? method with
    | none => (.unhandled, s)
    | some m =>
      match Message.ofParams? m params with
      | none => (.invalid, s)
      | some message =>
        let (answer, publications, s) := s.receive message
        (.answered answer publications, s)

end Tuga.Server
