import Tuga.Json.Parser
import Tuga.Json.Printer
import Tuga.Server.Encoding

namespace Tuga.Server

def envelope (members : List (Text × JsonValue)) : JsonValue :=
  .object (("jsonrpc", .ofText "2.0") :: members)

def Publication.envelope (p : Publication) : JsonValue :=
  Server.envelope [("method", .ofText Publication.method), ("params", p.toJson)]

def Outcome.refusal? (method : Text) : Outcome → Option (Int × Text)
  | unconnected => some (-32600, "server not initialized")
  | unhandled => some (-32601, ("method not supported: " : Text) ++ method)
  | invalid => some (-32602, "invalid params")
  | answered _ _ => none

def Outcome.reply (method : Text) (id : JsonValue) (o : Outcome) : JsonValue :=
  match o.refusal? method, o with
  | some (code, message), _ =>
    envelope
      [("id", id), ("error", .object [("code", .number code 0), ("message", .ofText message)])]
  | none, .answered answer _ => envelope [("id", id), ("result", answer.toJson)]
  | none, _ => envelope [("id", id), ("result", .null)]

-- The messages that an outcome sends: publications, then a reply if the client asked for one by
-- giving a number.
def Outcome.messages (method : Text) (id : JsonValue) (o : Outcome) : List JsonValue :=
  let published :=
    match o with
    | answered _ publications => publications.map Publication.envelope
    | _ => []
  published ++ if id.isNull then [] else [o.reply method id]

-- What a conversation does with a message: the state after it, and what is sent. None ends it.
def State.converse? (s : State) (message : JsonValue) : Option (State × List JsonValue) :=
  let method := (message.member "method").textD
  if method = ("exit" : Text) then none
  else
    let (outcome, s) := s.handle method (message.member "params")
    some (s, outcome.messages method (message.member "id"))

-- A message as it is sent: its length, an empty line, and the message itself.
def frame (message : JsonValue) : Text :=
  let body := message.render
  ("Content-Length: " : Text) ++ Text.ofNat body.length ++ ("\r\n\r\n" : Text) ++ body

def contentLength? (line : Text) : Option Nat :=
  match line.splitOn 58 with
  | [name, value] =>
    let digits := Text.trim (fun b => b = 32 || b = 13 || b = 10) value
    if Text.sameFolded name "content-length" && !digits.isEmpty && digits.all Text.isDigitByte then
      some (Text.toNat digits)
    else none
  | _ => none

end Tuga.Server
