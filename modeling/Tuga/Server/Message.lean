import Tuga.Document.Position
import Tuga.Server.Client

namespace Tuga.Server

inductive Method where
  | connect
  | connected
  | shutdown
  | setTrace
  | didOpen
  | didChange
  | didClose
  | completion
  | hover
  deriving DecidableEq, Repr

namespace Method

def name : Method → Text
  | connect => "initialize"
  | connected => "initialized"
  | shutdown => "shutdown"
  | setTrace => "$/setTrace"
  | didOpen => "textDocument/didOpen"
  | didChange => "textDocument/didChange"
  | didClose => "textDocument/didClose"
  | completion => "textDocument/completion"
  | hover => "textDocument/hover"

def all : List Method :=
  [connect, connected, shutdown, setTrace, didOpen, didChange, didClose, completion, hover]

def ofName? (name : Text) : Option Method :=
  all.find? (·.name = name)

end Method

def positionShape : Shape := .record [("line", .unsigned), ("character", .unsigned)]

def rangeShape : Shape := .record [("start", positionShape), ("end", positionShape)]

def identifierShape : Shape := .record [("uri", .text)]

def tokenShape : Shape := .either .signed .text

def placeFields : List (Text × Shape) :=
  [("textDocument", identifierShape), ("position", positionShape), ("workDoneToken", tokenShape)]

def Method.shape : Method → Shape
  | connect =>
    .record
      [("workDoneToken", tokenShape), ("processId", .signed),
        ("clientInfo", .record [("name", .text), ("version", .text)]), ("locale", .text),
        ("rootPath", .text), ("rootUri", .text), ("initializationOptions", .any),
        ("capabilities", Client.capabilities), ("trace", .text),
        ("workspaceFolders", .list (.record [("uri", .text), ("name", .text)]))]
  | connected => .record []
  | shutdown => .skipped
  | setTrace => .record [("value", .text)]
  | didOpen =>
    .record
      [("textDocument",
        .record [("uri", .text), ("languageId", .text), ("version", .signed), ("text", .text)])]
  | didChange =>
    .record
      [("textDocument", .record [("uri", .text), ("version", .signed)]),
        ("contentChanges",
          .list
            (.late
              (.record
                [("range", .optional rangeShape), ("rangeLength", .unsigned), ("text", .text)])))]
  | didClose => .record [("textDocument", identifierShape)]
  | completion =>
    .record
      (("partialResultToken", tokenShape) ::
        ("context", .record [("triggerKind", .signed), ("triggerCharacter", .text)]) ::
        placeFields)
  | hover => .record placeFields

-- A change of a document: its whole text anew, or an edit of a part, which the server does not
-- take.
inductive Change where
  | whole (text : Text)
  | edit
  deriving DecidableEq, Repr

inductive Message where
  | connect
  | connected
  | shutdown
  | setTrace
  | opened (uri text : Text)
  | changed (uri : Text) (changes : List Change)
  | closed (uri : Text)
  | completion (uri : Text) (position : DocumentPosition)
  | hover (uri : Text) (position : DocumentPosition)
  deriving DecidableEq, Repr

def uriOf (params : JsonValue) : Text :=
  ((params.member "textDocument").member "uri").textD

def positionOf (params : JsonValue) : DocumentPosition :=
  let position := params.member "position"
  ⟨(position.member "line").natD, (position.member "character").natD⟩

-- A change with a range is an edit of that range.
def changeOf (event : JsonValue) : Change :=
  if (event.member "range").isNull then .whole (event.member "text").textD else .edit

-- The message that a method and its parameters make, none if the parameters have the wrong
-- shape.
def Message.ofParams? (method : Method) (params : JsonValue) : Option Message :=
  (method.shape.read? .null params).map fun params =>
    match method with
    | .connect => .connect
    | .connected => .connected
    | .shutdown => .shutdown
    | .setTrace => .setTrace
    | .didOpen => .opened (uriOf params) ((params.member "textDocument").member "text").textD
    | .didChange => .changed (uriOf params) ((params.member "contentChanges").items.map changeOf)
    | .didClose => .closed (uriOf params)
    | .completion => .completion (uriOf params) (positionOf params)
    | .hover => .hover (uriOf params) (positionOf params)

end Tuga.Server
