import Tuga.Server.State

namespace Tuga

def DocumentPosition.toJson (p : DocumentPosition) : JsonValue :=
  .object [("line", .ofNat p.line), ("character", .ofNat p.character)]

def DocumentRange.toJson (r : DocumentRange) : JsonValue :=
  .object [("start", r.start.toJson), ("end", r.stop.toJson)]

def Server.name : Text := "tuga-lsp"

def Server.version : Text := "0.1.0"

-- An error, with the stage that found it as its source. Severity 1 marks errors.
def Problem.toJson (p : Problem) : JsonValue :=
  .object
    [("range", p.range.toJson), ("severity", .ofNat 1),
      ("source", .ofText (Server.name ++ ("/" : Text) ++ p.stage.name)),
      ("message", .ofText p.message)]

def Hover.toJson (h : Hover) : JsonValue :=
  .object
    [("contents",
        .object
          [("kind", .ofText "markdown"),
            ("value", .ofText (("`" : Text) ++ h.type.name ++ ("`" : Text)))]),
      ("range", h.range.toJson)]

-- A reserved word that completes what is written. Kind 14 marks keywords.
def Keyword.toJson (k : Keyword) : JsonValue :=
  .object [("label", .ofText k.word), ("kind", .ofNat 14), ("insertText", .ofText k.word)]

namespace Server

-- What the server can do. Change kind 1 asks for whole documents.
def capabilities : JsonValue :=
  .object
    [("capabilities",
        .object
          [("textDocumentSync",
              .object [("openClose", .boolean true), ("change", .ofNat 1)]),
            ("completionProvider", .object []), ("hoverProvider", .boolean true)]),
      ("serverInfo", .object [("name", .ofText name), ("version", .ofText version)])]

def Answer.toJson : Answer → JsonValue
  | nothing => .null
  | capabilities => Server.capabilities
  | completions [] => .null
  | completions words => .array (words.map Keyword.toJson)
  | hover h => (h.map Hover.toJson).getD .null

def Publication.method : Text := "textDocument/publishDiagnostics"

def Publication.toJson (p : Publication) : JsonValue :=
  .object [("uri", .ofText p.uri), ("diagnostics", .array (p.problems.map Problem.toJson))]

end Server

end Tuga
