import Tuga.Json.Shape

namespace Tuga.Server.Client

def switches (names : List String) (others : List (Text × Shape)) : List (Text × Shape) :=
  names.map (fun name => (Text.ofString name, .boolean)) ++ others

def oneOf (item : Shape) : Shape := .record [("valueSet", .list item)]

def names : Shape := .list .text

def properties : Shape := .record [("properties", names)]

def registered (fields : List (Text × Shape)) : Shape :=
  .record (("dynamicRegistration", .boolean) :: fields)

def linked : Shape := registered (switches ["linkSupport"] [])

def symbols (fields : List (Text × Shape)) : Shape :=
  registered (("symbolKind", oneOf .signed) :: ("tagSupport", oneOf .signed) :: fields)

def versioned (name : Text) : Shape := .record [(name, .text), ("version", .text)]

def workspace : Shape :=
  .record
    (switches ["applyEdit", "workspaceFolders", "configuration"]
      [("workspaceEdit",
          .record
            (switches ["documentChanges", "normalizesLineEndings"]
              [("resourceOperations", names), ("failureHandling", .text),
                ("changeAnnotationSupport", .record (switches ["groupsOnLabel"] []))])),
        ("didChangeConfiguration", registered []),
        ("didChangeWatchedFiles", registered []),
        ("symbol", symbols []),
        ("executeCommand", registered []),
        ("semanticTokens", .record (switches ["refreshSupport"] [])),
        ("codeLens", .record (switches ["refreshSupport"] [])),
        ("fileOperations",
          registered
            (switches
              ["didCreate", "willCreate", "didRename", "willRename", "didDelete", "willDelete"]
              []))])

def completionItem : Shape :=
  .record
    (switches
        ["snippetSupport", "commitCharactersSupport", "deprecatedSupport", "preselectSupport",
          "insertReplaceSupport"]
      [("documentationFormat", names), ("tagSupport", oneOf .signed),
        ("resolveSupport", properties), ("insertTextModeSupport", oneOf .signed)])

def signatureInformation : Shape :=
  .record
    (switches ["activeParameterSupport"]
      [("documentationFormat", names),
        ("parameterInformation", .record (switches ["labelOffsetSupport"] []))])

def codeAction : Shape :=
  registered
    (switches ["isPreferredSupport", "disabledSupport", "dataSupport", "honorsChangeAnnotations"]
      [("codeActionLiteralSupport", .record [("codeActionKind", oneOf .text)]),
        ("resolveSupport", properties)])

def semanticTokens : Shape :=
  registered
    (switches ["overlappingTokenSupport", "multilineTokenSupport"]
      [("requests",
          .record
            [("range", .late (.either .boolean (.record []))),
              ("full", .late (.either .boolean (.record (switches ["delta"] []))))]),
        ("tokenTypes", names), ("tokenModifiers", names), ("formats", names)])

def textDocument : Shape :=
  .record
    [("synchronization", registered (switches ["willSave", "willSaveWaitUntil", "didSave"] [])),
      ("completion",
        registered
          (switches ["contextSupport"]
            [("completionItem", completionItem), ("completionItemKind", oneOf .signed)])),
      ("hover", registered [("contentFormat", names)]),
      ("signatureHelp",
        registered
          (switches ["contextSupport"] [("signatureInformation", signatureInformation)])),
      ("declaration", linked),
      ("definition", linked),
      ("typeDefinition", linked),
      ("implementation", linked),
      ("references", registered []),
      ("documentHighlight", registered []),
      ("documentSymbol",
        symbols (switches ["hierarchicalDocumentSymbolSupport", "labelSupport"] [])),
      ("codeAction", codeAction),
      ("codeLens", registered []),
      ("documentLink", registered (switches ["tooltipSupport"] [])),
      ("colorProvider", registered []),
      ("formatting", registered []),
      ("rangeFormatting", registered []),
      ("onTypeFormatting", registered []),
      ("rename",
        registered
          (switches ["prepareSupport", "honorsChangeAnnotations"]
            [("prepareSupportDefaultBehavior", .signed)])),
      ("publishDiagnostics",
        .record
          (switches
              ["relatedInformation", "versionSupport", "codeDescriptionSupport", "dataSupport"]
            [("tagSupport", oneOf .signed)])),
      ("foldingRange",
        registered (switches ["lineFoldingOnly"] [("rangeLimit", .unsigned)])),
      ("selectionRange", registered []),
      ("callHierarchy", registered []),
      ("semanticTokens", semanticTokens),
      ("linkedEditingRange", registered []),
      ("moniker", registered [])]

def window : Shape :=
  .record
    (switches ["workDoneProgress"]
      [("showMessage",
          .record [("messageActionItem", .record (switches ["additionalPropertiesSupport"] []))]),
        ("showDocument", .record (switches ["support"] []))])

def general : Shape :=
  .record [("regularExpressions", versioned "engine"), ("markdown", versioned "parser")]

-- Everything that a client can say that it can do. The server uses none of it, but it refuses
-- clients whose words it cannot read.
def capabilities : Shape :=
  .record
    [("workspace", workspace), ("textDocument", textDocument), ("window", window),
      ("general", general), ("experimental", .any)]

end Tuga.Server.Client
