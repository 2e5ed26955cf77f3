import Tuga.Bytecode.Basic
import Tuga.Bytecode.File
import Tuga.Bytecode.Lines
import Tuga.Bytecode.Listing
import Tuga.Bytecode.Operation
import Tuga.Cbor.Basic
import Tuga.Cbor.Decode
import Tuga.Codegen
import Tuga.Command.Flags
import Tuga.Command.Run
import Tuga.Compile
import Tuga.Document.Features
import Tuga.Document.Position
import Tuga.Files.Basic
import Tuga.Files.Tree
import Tuga.Json.Basic
import Tuga.Json.Parser
import Tuga.Json.Printer
import Tuga.Json.Shape
import Tuga.Machine.Profile
import Tuga.Machine.Run
import Tuga.Machine.Sink
import Tuga.Machine.Step
import Tuga.Machine.Value
import Tuga.Main
import Tuga.Manifest
import Tuga.Manifest.Load
import Tuga.Markdown.Autolink
import Tuga.Markdown.Block
import Tuga.Markdown.Emphasis
import Tuga.Markdown.Html
import Tuga.Markdown.Inline
import Tuga.Markdown.Line
import Tuga.Markdown.Mark
import Tuga.Markdown.Passage
import Tuga.Markdown.Reference
import Tuga.Names
import Tuga.Path
import Tuga.Proofs.Bytecode.BigEndian
import Tuga.Proofs.Bytecode.Building
import Tuga.Proofs.Bytecode.Fields
import Tuga.Proofs.Bytecode.Layout
import Tuga.Proofs.Bytecode.LineForms
import Tuga.Proofs.Bytecode.Lines
import Tuga.Proofs.Bytecode.Listing
import Tuga.Proofs.Bytecode.Replacement
import Tuga.Proofs.Bytecode.RoundTrip
import Tuga.Proofs.Bytecode.Truncation
import Tuga.Proofs.Cbor.Reading
import Tuga.Proofs.Codegen.Alike
import Tuga.Proofs.Codegen.Annotations
import Tuga.Proofs.Codegen.Constants
import Tuga.Proofs.Codegen.Conversions
import Tuga.Proofs.Codegen.Extension
import Tuga.Proofs.Codegen.Literals
import Tuga.Proofs.Codegen.Operations
import Tuga.Proofs.Codegen.Refinement
import Tuga.Proofs.Compile
import Tuga.Proofs.Composition
import Tuga.Proofs.Document.Lines
import Tuga.Proofs.Document.Position
import Tuga.Proofs.Evaluation
import Tuga.Proofs.Integers
import Tuga.Proofs.Layout
import Tuga.Proofs.Machine.Code
import Tuga.Proofs.Machine.Cut
import Tuga.Proofs.Machine.Depth
import Tuga.Proofs.Machine.Follow
import Tuga.Proofs.Machine.Output
import Tuga.Proofs.Machine.Profile
import Tuga.Proofs.Machine.Retry
import Tuga.Proofs.Machine.Stepping
import Tuga.Proofs.Paths
import Tuga.Proofs.Real.Narrow
import Tuga.Proofs.Real.Nearest
import Tuga.Proofs.Real.Printed
import Tuga.Proofs.Real.Representable
import Tuga.Proofs.Real.Shortest
import Tuga.Proofs.Sections
import Tuga.Proofs.Stages
import Tuga.Proofs.Text.Boundary
import Tuga.Proofs.Text.Digits
import Tuga.Proofs.Text.Unquote
import Tuga.Proofs.Text.Utf16
import Tuga.Proofs.Text.Words
import Tuga.Proofs.Token.Cutting
import Tuga.Proofs.Token.Joining
import Tuga.Proofs.Token.Rendering
import Tuga.Proofs.Token.Scanning
import Tuga.Proofs.Token.Tiling
import Tuga.Proofs.Tree.Acceptance
import Tuga.Proofs.Tree.Excerpt
import Tuga.Proofs.Tree.Grammar
import Tuga.Proofs.Tree.Innermost
import Tuga.Proofs.Tree.Layout
import Tuga.Proofs.Tree.Made
import Tuga.Proofs.Tree.Numbering
import Tuga.Proofs.Tree.Places
import Tuga.Proofs.Tree.Programs
import Tuga.Proofs.Tree.Reading
import Tuga.Proofs.Tree.Recovery
import Tuga.Proofs.Typing.Coverage
import Tuga.Proofs.Typing.Offence
import Tuga.Proofs.Typing.Rules
import Tuga.Proofs.Typing.Table
import Tuga.Real.Arithmetic
import Tuga.Real.Basic
import Tuga.Real.Format
import Tuga.Real.Narrow
import Tuga.Real.Rounding
import Tuga.Real.Shortest
import Tuga.Server.Client
import Tuga.Server.Encoding
import Tuga.Server.Message
import Tuga.Server.Session
import Tuga.Server.State
import Tuga.Source.Position
import Tuga.TestCase
import Tuga.Text.Basic
import Tuga.Text.CaseFolding
import Tuga.Text.DecimalDigit
import Tuga.Text.Letter
import Tuga.Text.Printable
import Tuga.Text.Punctuation
import Tuga.Text.Quoted
import Tuga.Text.Utf16
import Tuga.Text.Utf8
import Tuga.Text.Words
import Tuga.Token.Basic
import Tuga.Token.Lexer
import Tuga.Toml.Basic
import Tuga.Toml.Document
import Tuga.Toml.Number
import Tuga.Toml.Parser
import Tuga.Tree.Basic
import Tuga.Tree.Builder
import Tuga.Tree.Operator
import Tuga.Tree.Parser
import Tuga.Typing.Basic
import Tuga.Typing.Check
