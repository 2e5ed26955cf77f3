import Tuga.Bytecode.Listing
import Tuga.Command.Flags
import Tuga.Compile
import Tuga.Machine.Run
import Tuga.Manifest.Load

namespace Tuga.Command

structure Input where
  arguments : List Text
  cwd : Text

-- What the program leaves. Code 1 stands for a rejected or failing program, 2 for a command that
-- could not be carried out.
structure Output where
  code : Nat
  stdout : Text := []
  stderr : Text := []
  -- Whether the language server is to be started.
  serve : Bool := false

structure Options where
  output : Text := []
  showErrors : Bool := false
  trace : Bool := false
  verbosity : Int := -1
  config : Text := []
  listing : Text := []
  runOnly : Bool := false
  profile : Bool := false
  server : Bool := false

def flags : List (Text × Flags.Kind) :=
  [("config", .text), ("listing", .text), ("lsp", .switch), ("o", .text), ("profile", .switch),
    ("run-only", .switch), ("show-errors", .switch), ("trace", .switch), ("v", .number)]

def Options.set (o : Options) (name : Text) : Flags.Setting → Options
  | .text value =>
    if name = ("config" : Text) then { o with config := value }
    else if name = ("listing" : Text) then { o with listing := value }
    else { o with output := value }
  | .number value => { o with verbosity := value }
  | .switch on =>
    if name = ("lsp" : Text) then { o with server := on }
    else if name = ("profile" : Text) then { o with profile := on }
    else if name = ("run-only" : Text) then { o with runOnly := on }
    else if name = ("show-errors" : Text) then { o with showErrors := on }
    else { o with trace := on }

def usage : Text := Text.lines [
  "Usage: tuga [options] [file]",
  "",
  "Compiles a Tuga program (from file, or stdin), prints its bytecode,",
  "saves it, then loads the saved bytecode and runs it.",
  "",
  "Options:",
  "  -config string",
  "    \tDirectory holding tuga.toml (default: search upward from cwd)",
  "  -listing string",
  "    \tAlso write a CBOR listing of the program to this file",
  "  -lsp",
  "    \tStart the language server on stdio",
  "  -o string",
  "    \tBytecode output file (default from tuga.toml, else \"bytecodes\")",
  "  -profile",
  "    \tPrint per-opcode execution counts to stderr after running",
  "  -run-only",
  "    \tSkip compilation and run an existing bytecode file",
  "  -show-errors",
  "    \tPrint each lexical, syntax and type error",
  "  -trace",
  "    \tLog every executed instruction (needs -v 2 or more)",
  "  -v int",
  "    \tLog verbosity (default from tuga.toml, else 0) (default -1)",
  "",
  "Examples:",
  "  tuga prog.tuga                 # Compile and run",
  "  tuga -show-errors prog.tuga    # Show error detail",
  "  tuga -run-only -o out.bc       # Run previously saved bytecode",
  "  tuga -lsp                      # Language server for editors"]

def failed (stdout message : Text) : Output :=
  { code := 2, stdout, stderr := ("Error: " : Text) ++ message ++ [10] }

def unlogged (e : FileError) : Output :=
  { code := 1, stderr := ("log file error: " : Text) ++ e.message ++ [10] }

def refused (e : Flags.Error) : Output :=
  { code := 2, stderr := Text.lines e.message?.toList ++ usage }

-- The settings as the command line changes them. Its paths are seen from the working directory.
def Options.override (o : Options) (cwd : Text) (m : Manifest) : Manifest :=
  { m with
    bytecode := if o.output.isEmpty then m.bytecode else Path.absolute cwd o.output
    listing := if o.listing.isEmpty then m.listing else Path.absolute cwd o.listing
    verbosity := if 0 ≤ o.verbosity then o.verbosity else m.verbosity
    showLexical := m.showLexical || o.showErrors
    showParsing := m.showParsing || o.showErrors
    showTyping := m.showTyping || o.showErrors
    trace := m.trace || o.trace
    profile := m.profile || o.profile }

variable {m : Type → Type} [Monad m]

-- Loads a bytecode file and runs it, after what was already shown. The profile comes last.
def execute (files : Files m) (settings : Manifest) (stdout : Text) : m Output := do
  match ← files.read settings.bytecodePath with
  | .error e => return failed stdout (("read bytecode: " : Text) ++ e.message)
  | .ok data =>
    match Bytecode.load data with
    | .error e => return failed stdout e.message
    | .ok program =>
      let profile := if settings.profile then some {} else none
      let outcome := ({ program, profile } : Machine).run
      let fault := outcome.error.map RunError.message
      return {
        code := if fault.isSome then 1 else 0
        stdout := stdout ++ ("*** VM output ***\n" : Text) ++ outcome.output ++
          Text.lines fault.toList
        stderr := (outcome.machine.profile.map Profile.render).getD [] }

def source (files : Files m) (stdin : m Text) (arguments : List Text) :
    m (Except FileError Text) := do
  match arguments.headD [] with
  | [] => return .ok (← stdin)
  | path => files.read path

-- Writes the listing if one is wanted, then the bytecode. Gives the message of a failure.
def save (files : Files m) (settings : Manifest) (program : Bytecode) : m (Option Text) := do
  let properties := if settings.name.isEmpty then [] else [(("project" : Text), settings.name)]
  let listed ←
    if settings.listingPath.isEmpty then pure (.ok ())
    else files.write settings.listingPath (Listing.encode program properties)
  match listed, program.encode with
  | .error e, _ => return some (("writing listing: " : Text) ++ e.message)
  | .ok (), .error e => return some e.message
  | .ok (), .ok data =>
    match ← files.write settings.bytecodePath data with
    | .error e => return some (("write bytecode: " : Text) ++ e.message)
    | .ok () => return none

def build (files : Files m) (settings : Manifest) (text : Text) : m Output := do
  let detail : Detail := ⟨settings.showLexical, settings.showParsing, settings.showTyping⟩
  let (compilation, details) := Id.run ((compileShowing detail text).run [])
  match compilation.rejection, compilation.bytecode with
  | none, some program =>
    let shown := program.disassemble
    match ← save files settings program with
    | some message => return failed shown message
    | none => execute files settings shown
  | rejection, _ =>
    return {
      code := 1
      stdout := details ++ Text.lines (rejection.map Rejection.message).toList }

-- The settings that hold: those of a named directory, or of the nearest directory that has some.
def settings (files : Files m) (cwd : Text) (o : Options) : m (Except LoadError Manifest) := do
  if o.config.isEmpty then return (← Manifest.find files cwd cwd).map (·.getD .default)
  else Manifest.load files cwd o.config

def openLog (files : Files m) (settings : Manifest) : m (Except FileError Unit) :=
  match settings.logPath? with
  | none => return .ok ()
  | some path => files.create path

def perform (files : Files m) (stdin : m Text) (options : Options) (settings : Manifest)
    (arguments : List Text) : m Output := do
  if options.server then return { code := 0, serve := true }
  else if options.runOnly then execute files settings []
  else
    match ← source files stdin arguments with
    | .error e => return failed [] e.message
    | .ok text => build files settings text

-- Runs the program. Standard input is read only if the source comes from it.
def run (files : Files m) (stdin : m Text) (input : Input) : m Output := do
  match Flags.parse flags input.arguments with
  | .error e => return refused e
  | .ok (chosen, arguments) =>
    if 1 < arguments.length then return { code := 2, stderr := usage }
    let options := chosen.foldl (fun o (name, value) => o.set name value) ({} : Options)
    match ← settings files input.cwd options with
    | .error e => return failed [] e.message
    | .ok found =>
      let settings := options.override input.cwd found
      match ← openLog files settings with
      | .error e => return unlogged e
      | .ok () => perform files stdin options settings arguments

end Tuga.Command
