import Tuga.Bytecode.Basic
import Tuga.Text.Quoted
import Tuga.Text.Words

namespace Tuga

inductive OperandCause where
  | noDigit
  | onlySign
  | overflow (token : Text)
  | outOfRange (token : Text)
  deriving DecidableEq, Repr

def OperandCause.message : OperandCause → Text
  | noDigit => "expected integer"
  | onlySign => "EOF"
  | overflow token => ("integer overflow on token " : Text) ++ token
  | outOfRange token =>
    ("strconv.ParseInt: parsing " : Text) ++ Text.quote token ++ (": value out of range" : Text)

inductive LineCause where
  | unknownMnemonic (word : Text)
  | takesOneOperand (op : Operation)
  | takesNoOperand (op : Operation)
  | badOperand (word : Text) (cause : OperandCause)
  deriving DecidableEq, Repr

-- A line that is no instruction, counted from one.
structure LineError where
  line : Nat
  cause : LineCause
  deriving DecidableEq, Repr

def LineError.message (e : LineError) : Text :=
  let detail : Text :=
    match e.cause with
    | .unknownMnemonic word => ("unknown opcode " : Text) ++ Text.quote word
    | .takesOneOperand op => op.name ++ (" takes one operand" : Text)
    | .takesNoOperand op => op.name ++ (" takes no operand" : Text)
    | .badOperand word cause =>
      ("bad operand " : Text) ++ Text.quote word ++ (": " : Text) ++ cause.message
  ("line " : Text) ++ Text.ofNat e.line ++ (": " : Text) ++ detail

namespace Instruction

def isSign (b : UInt8) : Bool := b = 43 || b = 45

-- The number that starts a word: a sign and digits as far as they go. What follows is ignored.
def operand? (word : Text) : Except OperandCause Int32 :=
  let sign := word.take (if word.head?.any isSign then 1 else 0)
  let digits := (word.drop sign.length).takeWhile Text.isDigitByte
  let token := sign ++ digits
  let magnitude := Text.toNat digits
  let value : Int := if sign = [45] then -(magnitude : Int) else magnitude
  if digits.isEmpty then .error (if word.length = sign.length then .onlySign else .noDigit)
  else if value < -0x8000000000000000 || 0x8000000000000000 ≤ value then .error (.outOfRange token)
  else if value < -0x80000000 || 0x80000000 ≤ value then .error (.overflow token)
  else .ok (Int32.ofInt value)

def ofLine (line : Text) : Except LineCause (Option Instruction) :=
  match line.words with
  | [] => .ok none
  | mnemonic :: operands =>
    match Operation.ofName? mnemonic with
    | none => .error (.unknownMnemonic mnemonic)
    | some op =>
      if op.hasOperand then
        match operands with
        | [word] =>
          match operand? word with
          | .ok arg => .ok (some ⟨op.code, arg⟩)
          | .error cause => .error (.badOperand word cause)
        | _ => .error (.takesOneOperand op)
      else if operands.isEmpty then .ok (some (.of op))
      else .error (.takesNoOperand op)

def ofLinesFrom (line : Nat) : List Text → Except LineError (List Instruction)
  | [] => .ok []
  | text :: rest =>
    match ofLine text with
    | .ok none => ofLinesFrom (line + 1) rest
    | .ok (some i) => (ofLinesFrom (line + 1) rest).map (i :: ·)
    | .error cause => .error ⟨line, cause⟩

-- The instructions on a list of lines. Blank lines are skipped.
def ofLines (lines : List Text) : Except LineError (List Instruction) :=
  ofLinesFrom 1 lines

end Instruction

end Tuga
