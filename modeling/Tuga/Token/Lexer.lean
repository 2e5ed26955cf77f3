import Tuga.Text.Letter
import Tuga.Token.Basic

namespace Tuga.Lexer

def isSpace (code : Nat) : Bool :=
  code = 32 || code = 9 || code = 10 || code = 13

def isDigit (code : Nat) : Bool :=
  48 ≤ code && code ≤ 57

-- After its first letter a word may go on with digits and underscores.
def isWordPart (isLetter : Nat → Bool) (code : Nat) : Bool :=
  isLetter code || isDigit code || code = 95

def runLength (p : Nat → Bool) (cs : List Character) : Nat :=
  (cs.takeWhile fun c => p c.code).length

def commentLength? : List Character → Option Nat
  | [] => none
  | c :: rest =>
    if c.code = 42 && (rest.head?.map Character.code) = some 47 then some 2
    else (commentLength? rest).map (· + 1)

inductive Scanned where
  | blank
  | token (kind : Token.Kind)
  | error (cause : LexicalCause)
  deriving DecidableEq, Repr

-- What starts at a character, and how many of the characters after it belong to it.
structure Scan where
  found : Scanned
  extra : Nat
  deriving DecidableEq, Repr

def symbol? (code : Nat) : Option Symbol :=
  match code with
  | 40 => some .leftParen
  | 41 => some .rightParen
  | 59 => some .semicolon
  | 43 => some .plus
  | 45 => some .minus
  | 42 => some .star
  | 47 => some .slash
  | 37 => some .percent
  | 60 => some .less
  | 62 => some .greater
  | _ => none

-- A comment to the end of its line; the line feed is not part of it.
def scanLineComment (rest : List Character) : Scan :=
  ⟨.blank, runLength (· ≠ 10) rest⟩

-- A comment between `/*` and `*/`; `rest` starts with the asterisk.
def scanBlockComment (rest : List Character) : Scan :=
  match commentLength? (rest.drop 1) with
  | some n => ⟨.blank, n + 1⟩
  | none => ⟨.error .unterminatedComment, rest.length⟩

-- A text literal after its opening quote. It ends on its own line.
def scanText (rest : List Character) : Scan :=
  let body := runLength (fun code => code ≠ 34 && code ≠ 10) rest
  if ((rest.drop body).head?.map Character.code) = some 34 then ⟨.token .text, body + 1⟩
  else ⟨.error .unterminatedString, body⟩

-- A number after its first digit. A point belongs to it only if a digit follows the point.
def scanNumber (rest : List Character) : Scan :=
  let whole := runLength isDigit rest
  match rest.drop whole with
  | point :: fraction =>
    let places := runLength isDigit fraction
    if point.code = 46 && 0 < places then ⟨.token .real, whole + 1 + places⟩
    else ⟨.token .integer, whole⟩
  | [] => ⟨.token .integer, whole⟩

def scanWord (isLetter : Nat → Bool) (c : Character) (rest : List Character) : Scan :=
  let extra := runLength (isWordPart isLetter) rest
  let word := Text.ofCharacters (c :: rest.take extra)
  match Keyword.ofWord? word with
  | some keyword => ⟨.token (.keyword keyword), extra⟩
  | none => ⟨.error (.unknownWord word), extra⟩

def scanSymbol (symbol : Symbol) (next : Option Nat) : Scan :=
  match symbol, next with
  | .less, some 61 => ⟨.token (.symbol .lessEq), 1⟩
  | .greater, some 61 => ⟨.token (.symbol .greaterEq), 1⟩
  | symbol, _ => ⟨.token (.symbol symbol), 0⟩

-- What starts at the character `c` when `rest` follows it. Which code points are letters depends on
-- the edition of Unicode, so that is an argument here and in all that walks by scans.
def scan (c : Character) (rest : List Character) (isLetter : Nat → Bool := Text.isLetter) : Scan :=
  let next := rest.head?.map Character.code
  if isSpace c.code then ⟨.blank, 0⟩
  else if c.code = 47 && next = some 47 then scanLineComment rest
  else if c.code = 47 && next = some 42 then scanBlockComment rest
  else
    match symbol? c.code with
    | some symbol => scanSymbol symbol next
    | none =>
      if c.code = 34 then scanText rest
      else if isDigit c.code then scanNumber rest
      else if isLetter c.code then scanWord isLetter c rest
      else ⟨.error (.unexpectedCharacter c.code), 0⟩

def Scanned.lexeme? (found : Scanned) (pos : Position) (taken : List Character) : Option Lexeme :=
  match found with
  | .blank => none
  | .token kind => some (.token ⟨kind, Text.ofCharacters taken, ⟨pos, pos.afterAll taken⟩⟩)
  | .error cause => some (.error ⟨cause, ⟨pos, pos.afterAll taken⟩⟩)

-- The lexemes of the characters from `pos` on, after `skip` characters of an earlier lexeme.
def lexemesAfter (skip : Nat) (pos : Position) (cs : List Character)
    (isLetter : Nat → Bool := Text.isLetter) : List Lexeme :=
  match skip, cs with
  | _, [] => []
  | skip + 1, c :: rest => lexemesAfter skip (pos.after c) rest isLetter
  | 0, c :: rest =>
    let s := scan c rest isLetter
    (s.found.lexeme? pos (c :: rest.take s.extra)).toList ++
      lexemesAfter s.extra (pos.after c) rest isLetter

-- The part of a source that counts. The first NUL ends the input.
def visible (source : Text) : List Character :=
  source.characters.takeWhile (·.code ≠ 0)

def lexemes (source : Text) (isLetter : Nat → Bool := Text.isLetter) : List Lexeme :=
  lexemesAfter 0 .start (visible source) isLetter

def endToken (source : Text) : Token :=
  let pos := Position.start.afterAll (visible source)
  ⟨.endOfInput, [], ⟨pos, pos⟩⟩

structure Reader where
  pos : Position
  rest : List Character
  deriving DecidableEq, Repr

-- The first lexeme from `pos` on, after `skip` characters of a comment, and the reader just past
-- it. At the end of the input that is the end-of-input token, past which no reader moves.
def nextAfter (skip : Nat) (pos : Position) (cs : List Character)
    (isLetter : Nat → Bool := Text.isLetter) : Lexeme × Reader :=
  match skip, cs with
  | _, [] => (.token ⟨.endOfInput, [], ⟨pos, pos⟩⟩, ⟨pos, []⟩)
  | skip + 1, c :: rest => nextAfter skip (pos.after c) rest isLetter
  | 0, c :: rest =>
    let s := scan c rest isLetter
    let taken := c :: rest.take s.extra
    match s.found.lexeme? pos taken with
    | some lexeme => (lexeme, ⟨pos.afterAll taken, rest.drop s.extra⟩)
    | none => nextAfter s.extra (pos.after c) rest isLetter

namespace Reader

def ofSource (source : Text) : Reader :=
  ⟨.start, visible source⟩

def next (reader : Reader) (isLetter : Nat → Bool := Text.isLetter) : Lexeme × Reader :=
  nextAfter 0 reader.pos reader.rest isLetter

def calls (count : Nat) (reader : Reader) (isLetter : Nat → Bool := Text.isLetter) :
    List Lexeme :=
  match count with
  | 0 => []
  | count + 1 => (reader.next isLetter).1 :: calls count (reader.next isLetter).2 isLetter

end Reader

def tokens (lexemes : List Lexeme) : List Token :=
  lexemes.filterMap fun
    | .token t => some t
    | .error _ => none

def errors (lexemes : List Lexeme) : List LexicalError :=
  lexemes.filterMap fun
    | .token _ => none
    | .error e => some e

end Tuga.Lexer
