import Tuga.Source.Position
import Tuga.Text.Quoted

namespace Tuga

-- The reserved words. There are no other words in the language.
inductive Keyword where
  | diferente
  | e
  | escreve
  | falso
  | igual
  | nao
  | ou
  | verdadeiro
  deriving DecidableEq, Repr

namespace Keyword

def word : Keyword → Text
  | diferente => "diferente"
  | e => "e"
  | escreve => "escreve"
  | falso => "falso"
  | igual => "igual"
  | nao => "nao"
  | ou => "ou"
  | verdadeiro => "verdadeiro"

def all : List Keyword :=
  [diferente, e, escreve, falso, igual, nao, ou, verdadeiro]

def ofWord? (word : Text) : Option Keyword :=
  all.find? (·.word = word)

end Keyword

inductive Symbol where
  | plus
  | minus
  | star
  | slash
  | percent
  | less
  | lessEq
  | greater
  | greaterEq
  | leftParen
  | rightParen
  | semicolon
  deriving DecidableEq, Repr

def Symbol.text : Symbol → Text
  | plus => "+"
  | minus => "-"
  | star => "*"
  | slash => "/"
  | percent => "%"
  | less => "<"
  | lessEq => "<="
  | greater => ">"
  | greaterEq => ">="
  | leftParen => "("
  | rightParen => ")"
  | semicolon => ";"

namespace Token

inductive Kind where
  | endOfInput
  | integer
  | real
  | text
  | keyword (word : Keyword)
  | symbol (symbol : Symbol)
  deriving DecidableEq, Repr

def Kind.name : Kind → Text
  | endOfInput => "EOF"
  | integer => "INT"
  | real => "REAL"
  | text => "STRING"
  | keyword k => k.word
  | symbol s => s.text

end Token

-- A token with its text as written, quotes of a text literal included.
structure Token where
  kind : Token.Kind
  literal : Text
  span : Span
  deriving DecidableEq, Repr

namespace Token

def shownBytes : Nat := 20

def render (token : Token) : Text :=
  match token.kind with
  | .endOfInput => "EOF"
  | kind =>
    if shownBytes < token.literal.length then
      kind.name ++ ("(" : Text) ++ Text.quote (token.literal.take shownBytes) ++ ("...)" : Text)
    else kind.name ++ ("(" : Text) ++ Text.quote token.literal ++ (")" : Text)

def describe (token : Token) : Text :=
  match token.kind with
  | .endOfInput => "end of input"
  | .integer => ("INT " : Text) ++ token.literal
  | .real => ("REAL " : Text) ++ token.literal
  | .text => ("STRING " : Text) ++ token.literal
  | _ => ("'" : Text) ++ token.literal ++ ("'" : Text)

end Token

inductive LexicalCause where
  | unexpectedCharacter (code : Nat)
  | unknownWord (word : Text)
  | unterminatedString
  | unterminatedComment
  deriving DecidableEq, Repr

def LexicalCause.message : LexicalCause → Text
  | unexpectedCharacter code => ("unexpected character " : Text) ++ Text.quoteCode code
  | unknownWord word => ("unknown word " : Text) ++ Text.quote word
  | unterminatedString => "unterminated string"
  | unterminatedComment => "unterminated comment"

structure LexicalError where
  cause : LexicalCause
  span : Span
  deriving DecidableEq, Repr

-- What reading a source finds, blanks and comments apart.
inductive Lexeme where
  | token (token : Token)
  | error (error : LexicalError)
  deriving DecidableEq, Repr

def Lexeme.span : Lexeme → Span
  | token t => t.span
  | error e => e.span

end Tuga
