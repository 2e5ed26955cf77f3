import Tuga.Compile
import Tuga.Machine.Run

namespace Tuga.Names

-- The entry of a table whose numbers start at `first`; other numbers are shown after a label.
def entry (label : Text) (first : Int) (table : List Text) (n : Int) : Text :=
  let unknown := label ++ ("(" : Text) ++ Text.ofInt n ++ (")" : Text)
  if n < first then unknown else table.getD (n - first).toNat unknown

def tokenTable : List Text :=
  (["EOF", "ERROR", "INT", "REAL", "STRING"] : List Text) ++
    ([.escreve, .verdadeiro, .falso, .e, .ou, .nao, .igual, .diferente] : List Keyword).map
      Keyword.word ++
    ([.plus, .minus, .star, .slash, .percent, .less, .lessEq, .greater, .greaterEq, .leftParen,
      .rightParen, .semicolon] : List Symbol).map Symbol.text

def inByte (n : Int) : Int := n % 256

def token (n : Int) : Text := entry "Token" 0 tokenTable n

def operator (n : Int) : Text := (Operator.ofOrdinal n.toNat).text

def type (n : Int) : Text :=
  let t := NodeType.ofOrdinal (inByte n).toNat
  t.name ++ if t.isNumeric then (" true" : Text) else (" false" : Text)

def stage (n : Int) : Text := entry "Stage" 0 (Stage.all.map Stage.name) n

def kind (n : Int) : Text := entry "Kind" 1 (Kind.all.map Kind.name) (inByte n)

def fault (n : Int) : Text := entry "Fault" 1 Fault.names n

def constantKind (n : Int) : Text := (ConstantKind.mk (UInt8.ofInt n)).name

def value (int : Int32) (real : Real64) (bool : Bool) (text : Text) (n : Int) : Text :=
  match inByte n with
  | 1 => (Value.int int).render
  | 2 => (Value.real real).render
  | 3 => (Value.bool bool).render
  | 4 => (Value.text text).render
  | _ => "<invalid>"

end Tuga.Names
