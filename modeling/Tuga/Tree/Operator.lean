import Tuga.Token.Basic

namespace Tuga

-- The operators of the language. `unknown` stands for a number that names none.
inductive Operator where
  | mul
  | div
  | mod
  | plus
  | minus
  | less
  | lessEq
  | greater
  | greaterEq
  | equal
  | notEqual
  | and
  | or
  | not
  | neg
  | unknown
  deriving DecidableEq, Repr

namespace Operator

def text : Operator → Text
  | mul => "*"
  | div => "/"
  | mod => "%"
  | plus => "+"
  | minus => "-"
  | less => "<"
  | lessEq => "<="
  | greater => ">"
  | greaterEq => ">="
  | equal => "igual"
  | notEqual => "diferente"
  | and => "e"
  | or => "ou"
  | not => "nao"
  | neg => "-"
  | unknown => "?"

def all : List Operator :=
  [mul, div, mod, plus, minus, less, lessEq, greater, greaterEq, equal, notEqual, and, or, not,
    neg]

def ofOrdinal (n : Nat) : Operator :=
  all.getD n unknown

end Operator

-- The levels of binary operators. Operators of one level associate to the left.
inductive Level where
  | multiplicative
  | additive
  | relational
  | equality
  | conjunction
  | disjunction
  deriving DecidableEq, Repr

namespace Level

def all : List Level :=
  [multiplicative, additive, relational, equality, conjunction, disjunction]

def operator? : Level → Token.Kind → Option Operator
  | multiplicative, .symbol .star => some .mul
  | multiplicative, .symbol .slash => some .div
  | multiplicative, .symbol .percent => some .mod
  | additive, .symbol .plus => some .plus
  | additive, .symbol .minus => some .minus
  | relational, .symbol .less => some .less
  | relational, .symbol .lessEq => some .lessEq
  | relational, .symbol .greater => some .greater
  | relational, .symbol .greaterEq => some .greaterEq
  | equality, .keyword .igual => some .equal
  | equality, .keyword .diferente => some .notEqual
  | conjunction, .keyword .e => some .and
  | disjunction, .keyword .ou => some .or
  | _, _ => none

end Level

def Operator.level? : Operator → Option Level
  | mul | div | mod => some .multiplicative
  | plus | minus => some .additive
  | less | lessEq | greater | greaterEq => some .relational
  | equal | notEqual => some .equality
  | and => some .conjunction
  | or => some .disjunction
  | not | neg | unknown => none

end Tuga
