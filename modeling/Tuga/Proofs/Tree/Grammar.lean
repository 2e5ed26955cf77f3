import Mathlib.Algebra.Group.Nat.Defs
import Mathlib.Data.List.Basic
import Tuga.Tree.Parser

namespace Tuga

-- The expression without the numbers and places of its nodes.
def Expr.bare : Expr → Expr
  | .int _ value => .int default value
  | .real _ value => .real default value
  | .bool _ value => .bool default value
  | .text _ quoted => .text default quoted
  | .paren _ inner => .paren default inner.bare
  | .neg _ operand => .neg default operand.bare
  | .not _ operand => .not default operand.bare
  | .binary _ level op left right => .binary default level op left.bare right.bare

-- An integer literal, if the token is one, is at most the greatest integer of 64 bits.
def Token.InRange (t : Token) : Prop :=
  t.kind = .integer → Text.toNat t.literal ≤ 2 ^ 63 - 1

-- A token inside a statement: it neither ends the statement nor starts another.
def Token.Inner (t : Token) : Prop :=
  t.kind ≠ .symbol .semicolon ∧ t.kind ≠ .keyword .escreve

namespace Grammar

-- The operators of each level and how they are written.
inductive Sign : Level → Token.Kind → Operator → Prop
  | ou : Sign .disjunction (.keyword .ou) .or
  | e : Sign .conjunction (.keyword .e) .and
  | igual : Sign .equality (.keyword .igual) .equal
  | diferente : Sign .equality (.keyword .diferente) .notEqual
  | less : Sign .relational (.symbol .less) .less
  | lessEq : Sign .relational (.symbol .lessEq) .lessEq
  | greater : Sign .relational (.symbol .greater) .greater
  | greaterEq : Sign .relational (.symbol .greaterEq) .greaterEq
  | plus : Sign .additive (.symbol .plus) .plus
  | minus : Sign .additive (.symbol .minus) .minus
  | star : Sign .multiplicative (.symbol .star) .mul
  | slash : Sign .multiplicative (.symbol .slash) .div
  | percent : Sign .multiplicative (.symbol .percent) .mod

-- What tokens are derived from. A repetition carries the tree of what stands before it.
inductive Phrase where
  | level (level : Level)
  | more (level : Level) (left : Expr)
  | unary
  | primary

-- The operands of a level are phrases of the next tighter one.
def operands : Level → Phrase
  | .disjunction => .level .conjunction
  | .conjunction => .level .equality
  | .equality => .level .relational
  | .relational => .level .additive
  | .additive => .level .multiplicative
  | .multiplicative => .unary

-- The tokens that a phrase derives, and their tree.
--
--   or      : and ('ou' and)*
--   and     : eq ('e' eq)*
--   eq      : rel (('igual' | 'diferente') rel)*
--   rel     : add (('<' | '<=' | '>' | '>=') add)*
--   add     : mul (('+' | '-') mul)*
--   mul     : unary (('*' | '/' | '%') unary)*
--   unary   : '-' unary | 'nao' unary | primary
--   primary : INT | REAL | STRING | 'verdadeiro' | 'falso' | '(' or ')'
--
-- Each operator of a repetition takes all that stands before it as its left operand.
inductive Derives : Phrase → List Token → Expr → Prop
  | level {l : Level} {ts us : List Token} {left e : Expr}
      (first : Derives (operands l) ts left) (rest : Derives (.more l left) us e) :
      Derives (.level l) (ts ++ us) e
  | done {l : Level} {left : Expr} : Derives (.more l left) [] left
  | more {l : Level} {op : Operator} {t : Token} {ts us : List Token} {left right e : Expr}
      (sign : Sign l t.kind op) (next : Derives (operands l) ts right)
      (rest : Derives (.more l (.binary default l op left right)) us e) :
      Derives (.more l left) (t :: (ts ++ us)) e
  | neg {t : Token} {ts : List Token} {e : Expr} (minus : t.kind = .symbol .minus)
      (inner : Derives .unary ts e) : Derives .unary (t :: ts) (.neg default e)
  | not {t : Token} {ts : List Token} {e : Expr} (nao : t.kind = .keyword .nao)
      (inner : Derives .unary ts e) : Derives .unary (t :: ts) (.not default e)
  | primary {ts : List Token} {e : Expr} (inner : Derives .primary ts e) : Derives .unary ts e
  | int {t : Token} (kind : t.kind = .integer) :
      Derives .primary [t] (.int default (Text.toNat t.literal))
  | real {t : Token} (kind : t.kind = .real) :
      Derives .primary [t] (.real default (Parser.realValue t.literal))
  | text {t : Token} (kind : t.kind = .text) : Derives .primary [t] (.text default t.literal)
  | verdadeiro {t : Token} (kind : t.kind = .keyword .verdadeiro) :
      Derives .primary [t] (.bool default true)
  | falso {t : Token} (kind : t.kind = .keyword .falso) :
      Derives .primary [t] (.bool default false)
  | paren {t u : Token} {ts : List Token} {e : Expr} (opening : t.kind = .symbol .leftParen)
      (inner : Derives (.level .disjunction) ts e) (closing : u.kind = .symbol .rightParen) :
      Derives .primary (t :: (ts ++ [u])) (.paren default e)

-- The tokens of a statement, and the tree of what it prints.
inductive IsStatement : List Token → Expr → Prop
  | intro {t u : Token} {ts : List Token} {e : Expr} (escreve : t.kind = .keyword .escreve)
      (value : Derives (.level .disjunction) ts e) (semicolon : u.kind = .symbol .semicolon) :
      IsStatement (t :: (ts ++ [u])) e

-- The tokens of a program, one statement at least, and the trees of its statements.
inductive IsProgram : List Token → List Expr → Prop
  | one {ts : List Token} {e : Expr} (h : IsStatement ts e) : IsProgram ts [e]
  | cons {ts us : List Token} {e : Expr} {es : List Expr} (h : IsStatement ts e)
      (rest : IsProgram us es) : IsProgram (ts ++ us) (e :: es)

variable {l l' : Level} {op op' : Operator} {kind : Token.Kind} {ph : Phrase} {ts us : List Token}
  {e left : Expr}

theorem operator?_eq_some_iff : l.operator? kind = some op ↔ Sign l kind op := by
  constructor
  · intro h
    rw [Level.operator?.eq_def] at h
    split at h <;> cases h <;> constructor
  · intro h
    cases h <;> rfl

theorem Sign.level_unique (h : Sign l kind op) (h' : Sign l' kind op') : l = l' := by
  cases h <;> cases h' <;> rfl

theorem Sign.inner {t : Token} (h : Sign l t.kind op) : t.Inner := by
  unfold Token.Inner
  cases hk : t.kind with
  | keyword word => rw [hk] at h; cases h <;> simp
  | symbol symbol => rw [hk] at h; cases h <;> simp
  | _ => simp

-- No token of an expression ends a statement or starts one.
theorem Derives.inner (h : Derives ph ts e) : ∀ t ∈ ts, t.Inner := by
  induction h with
  | level _ _ ih ih' => exact List.forall_mem_append.mpr ⟨ih, ih'⟩
  | done => simp
  | more sign _ _ ih ih' =>
      exact List.forall_mem_cons.mpr ⟨sign.inner, List.forall_mem_append.mpr ⟨ih, ih'⟩⟩
  | neg kind _ ih | not kind _ ih =>
      exact List.forall_mem_cons.mpr ⟨by simp [Token.Inner, kind], ih⟩
  | primary _ ih => exact ih
  | int kind | real kind | text kind | verdadeiro kind | falso kind =>
      simp [Token.Inner, kind]
  | paren opening _ closing ih =>
      simp only [List.forall_mem_cons, List.forall_mem_append]
      exact ⟨by simp [Token.Inner, opening], ih, by simp [Token.Inner, closing], by simp⟩

theorem Derives.unary_ne_nil (h : Derives .unary ts e) : ts ≠ [] := by
  cases h with
  | neg | not => simp
  | primary inner => cases inner <;> simp

theorem Derives.exists_head (h : Derives .primary ts e) :
    ∃ t us, ts = t :: us ∧ t.kind ≠ .symbol .minus ∧ t.kind ≠ .keyword .nao := by
  cases h with
  | int kind | real kind | text kind | verdadeiro kind | falso kind | paren kind =>
      exact ⟨_, _, rfl, by simp [kind], by simp [kind]⟩

end Grammar

end Tuga
