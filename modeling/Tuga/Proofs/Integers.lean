import Mathlib.Data.Int.ModEq
import Tuga.Proofs.Composition

namespace Tuga

open Machine Grammar

-- An expression of integer literals in range, in parentheses or not, negated, added, subtracted and
-- multiplied; and its value, which is computed without bounds.
inductive Expr.Exact : Expr → Int → Prop
  | int {info : NodeInfo} {value : Int} (least : -2 ^ 31 ≤ value) (greatest : value < 2 ^ 31) :
      Exact (.int info value) value
  | paren {info : NodeInfo} {inner : Expr} {x : Int} (h : Exact inner x) :
      Exact (.paren info inner) x
  | neg {info : NodeInfo} {operand : Expr} {x : Int} (h : Exact operand x) :
      Exact (.neg info operand) (-x)
  | add {info : NodeInfo} {left right : Expr} {x y : Int} (hleft : Exact left x)
      (hright : Exact right y) : Exact (.binary info .additive .plus left right) (x + y)
  | sub {info : NodeInfo} {left right : Expr} {x y : Int} (hleft : Exact left x)
      (hright : Exact right y) : Exact (.binary info .additive .minus left right) (x - y)
  | mul {info : NodeInfo} {left right : Expr} {x y : Int} (hleft : Exact left x)
      (hright : Exact right y) : Exact (.binary info .multiplicative .mul left right) (x * y)

namespace Expr.Exact

variable {e : Expr} {x : Int}

theorem hasType (h : e.Exact x) : e.HasType .integer := by
  induction h with
  | int => exact .int
  | paren _ ih => exact .paren ih
  | neg _ ih => exact .neg ih rfl
  | add _ _ ihl ihr => exact .binary ihl ihr (.additive rfl rfl)
  | sub _ _ ihl ihr => exact .binary ihl ihr (.additive rfl rfl)
  | mul _ _ ihl ihr => exact .binary ihl ihr (.multiplicative (by simp) rfl rfl)

-- Wrapping around is compatible with every operation, so the order of the two does not matter.
theorem evaluate_eq (h : e.Exact x) (read : Text → Text) :
    e.evaluate read = .ok (.int (Int32.ofInt x)) := by
  induction h with
  | int => rfl
  | paren _ ih => exact ih
  | neg _ ih =>
      rw [evaluate, ih]
      change Except.ok (Value.int (Int32.ofInt (-_))) = _
      rw [Int32.ofInt_neg, Int32.ofInt_toInt, ← Int32.ofInt_neg]
  | add _ _ ihl ihr =>
      rw [evaluate, ihl, ihr]
      change Except.ok (Value.int (Int32.ofInt (_ + _))) = _
      rw [Int32.ofInt_add, Int32.ofInt_toInt, Int32.ofInt_toInt, ← Int32.ofInt_add]
  | sub _ _ ihl ihr =>
      rw [evaluate, ihl, ihr]
      change Except.ok (Value.int (Int32.ofInt (_ - _))) = _
      rw [Int32.ofInt_sub, Int32.ofInt_toInt, Int32.ofInt_toInt, ← Int32.ofInt_sub]
  | mul _ _ ihl ihr =>
      rw [evaluate, ihl, ihr]
      change Except.ok (Value.int (Int32.ofInt (_ * _))) = _
      rw [Int32.ofInt_mul, Int32.ofInt_toInt, Int32.ofInt_toInt, ← Int32.ofInt_mul]

theorem constants_eq (h : e.Exact x) : e.constants = [] := by
  induction h with
  | int => rfl
  | paren _ ih | neg _ ih => exact ih
  | add _ _ ihl ihr | sub _ _ ihl ihr | mul _ _ ihl ihr => rw [constants, ihl, ihr, List.append_nil]

theorem of_bare (h : e.bare.Exact x) : e.Exact x := by
  induction e generalizing x with
  | int =>
      cases h with
      | int least greatest => exact .int least greatest
  | real | bool | text => cases h
  | paren _ _ ih =>
      cases h with
      | paren h => exact .paren (ih h)
  | neg _ _ ih =>
      cases h with
      | neg h => exact .neg (ih h)
  | not => cases h
  | binary _ _ _ _ _ ihl ihr =>
      cases h with
      | add hleft hright => exact .add (ihl hleft) (ihr hright)
      | sub hleft hright => exact .sub (ihl hleft) (ihr hright)
      | mul hleft hright => exact .mul (ihl hleft) (ihr hright)

end Expr.Exact

namespace Token

theorem not_tooWide_of_kind {t : Token} (h : t.kind ≠ .integer) : ¬t.TooWide :=
  fun hwide => h hwide.1

theorem not_tooWide_between {t u : Token} {ts : List Token} (ht : t.kind ≠ .integer)
    (hts : ∀ v ∈ ts, ¬v.TooWide) (hu : u.kind ≠ .integer) :
    ∀ v ∈ t :: (ts ++ [u]), ¬v.TooWide := by
  rw [List.forall_mem_cons, List.forall_mem_append, List.forall_mem_singleton]
  exact ⟨not_tooWide_of_kind ht, hts, not_tooWide_of_kind hu⟩

end Token

namespace Grammar

variable {ph : Phrase} {ts : List Token} {e : Expr} {x : Int}

-- What stands before a repetition is such an expression too.
def Phrase.IsExact : Phrase → Prop
  | .more _ left => ∃ x, left.Exact x
  | _ => True

theorem Sign.not_tooWide {l : Level} {op : Operator} {t : Token} (h : Sign l t.kind op) :
    ¬t.TooWide := by
  refine Token.not_tooWide_of_kind fun hkind => ?_
  rw [hkind] at h
  cases h

-- The literals of the expression are those of the tokens, so none of these is too wide.
theorem Derives.narrow (h : Derives ph ts e) (he : e.Exact x) :
    ph.IsExact ∧ ∀ t ∈ ts, ¬t.TooWide := by
  induction h generalizing x with
  | level _ _ ih ih' =>
      obtain ⟨⟨y, hleft⟩, hrest⟩ := ih' he
      exact ⟨trivial, List.forall_mem_append.mpr ⟨(ih hleft).2, hrest⟩⟩
  | done => exact ⟨⟨x, he⟩, by simp⟩
  | more sign _ _ ih ih' =>
      obtain ⟨⟨y, hbinary⟩, hrest⟩ := ih' he
      cases hbinary with
      | add hleft hright | sub hleft hright | mul hleft hright =>
          refine ⟨⟨_, hleft⟩, List.forall_mem_cons.mpr ⟨sign.not_tooWide, ?_⟩⟩
          exact List.forall_mem_append.mpr ⟨(ih hright).2, hrest⟩
  | neg minus _ ih =>
      cases he with
      | neg he =>
          refine ⟨trivial, List.forall_mem_cons.mpr ⟨?_, (ih he).2⟩⟩
          exact Token.not_tooWide_of_kind (by simp [minus])
  | primary _ ih => exact ⟨trivial, (ih he).2⟩
  | int kind =>
      cases he with
      | int least greatest =>
          refine ⟨trivial, List.forall_mem_singleton.mpr fun hwide => ?_⟩
          have hgreater := hwide.2
          omega
  | not | real | text | verdadeiro | falso => cases he
  | paren opening _ closing ih =>
      cases he with
      | paren he =>
          refine ⟨trivial, Token.not_tooWide_between ?_ (ih he).2 ?_⟩
          · simp [opening]
          · simp [closing]

theorem IsStatement.narrow (h : IsStatement ts e) (he : e.Exact x) : ∀ t ∈ ts, ¬t.TooWide := by
  obtain ⟨escreve, value, semicolon⟩ := h
  refine Token.not_tooWide_between ?_ (value.narrow he).2 ?_
  · simp [escreve]
  · simp [semicolon]

theorem IsProgram.narrow (h : IsProgram ts [e]) (he : e.Exact x) : ∀ t ∈ ts, ¬t.TooWide := by
  cases h with
  | one h => exact h.narrow he
  | cons h rest => cases rest

end Grammar

section Source

variable {source : Text} {e : Expr} {x : Int}

-- A source that prints such an expression is accepted, and its only statement prints it.
theorem accepted_of_exact (hlexable : Lexable source)
    (hprogram : IsProgram (sourceTokens source) [e]) (he : e.Exact x) :
    (compile source).rejection = none ∧ sourceTrees source = [e] := by
  have hnarrow : Narrow source := hprogram.narrow he
  have hrange : ∀ t ∈ sourceTokens source, t.InRange := by
    intro t ht hkind
    have hle := Nat.le_of_not_lt fun hlt => hnarrow t ht ⟨hkind, hlt⟩
    omega
  obtain ⟨-, htrees⟩ := (Parser.isProgram_tokens_iff source [e]).mp ⟨hprogram, hrange⟩
  have htyped : WellTyped source := by
    rw [wellTyped_iff, sourceTrees, ← htrees]
    exact List.forall_mem_singleton.mpr ⟨_, Expr.type?_eq_some_iff.mpr he.hasType⟩
  exact ⟨accepted_iff.mpr ⟨hlexable, ⟨⟨_, hprogram⟩, hrange⟩, htyped, hnarrow⟩, htrees.symm⟩

theorem Program.CompilesTo.decode_encode {p : Program} {b : Bytecode} (h : p.CompilesTo b)
    (hconstants : b.constants = []) :
    ∃ file, b.encode = .ok file ∧ Bytecode.decode file = .ok b := by
  obtain ⟨hwritable, hplain⟩ := Program.generate_writable h.built h.errors h.generate
    (by simp [hconstants]) (by simp [hconstants])
  refine ⟨_, b.encode_eq_ok hwritable, Bytecode.decode_eq_ok.mpr ⟨_, rfl, ?_⟩⟩
  rw [b.program_image hwritable, b.normalised_fileForm_of_plain hplain, Bytecode.mapTexts,
    hconstants, List.map_nil, ← hconstants]

end Source

theorem toInt_ofInt_unique (x k : Int) :
    (-2 ^ 31 ≤ k ∧ k < 2 ^ 31 ∧ k ≡ x [ZMOD 2 ^ 32]) ↔ k = (Int32.ofInt x).toInt := by
  have hwrap : (Int32.ofInt x).toInt ≡ x [ZMOD 2 ^ 32] := by
    rw [Int32.toInt_ofInt]
    exact Int.bmod_emod
  constructor
  · rintro ⟨hleast, hgreatest, hcongruent⟩
    have hleast' := (Int32.ofInt x).le_toInt
    have hgreatest' := (Int32.ofInt x).toInt_lt
    have hdvd := (hcongruent.trans hwrap.symm).dvd
    omega
  · rintro rfl
    exact ⟨Int32.le_toInt _, Int32.toInt_lt _, hwrap⟩

theorem run_exact {source : Text} {e : Expr} {x : Int} (hlexable : Lexable source)
    (hprogram : IsProgram (sourceTokens source) [e]) (he : e.Exact x) :
    ∃ b file, compile source = { tree := (Program.parse source).1,
                                 types := some (Program.parse source).1.check.types,
                                 bytecode := some b } ∧
      b.encode = .ok file ∧ Bytecode.decode file = .ok b ∧ (load b).run.error = none ∧
      (load b).run.machine.halted = true ∧
      (load b).run.output = Text.ofInt (Int32.ofInt x).toInt ++ [10] := by
  obtain ⟨haccepted, htrees⟩ := accepted_of_exact hlexable hprogram he
  obtain ⟨b, hcompiles, hcompile⟩ := Program.CompilesTo.of_rejection_eq_none haccepted
  have hconstants : b.constants = [] := by
    rw [constants_of_rejection_eq_none haccepted (by rw [hcompile]), ← hprogram.constants_eq,
      List.flatMap_singleton, he.constants_eq]
    rfl
  have hform : b.fileForm = b := by
    rw [Bytecode.fileForm, hconstants, List.map_nil, ← hconstants]
  obtain ⟨s, hstatements, hs⟩ := List.map_eq_singleton_iff.mp htrees
  have hvalue := (Expr.Exact.of_bare (hs ▸ he)).evaluate_eq Text.unquote
  have hevaluate : (Program.parse source).1.evaluate Text.unquote =
      ([.int (Int32.ofInt x)], none) := by
    rw [Program.evaluate, hstatements, evaluateAll, hvalue]
    rfl
  obtain ⟨houtput, herror, hhalted⟩ := hcompiles.run_evaluate (by simp [hconstants])
  rw [hevaluate, hform] at houtput herror hhalted
  obtain ⟨file, hencode, hdecode⟩ := hcompiles.decode_encode hconstants
  refine ⟨b, file, hcompile, hencode, hdecode, Option.map_eq_none_iff.mp herror, hhalted, ?_⟩
  rw [houtput, Value.lines, List.flatMap_singleton]
  rfl

section Division

variable (program : Bytecode) (arg l r : Int32) (stack : Stack)

theorem execute_integers {op : Operation} {f : Int32 → Int32 → Except Fault Value}
    (hop : perform program arg op = binary popInt f) :
    execute program ⟨op.code, arg⟩ (.int r :: .int l :: stack) =
      match f l r with
      | .ok value => .ok .next (value :: stack)
      | .error fault => .error fault stack := by
  have hl : Value.int? (.int l) = some l := rfl
  have hr : Value.int? (.int r) = some r := rfl
  rw [execute_code, hop]
  exact (binary_pop hl hr stack).trans (by cases f l r <;> rfl)

theorem execute_idiv :
    execute program ⟨Operation.idiv.code, arg⟩ (.int r :: .int l :: stack) =
      if r = 0 then .error .divisionByZero stack else .ok .next (.int (l / r) :: stack) := by
  rw [execute_integers program arg l r stack rfl, intDiv]
  by_cases hr : r = 0
  · rw [if_pos hr, if_pos hr]
  · rw [if_neg hr, if_neg hr]

theorem execute_imod :
    execute program ⟨Operation.imod.code, arg⟩ (.int r :: .int l :: stack) =
      if r = 0 then .error .moduloByZero stack else .ok .next (.int (l % r) :: stack) := by
  rw [execute_integers program arg l r stack rfl, intMod]
  by_cases hr : r = 0
  · rw [if_pos hr, if_pos hr]
  · rw [if_neg hr, if_neg hr]

end Division

-- Only the quotient of the least integer and minus one wraps around.
theorem div_mul_add_mod (l r : Int32) :
    (l / r).toInt * r.toInt + (l % r).toInt ≡ l.toInt [ZMOD 2 ^ 32] := by
  have hquotient : (l / r).toInt ≡ l.toInt.tdiv r.toInt [ZMOD 2 ^ 32] := by
    rw [Int32.toInt_div]
    exact Int.bmod_emod
  calc (l / r).toInt * r.toInt + (l % r).toInt
      ≡ l.toInt.tdiv r.toInt * r.toInt + l.toInt.tmod r.toInt [ZMOD 2 ^ 32] := by
        rw [Int32.toInt_mod]
        exact (hquotient.mul_right _).add_right _
    _ = l.toInt := Int.tdiv_mul_add_tmod _ _

theorem natAbs_mod_lt {r : Int32} (l : Int32) (hr : r ≠ 0) :
    (l % r).toInt.natAbs < r.toInt.natAbs := by
  have hpos : 0 < r.toInt.natAbs :=
    Int.natAbs_pos.mpr fun h => hr (Int32.toInt_inj.mp h)
  rw [Int32.toInt_mod, Int.natAbs_tmod]
  exact Nat.mod_lt _ hpos

theorem sign_mod {l r : Int32} (h : l % r ≠ 0) : (l % r).toInt.sign = l.toInt.sign := by
  have hne : (l % r).toInt ≠ 0 := fun hzero => h (Int32.toInt_inj.mp hzero)
  rw [Int32.toInt_mod] at hne ⊢
  rw [Int.sign_tmod, if_neg (fun hdvd => hne (Int.tmod_eq_zero_of_dvd hdvd))]

-- A source that prints one expression of integers is compiled, written, read back and run without
-- a fault, and prints the one number in range that is congruent to the value of the expression. The
-- quotient and the remainder of any two integers, the divisor not zero, give back the dividend in
-- the same sense; the remainder is smaller than the divisor and has the sign of the dividend. With a
-- divisor of zero either division raises its own fault.
theorem run_integers_modulo :
    (∀ source e x, Lexable source → IsProgram (sourceTokens source) [e] → e.Exact x →
      ∃ b file n, (compile source).rejection = none ∧ (compile source).bytecode = some b ∧
        b.encode = .ok file ∧ Bytecode.decode file = .ok b ∧ (load b).run.error = none ∧
        (load b).run.machine.halted = true ∧ (load b).run.output = Text.ofInt n ++ [10] ∧
        ∀ k, (-2 ^ 31 ≤ k ∧ k < 2 ^ 31 ∧ k ≡ x [ZMOD 2 ^ 32]) ↔ k = n) ∧
    ∀ program arg l r stack,
      (r ≠ 0 → ∃ q m : Int32,
        execute program ⟨Operation.idiv.code, arg⟩ (.int r :: .int l :: stack) =
          .ok .next (.int q :: stack) ∧
        execute program ⟨Operation.imod.code, arg⟩ (.int r :: .int l :: stack) =
          .ok .next (.int m :: stack) ∧
        q.toInt * r.toInt + m.toInt ≡ l.toInt [ZMOD 2 ^ 32] ∧
        m.toInt.natAbs < r.toInt.natAbs ∧ (m ≠ 0 → m.toInt.sign = l.toInt.sign)) ∧
      (r = 0 →
        execute program ⟨Operation.idiv.code, arg⟩ (.int r :: .int l :: stack) =
          .error .divisionByZero stack ∧
        execute program ⟨Operation.imod.code, arg⟩ (.int r :: .int l :: stack) =
          .error .moduloByZero stack) := by
  refine ⟨fun source e x hlexable hprogram he => ?_, fun program arg l r stack => ⟨?_, ?_⟩⟩
  · obtain ⟨b, file, hcompile, hencode, hdecode, herror, hhalted, houtput⟩ :=
      run_exact hlexable hprogram he
    refine ⟨b, file, _, ?_, ?_, hencode, hdecode, herror, hhalted, houtput,
      toInt_ofInt_unique x⟩
    · rw [hcompile]
    · rw [hcompile]
  · intro hr
    refine ⟨l / r, l % r, ?_, ?_, div_mul_add_mod l r, natAbs_mod_lt l hr, sign_mod⟩
    · rw [execute_idiv, if_neg hr]
    · rw [execute_imod, if_neg hr]
  · intro hr
    rw [execute_idiv, execute_imod, if_pos hr, if_pos hr]
    exact ⟨rfl, rfl⟩

-- The sum is out of range and the product far out of it; the least integer is congruent to it. It
-- has a quotient and a remainder by minus one.
theorem run_integers_modulo_least :
    (∃ b, (compile "escreve (2147483647 + 1) * -3;").bytecode = some b ∧
      (load b).run.error = none ∧ (load b).run.output = "-2147483648\n") ∧
    ∃ q m : Int32,
      execute {} (.of .idiv) [.int (-1), .int Int32.minValue] = .ok .next [.int q] ∧
      execute {} (.of .imod) [.int (-1), .int Int32.minValue] = .ok .next [.int m] ∧
      m.toInt.natAbs < 1 := by
  obtain ⟨hrun, hdivide⟩ := run_integers_modulo
  constructor
  · have hlexable : Lexable "escreve (2147483647 + 1) * -3;" :=
      lexicalErrors_eq_nil_iff.mp (by decide +kernel)
    have hprogram : IsProgram (sourceTokens "escreve (2147483647 + 1) * -3;")
        [.binary default .multiplicative .mul (.paren default (.binary default .additive .plus
          (.int default 2147483647) (.int default 1))) (.neg default (.int default 3))] :=
      ((Parser.isProgram_tokens_iff _ _).mpr ⟨by decide +kernel, by decide +kernel⟩).1
    obtain ⟨b, file, n, -, hb, -, -, herror, -, houtput, hn⟩ := hrun _ _ _ hlexable hprogram
      (.mul (.paren (.add (.int (by decide) (by decide)) (.int (by decide) (by decide))))
        (.neg (.int (by decide) (by decide))))
    obtain rfl : -2147483648 = n := (hn (-2147483648)).mp (by decide)
    exact ⟨b, hb, herror, houtput.trans (by decide +kernel)⟩
  · obtain ⟨q, m, hq, hm, -, hlt, -⟩ := (hdivide {} 0 Int32.minValue (-1) []).1 (by decide)
    exact ⟨q, m, hq, hm, hlt⟩

end Tuga
