import Tuga.Proofs.Codegen.Constants

namespace Tuga

namespace Bytecode

-- A call that adds to a program.
inductive Call where
  | addConstant (c : Constant)
  | emit (op : Opcode)
  | emitWithOperand (op : Opcode) (arg : Int32)
  | emitReal (value : Real64)
  | emitText (value : Text)
  deriving DecidableEq, Repr

namespace Call

def run (call : Call) (b : Bytecode) : Nat × Bytecode :=
  match call with
  | addConstant c => b.addConstant c
  | emit op => b.emit ⟨op, 0⟩
  | emitWithOperand op arg => b.emit ⟨op, arg⟩
  | emitReal value => b.emitConstant .dconst (.ofReal value)
  | emitText value => b.emitConstant .sconst (.ofText value)

-- The constant that a call adds, if it is not there.
def constant? : Call → Option Constant
  | addConstant c => some c
  | emitReal value => some (.ofReal value)
  | emitText value => some (.ofText value)
  | _ => none

end Call

def after (b : Bytecode) (calls : List Call) : Bytecode :=
  calls.foldl (fun b call => (call.run b).2) b

def build (calls : List Call) : Bytecode := after {} calls

-- The instruction at an index of a program loads a constant with a given property.
def Loads (b : Bytecode) (index : Nat) (op : Operation) (value : Constant → Prop) : Prop :=
  ∃ arg c, b.code[index]? = some ⟨op.code, arg⟩ ∧ b.constant? arg = some c ∧ value c

-- What calls leave: a pool of the constants that were added, each once and in order, indices that
-- lead to the constant that was given, after all later calls too, and loads of the given values.
structure Pooled (calls : List Call) : Prop where
  distinct : ∀ (i j : Nat) (c d : Constant), (build calls).constants[i]? = some c →
    (build calls).constants[j]? = some d → c.same d → i = j
  ordered : (build calls).constants = (calls.filterMap Call.constant?).eraseDupsBy Constant.same
  index : ∀ before c more, calls = before ++ .addConstant c :: more →
    ∃ d, d.same c ∧ ∀ later, later <+: more →
      (build (before ++ .addConstant c :: later)).constant?
        (Int32.ofNat ((build before).addConstant c).1) = some d
  real : ∀ before value more, calls = before ++ .emitReal value :: more →
    (build calls).Loads ((Call.emitReal value).run (build before)).1 .dconst
      fun c => c.kind = .real ∧ c.real = value
  text : ∀ before value more, calls = before ++ .emitText value :: more →
    (build calls).Loads ((Call.emitText value).run (build before)).1 .sconst
      fun c => c.kind = .text ∧ c.text = value

end Bytecode

section Same

variable {pool : List Constant} {c d : Constant}

theorem Constant.same_comm (c d : Constant) : c.same d = d.same c := by
  by_cases hkind : c.kind = d.kind
  · simp only [same, hkind, eq_comm (a := c.real), eq_comm (a := c.text)]
  · simp [same, hkind, Ne.symm hkind]

-- A pool in which no two entries are the same value.
def Distinct (pool : List Constant) : Prop := pool.Pairwise fun c d => c.same d = false

theorem distinct_pooled (hpool : Distinct pool) (c : Constant) : Distinct (pooled pool c).2 := by
  rw [pooled]
  split
  · exact hpool
  · rename_i hnone
    rw [List.findIdx?_eq_none_iff] at hnone
    refine List.pairwise_append.mpr ⟨hpool, List.pairwise_singleton _ _, ?_⟩
    intro d hd e he
    rw [List.mem_singleton.mp he]
    exact hnone d hd

theorem distinct_pooledAll (hpool : Distinct pool) (constants : List Constant) :
    Distinct (pooledAll pool constants) := by
  induction constants generalizing pool with
  | nil => exact hpool
  | cons c constants ih => exact ih (distinct_pooled hpool c)

theorem Distinct.index_eq (hpool : Distinct pool) {i j : Nat} (hc : pool[i]? = some c)
    (hd : pool[j]? = some d) (hsame : c.same d) : i = j := by
  obtain ⟨hi, rfl⟩ := List.getElem?_eq_some_iff.mp hc
  obtain ⟨hj, rfl⟩ := List.getElem?_eq_some_iff.mp hd
  have hlt := List.pairwise_iff_getElem.mp hpool
  rcases Nat.lt_trichotomy i j with h | h | h
  · rw [hlt i j hi hj h] at hsame
    cases hsame
  · exact h
  · rw [Constant.same_comm, hlt j i hj hi h] at hsame
    cases hsame

theorem pooledAll_eq_loop (pool constants : List Constant) :
    pooledAll pool constants = List.eraseDupsBy.loop Constant.same constants pool.reverse := by
  induction constants generalizing pool with
  | nil => simp [pooledAll, List.eraseDupsBy.loop]
  | cons c constants ih =>
      change pooledAll (pooled pool c).2 constants = _
      rw [ih, List.eraseDupsBy.loop, pooled]
      cases hfind : pool.findIdx? (·.same c) with
      | some i =>
          have hany : pool.reverse.any (c.same ·) = true := by
            obtain ⟨hlt, hsame, -⟩ := List.findIdx?_eq_some_iff_getElem.mp hfind
            rw [List.any_reverse, List.any_eq_true]
            exact ⟨pool[i], List.getElem_mem hlt, by rw [c.same_comm]; exact hsame⟩
          rw [hany]
      | none =>
          have hany : pool.reverse.any (c.same ·) = false := by
            rw [List.findIdx?_eq_none_iff] at hfind
            rw [List.any_reverse, List.any_eq_false]
            intro d hd
            rw [c.same_comm, hfind d hd]
            exact Bool.false_ne_true
          rw [hany, List.reverse_append, List.reverse_singleton, List.singleton_append]

theorem pooledAll_nil (constants : List Constant) :
    pooledAll [] constants = constants.eraseDupsBy Constant.same :=
  pooledAll_eq_loop [] constants

end Same

namespace Bytecode

variable {b : Bytecode} {calls before more : List Call} {c : Constant}

theorem Call.constants_run (call : Call) (b : Bytecode) :
    (call.run b).2.constants = pooledAll b.constants call.constant?.toList := by
  cases call <;> rfl

theorem Call.prefix_code_run (call : Call) (b : Bytecode) : b.code <+: (call.run b).2.code := by
  cases call with
  | addConstant c => exact List.prefix_refl b.code
  | _ => exact List.prefix_append b.code _

theorem after_append (b : Bytecode) (calls more : List Call) :
    b.after (calls ++ more) = (b.after calls).after more :=
  List.foldl_append

theorem build_append (calls more : List Call) :
    build (calls ++ more) = (build calls).after more :=
  after_append {} calls more

theorem constants_after (b : Bytecode) (calls : List Call) :
    (b.after calls).constants = pooledAll b.constants (calls.filterMap Call.constant?) := by
  induction calls generalizing b with
  | nil => rfl
  | cons call calls ih =>
      change ((call.run b).2.after calls).constants = _
      rw [ih, call.constants_run]
      cases hc : call.constant? with
      | none => rw [List.filterMap_cons_none hc]; rfl
      | some c => rw [List.filterMap_cons_some hc]; rfl

theorem prefix_constants_after (b : Bytecode) (calls : List Call) :
    b.constants <+: (b.after calls).constants := by
  rw [constants_after]
  exact prefix_pooledAll b.constants _

theorem prefix_code_after (b : Bytecode) (calls : List Call) : b.code <+: (b.after calls).code := by
  induction calls generalizing b with
  | nil => exact List.prefix_refl b.code
  | cons call calls ih => exact (call.prefix_code_run b).trans (ih (call.run b).2)

-- An entry that is there after a call is found after all later calls.
theorem constant?_after {index : Nat} (hlength : (b.after calls).constants.length ≤ 0x80000000)
    (hc : b.constants[index]? = some c) :
    (b.after calls).constant? (Int32.ofNat index) = some c :=
  constant?_ofNat hlength (getElem?_of_extends (prefix_constants_after b calls) hc)

-- A load that is emitted finds the constant it was emitted for.
theorem loads_emitConstant (b : Bytecode) (op : Operation) (c : Constant) (later : List Call)
    (hlength : ((b.emitConstant op c).2.after later).constants.length ≤ 0x80000000) :
    ((b.emitConstant op c).2.after later).Loads (b.emitConstant op c).1 op (·.same c) := by
  obtain ⟨d, hd, hsame⟩ := getElem?_pooled b.constants c
  refine ⟨Int32.ofNat (pooled b.constants c).1, d, ?_, constant?_after hlength hd, hsame⟩
  refine getElem?_of_extends (prefix_code_after (b.emitConstant op c).2 later) ?_
  exact List.getElem?_concat_length

theorem Loads.imp {index : Nat} {op : Operation} {value other : Constant → Prop}
    (h : b.Loads index op value) (himp : ∀ c, value c → other c) : b.Loads index op other := by
  obtain ⟨arg, c, hcode, hc, hvalue⟩ := h
  exact ⟨arg, c, hcode, hc, himp c hvalue⟩

theorem pooled_of_length (h : (build calls).constants.length ≤ 0x80000000) : Pooled calls where
  distinct := by
    have hdistinct : Distinct (build calls).constants := by
      rw [build, constants_after]
      exact distinct_pooledAll List.Pairwise.nil _
    exact fun i j c d hc hd hsame => hdistinct.index_eq hc hd hsame
  ordered := by
    rw [build, constants_after, ← pooledAll_nil]
  index := by
    rintro before c more rfl
    obtain ⟨d, hd, hsame⟩ := getElem?_pooled (build before).constants c
    refine ⟨d, hsame, ?_⟩
    rintro later ⟨rest, rfl⟩
    have hprefix := prefix_constants_after (build (before ++ .addConstant c :: later)) rest
    rw [← build_append, List.append_assoc, List.cons_append] at hprefix
    have hlength := Nat.le_trans hprefix.length_le h
    rw [build_append] at hlength ⊢
    exact constant?_after (b := ((build before).addConstant c).2) hlength hd
  real := by
    rintro before value more rfl
    rw [build_append] at h ⊢
    exact (loads_emitConstant (build before) .dconst (.ofReal value) more h).imp
      fun c hc => Constant.same_ofReal hc
  text := by
    rintro before value more rfl
    rw [build_append] at h ⊢
    exact (loads_emitConstant (build before) .sconst (.ofText value) more h).imp
      fun c hc => Constant.same_ofText hc

end Bytecode

theorem eraseDupsBy_same {constants : List Constant} (h : ∀ c ∈ constants, c.IsLiteral) :
    constants.eraseDupsBy Constant.same = constants.eraseDups := by
  have hloop : ∀ kept : List Constant, (∀ c ∈ kept, c.IsLiteral) →
      List.eraseDupsBy.loop Constant.same constants kept =
        List.eraseDupsBy.loop (· == ·) constants kept := by
    induction constants with
    | nil => exact fun kept _ => rfl
    | cons c constants ih =>
        rw [List.forall_mem_cons] at h
        intro kept hkept
        have hany : kept.any (c.same ·) = kept.any (c == ·) := by
          rw [Bool.eq_iff_iff, List.any_eq_true, List.any_eq_true]
          simp only [beq_iff_eq]
          refine exists_congr fun d => and_congr_right fun hd => ?_
          refine ⟨h.1.eq_of_same (hkept d hd), ?_⟩
          rintro rfl
          exact c.same_self
        rw [List.eraseDupsBy.loop, List.eraseDupsBy.loop, hany]
        split
        · exact ih h.2 kept hkept
        · exact ih h.2 _ (List.forall_mem_cons.mpr ⟨h.1, hkept⟩)
  exact hloop [] (by simp)

namespace Bytecode

-- Whatever is called, the pool has the added constants, each once and in order, and indices and
-- loads lead to what was given, as long as they fit an operand. A compiled source has the values of
-- its real and text literals, each once and in order.
theorem build_pools_constants :
    (∀ calls, (build calls).constants.length < 0x80000000 → Pooled calls) ∧
    ∀ source b, (compile source).bytecode = some b →
      b.constants = ((sourceTokens source).filterMap Token.constant?).eraseDups := by
  refine ⟨fun calls h => pooled_of_length (Nat.le_of_lt h), fun source b hb => ?_⟩
  have haccepted : (compile source).rejection = none := by
    rw [← (compile_outcome source).isSome_bytecode_iff, hb]
    rfl
  have hliterals : ∀ c ∈ (sourceTokens source).filterMap Token.constant?, c.IsLiteral := by
    intro c hc
    obtain ⟨t, -, ht⟩ := List.mem_filterMap.mp hc
    exact Token.isLiteral_of_constant? ht
  rw [constants_of_rejection_eq_none haccepted hb, pooledAll_nil, eraseDupsBy_same hliterals]

-- A number that is none is pooled once, the two zeros are kept apart, and so are a text and an
-- entry of no known kind with the same bytes. A text beside a real makes no difference.
theorem build_pools_constants_zeros :
    let nan : Real64 := ⟨0x7ff8000000000001⟩
    let negative : Real64 := ⟨0x8000000000000000⟩
    let calls : List Call := [.emitReal nan, .emitReal ⟨0⟩, .emitReal negative, .emit ⟨255⟩,
      .addConstant ⟨⟨7⟩, ⟨0⟩, "a"⟩, .emitText "a", .emitWithOperand Operation.dconst.code (-1),
      .addConstant ⟨.real, ⟨0⟩, "b"⟩, .emitReal nan, .emitText "a"]
    (build calls).constants =
      [.ofReal nan, .ofReal ⟨0⟩, .ofReal negative, ⟨⟨7⟩, ⟨0⟩, "a"⟩, .ofText "a"] ∧
    Pooled calls := by
  intro nan negative calls
  have hpool : (build calls).constants =
      [.ofReal nan, .ofReal ⟨0⟩, .ofReal negative, ⟨⟨7⟩, ⟨0⟩, "a"⟩, .ofText "a"] := by
    decide
  exact ⟨hpool, build_pools_constants.1 calls (by rw [hpool]; decide)⟩

end Bytecode

end Tuga
