import Tuga.Proofs.Codegen.Expression
import Tuga.Proofs.Machine.Follow
import Tuga.Proofs.Tree.Parsed

namespace Tuga

open Machine

namespace Codegen

theorem exists_printing (t : ValueType) :
    ∃ o : Operation, printing (.typed t) = [.of o] ∧ o.isPrint = true ∧
      ∀ program v, v.type = t → execute program (.of o) [v] = .ok (.print v) [] := by
  cases t
  case integer => exact ⟨.iprint, rfl, rfl, fun program v hv => by cases v <;> cases hv; rfl⟩
  case real => exact ⟨.dprint, rfl, rfl, fun program v hv => by cases v <;> cases hv; rfl⟩
  case boolean => exact ⟨.bprint, rfl, rfl, fun program v hv => by cases v <;> cases hv; rfl⟩
  case text => exact ⟨.sprint, rfl, rfl, fun program v hv => by cases v <;> cases hv; rfl⟩

section Statements

variable {types : TypeMap} {s : Statement} {ss : List Statement} {pool pool' : List Constant}
  {code : List Instruction}

-- The code of a statement ends with the one instruction in it that prints.
theorem statement_eq_ok (hs : s.value.Annotated types)
    (h : statement types s pool = .ok (code, pool')) :
    ∃ (is : List Instruction) (o : Operation), code = is ++ [.of o] ∧
      Lowered s.value pool is pool' ∧ o.isPrint = true ∧
      ∀ program read v, s.value.evaluate read = .ok v →
        execute program (.of o) [v] = .ok (.print v) [] := by
  obtain ⟨t, ht, htypes⟩ := hs.exists_type
  obtain ⟨o, hprinting, hprint, hexecute⟩ := exists_printing t
  simp only [statement, typeOf_eq htypes, pure_bind, stateT_bind_eq_ok, stateT_pure_eq_ok] at h
  obtain ⟨is, mid, his, rfl, rfl⟩ := h
  refine ⟨is, o, by rw [hprinting], expression_lowered hs his, hprint, ?_⟩
  exact fun program read v hv => hexecute program v (hs.type_evaluate ht hv)

theorem statements_cons_eq_ok :
    statements types (s :: ss) pool = .ok (code, pool') ↔
      ∃ is mid more, statement types s pool = .ok (is, mid) ∧
        statements types ss mid = .ok (more, pool') ∧ code = is ++ more := by
  simp only [statements, stateT_bind_eq_ok, stateT_pure_eq_ok]
  constructor
  · rintro ⟨is, mid, his, more, last, hmore, rfl, rfl⟩
    exact ⟨is, mid, more, his, hmore, rfl⟩
  · rintro ⟨is, mid, more, his, hmore, rfl⟩
    exact ⟨is, mid, his, more, pool', hmore, rfl, rfl⟩

theorem statements_emits (hs : ∀ s ∈ ss, s.value.Annotated types)
    (h : statements types ss pool = .ok (code, pool')) : Emits pool code pool' := by
  induction ss generalizing pool code with
  | nil =>
      obtain ⟨rfl, rfl⟩ := stateT_pure_eq_ok.mp h
      exact .of_plain _ (by simp)
  | cons s ss ih =>
      rw [List.forall_mem_cons] at hs
      obtain ⟨is, mid, more, his, hmore, rfl⟩ := statements_cons_eq_ok.mp h
      obtain ⟨is, o, rfl, hlowered, -, -⟩ := statement_eq_ok hs.1 his
      have hprint := Emits.of_plain mid (List.forall_mem_singleton.mpr (plain_of o))
      exact (hlowered.emits.append hprint).append (ih hs.2 hmore)

theorem statements_prints {program : Bytecode} {read : Text → Text}
    (hs : ∀ s ∈ ss, s.value.Annotated types) (h : statements types ss pool = .ok (code, pool'))
    (hpool : program.Holds read pool') :
    Prints program code (evaluateAll read ss).1 (evaluateAll read ss).2 := by
  induction ss generalizing pool code with
  | nil =>
      obtain ⟨rfl, rfl⟩ := stateT_pure_eq_ok.mp h
      exact .nil
  | cons s ss ih =>
      rw [List.forall_mem_cons] at hs
      obtain ⟨is, mid, more, his, hmore, rfl⟩ := statements_cons_eq_ok.mp h
      obtain ⟨is, o, rfl, hlowered, -, hexecute⟩ := statement_eq_ok hs.1 his
      have hcomputes := hlowered.computes program read
        (hpool.mono (statements_emits hs.2 hmore).grows)
      rw [evaluateAll, List.append_assoc]
      cases hvalue : s.value.evaluate read with
      | error failure => exact .error (hvalue ▸ hcomputes)
      | ok v => exact .cons (hvalue ▸ hcomputes) (hexecute program read v hvalue) (ih hs.2 hmore)

-- Code up to an instruction that prints is the code of the statements up to there.
theorem statements_take {n : Nat} {i : Instruction} (hs : ∀ s ∈ ss, s.value.Annotated types)
    (h : statements types ss pool = .ok (code, pool')) (hi : code[n]? = some i)
    (hprint : ¬Silent i) :
    ∃ first mid, (∀ s ∈ first, s ∈ ss) ∧ mid <+: pool' ∧
      statements types first pool = .ok (code.take (n + 1), mid) := by
  induction ss generalizing pool code n with
  | nil =>
      obtain ⟨rfl, rfl⟩ := stateT_pure_eq_ok.mp h
      simp at hi
  | cons s ss ih =>
      rw [List.forall_mem_cons] at hs
      obtain ⟨is, mid, more, his, hmore, rfl⟩ := statements_cons_eq_ok.mp h
      by_cases hn : n < is.length
      · rw [List.getElem?_append_left hn] at hi
        refine ⟨[s], mid, by simp, (statements_emits hs.2 hmore).grows, ?_⟩
        obtain ⟨is, o, rfl, hlowered, -, -⟩ := statement_eq_ok hs.1 his
        have hlast : n = is.length := by
          by_cases hlt : n < is.length
          · rw [List.getElem?_append_left hlt] at hi
            exact absurd (hlowered.silent i (List.mem_of_getElem? hi)) hprint
          · rw [List.length_append, List.length_singleton] at hn
            omega
        refine statements_cons_eq_ok.mpr ⟨_, mid, [], his, rfl, ?_⟩
        rw [List.append_nil, hlast, List.take_append_of_le_length (by simp),
          List.take_of_length_le (by simp)]
      · have hle : is.length ≤ n := Nat.le_of_not_lt hn
        rw [List.getElem?_append_right hle] at hi
        obtain ⟨first, last, hfirst, hlast, hstatements⟩ := ih hs.2 hmore hi
        refine ⟨s :: first, last, ?_, hlast, ?_⟩
        · exact List.cons_subset_cons s hfirst
        · refine statements_cons_eq_ok.mpr ⟨is, mid, _, his, hstatements, ?_⟩
          have htake : n + 1 = is.length + (n - is.length + 1) := by omega
          rw [htake, List.take_length_add_append]

end Statements

end Codegen

theorem Bytecode.holds_mapTexts {b : Bytecode} (read : Text → Text)
    (hlength : b.constants.length ≤ 0x80000000) : (b.mapTexts read).Holds read b.constants :=
  .of_length rfl hlength

theorem length_evaluateAll {read : Text → Text} {ss : List Statement}
    (h : (evaluateAll read ss).2 = none) : (evaluateAll read ss).1.length = ss.length := by
  induction ss with
  | nil => rfl
  | cons s ss ih =>
      rw [evaluateAll] at h ⊢
      split at h
      · rw [List.length_cons, ih h, List.length_cons]
      · cases h

namespace Program

variable {p : Program} {b : Bytecode}

theorem generate_eq_ok {types : TypeMap} (h : p.generate types = .ok b) :
    ∃ code, Codegen.statements types p.statements [] = .ok (code, b.constants) ∧
      b.code = code ++ [.of .halt] := by
  obtain ⟨⟨code, pool⟩, hcode, hb⟩ := bind_eq_ok.mp h
  cases hb
  exact ⟨code, hcode, rfl⟩

-- With its texts read in any way, a generated program prints what evaluation gives.
theorem generate_prints (hp : p.Built) (hc : p.check.errors = [])
    (hb : p.generate p.check.types = .ok b) (hlength : b.constants.length ≤ 0x80000000)
    (read : Text → Text) :
    ∃ code, b.code = code ++ [.of .halt] ∧
      Prints (b.mapTexts read) code (p.evaluate read).1 (p.evaluate read).2 := by
  obtain ⟨code, hcode, hhalt⟩ := generate_eq_ok hb
  refine ⟨code, hhalt, ?_⟩
  exact Codegen.statements_prints (hp.annotated hc) hcode (b.holds_mapTexts read hlength)

-- The program in file form prints one line for each value of the tree. If evaluation comes to the
-- end the machine halts with an empty stack; else it stops with the fault of the failure.
theorem run_generate_fileForm (hp : p.Built) (hc : p.check.errors = [])
    (hb : p.generate p.check.types = .ok b) (hlength : b.constants.length ≤ 0x80000000) :
    (load b.fileForm).run.output = Value.lines (p.evaluate Text.unquote).1 ∧
      match (p.evaluate Text.unquote).2 with
      | none =>
        (load b.fileForm).run.error = none ∧ (load b.fileForm).run.machine.halted = true ∧
          (load b.fileForm).run.machine.stack = [] ∧
          (p.evaluate Text.unquote).1.length = p.statements.length
      | some failure =>
        ∃ fault pc op, failure.fault? = some fault ∧ fault.RaisedBy op ∧
          (load b.fileForm).run.error = some (.fault fault pc op) ∧
          (load b.fileForm).run.machine.halted = false := by
  obtain ⟨code, hcode, hprints⟩ := generate_prints hp hc hb hlength Text.unquote
  rw [Bytecode.fileForm_eq_mapTexts]
  split
  · rename_i hnone
    rw [hnone] at hprints
    rw [hprints.run_finishes hcode]
    exact ⟨rfl, rfl, rfl, rfl, length_evaluateAll hnone⟩
  · rename_i failure hfailure
    rw [hfailure] at hprints
    obtain ⟨fault, pc, i, stopped, hfault, -, hraised, -, hhalted, hrun⟩ :=
      hprints.run_stops hcode
    rw [hrun]
    exact ⟨rfl, fault, pc, i.op, hfault, hraised, rfl, hhalted⟩

-- The sum wraps around before it is printed, and the second statement stops the program.
theorem run_generate_fileForm_modulo :
    ∃ (p : Program) (b : Bytecode), p.Built ∧ p.check.errors = [] ∧
      p.generate p.check.types = .ok b ∧ b.constants.length ≤ 0x80000000 ∧
      (load b.fileForm).run.output = "n0.5-2147483648\n" ∧
      ∃ pc op, (load b.fileForm).run.error = some (.fault .moduloByZero pc op) := by
  have hbuilt :=
    Parser.built_parse "escreve \"n\" + 0.5 + (2147483647 + 1); escreve 7 % 0;"
  generalize hp : (Program.parse "escreve \"n\" + 0.5 + (2147483647 + 1); escreve 7 % 0;").1 = p
    at hbuilt
  have hcheck : p.check.errors = [] := by
    subst hp
    decide +kernel
  have hgenerate : p.generate p.check.types = .ok
      { constants := [.ofText "\"n\"", .ofReal ⟨0x3FE0000000000000⟩]
        code := [⟨Operation.sconst.code, 0⟩, ⟨Operation.dconst.code, 1⟩, .of .dtos, .of .sconcat,
          ⟨Operation.iconst.code, 2147483647⟩, ⟨Operation.iconst.code, 1⟩, .of .iadd, .of .itos,
          .of .sconcat, .of .sprint, ⟨Operation.iconst.code, 7⟩, ⟨Operation.iconst.code, 0⟩,
          .of .imod, .of .iprint, .of .halt] } := by
    subst hp
    decide +kernel
  have hevaluate : p.evaluate Text.unquote = ([.text "n0.5-2147483648"], some .moduloByZero) := by
    subst hp
    decide +kernel
  obtain ⟨houtput, hfailure⟩ :=
    run_generate_fileForm hbuilt hcheck hgenerate (by decide)
  rw [hevaluate] at houtput hfailure
  obtain ⟨fault, pc, op, hfault, -, herror, -⟩ := hfailure
  cases hfault
  exact ⟨p, _, hbuilt, hcheck, hgenerate, by decide, houtput, pc, op, herror⟩

end Program

end Tuga
