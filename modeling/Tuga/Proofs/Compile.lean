import Tuga.Compile
import Tuga.Proofs.Codegen.Refinement
import Tuga.Proofs.Tree.Parsed

namespace Tuga

open Machine Text

variable {source : Text} {p : Program} {b : Bytecode}

theorem check_eq (source : Text) :
    check source =
      let (tree, reader) := Program.parse source
      if !reader.lexicalErrors.isEmpty then
        { tree, rejection := some (.lexical reader.lexicalErrors) }
      else if !reader.syntactic.isEmpty then
        { tree, rejection := some (.parsing reader.syntactic) }
      else if !tree.check.errors.isEmpty then
        { tree, types := some tree.check.types, rejection := some (.typing tree.check.errors) }
      else { tree, types := some tree.check.types } := by
  rw [check, checkShowing]
  dsimp only
  split
  · rfl
  · split
    · rfl
    · split
      · rfl
      · rfl

theorem compile_eq (source : Text) : compile source = (check source).generate := rfl

theorem check_eq_of_rejection_eq_none (h : (check source).rejection = none) :
    (Program.parse source).1.check.errors = [] ∧
      check source = { tree := (Program.parse source).1,
                       types := some (Program.parse source).1.check.types } := by
  rw [check_eq] at h ⊢
  dsimp only at h ⊢
  split at h
  · cases h
  · split at h
    · cases h
    · split at h
      · cases h
      · rename_i hlexical hsyntactic htyping
        rw [if_neg hlexical, if_neg hsyntactic, if_neg htyping]
        simpa using htyping

theorem compile_eq_of_rejection_eq_none (h : (compile source).rejection = none) :
    ∃ b, compile source = { tree := (Program.parse source).1,
                            types := some (Program.parse source).1.check.types,
                            bytecode := some b } ∧
      (Program.parse source).1.check.errors = [] ∧
      (Program.parse source).1.generate (Program.parse source).1.check.types = .ok b := by
  have hchecked : (check source).rejection = none := by
    cases hr : (check source).rejection with
    | none => rfl
    | some r => simp [compile_eq, Compilation.generate, hr] at h
  obtain ⟨herrors, heq⟩ := check_eq_of_rejection_eq_none hchecked
  simp only [compile_eq, Compilation.generate, heq] at h ⊢
  split at h
  · rename_i b hb
    exact ⟨b, rfl, herrors, hb⟩
  · cases h

theorem generate_of_rejection_eq_none (h : (compile source).rejection = none) :
    ∃ b, (compile source).bytecode = some b ∧ (Program.parse source).1.check.errors = [] ∧
      (Program.parse source).1.generate (Program.parse source).1.check.types = .ok b := by
  obtain ⟨b, hcompile, herrors, hgenerate⟩ := compile_eq_of_rejection_eq_none h
  exact ⟨b, by rw [hcompile], herrors, hgenerate⟩

theorem Program.generate_writable (hp : p.Built) (hc : p.check.errors = [])
    (hb : p.generate p.check.types = .ok b) (hcount : b.constants.length < 0x80000000)
    (hunits : ∀ c ∈ b.constants, c.text.unquote.utf16.length < 0x80000000) :
    b.Writable ∧ ∀ i ∈ b.code, i.Plain := by
  obtain ⟨code, hcode, hhalt⟩ := Program.generate_eq_ok hb
  have hemits := Codegen.statements_emits (hp.annotated hc) hcode
  have hplain : ∀ i ∈ b.code, i.Plain := by
    rw [hhalt]
    exact List.forall_mem_append.mpr
      ⟨hemits.plain, List.forall_mem_singleton.mpr (Codegen.plain_of .halt)⟩
  refine ⟨⟨?_, fun i hi => (hplain i hi).1, hcount, hunits⟩, hplain⟩
  intro c hc
  rcases hemits.constants c hc with hnil | hproper
  · cases hnil
  · exact hproper

-- A file keeps everything but ill-formed texts.
theorem Bytecode.normalised_fileForm_of_plain (h : ∀ i ∈ b.code, i.Plain) :
    b.fileForm.normalised = b.mapTexts fun t => repaired t.unquote := by
  have hcode : b.code.map Instruction.settled = b.code :=
    (map_eq_self_iff _ _).mpr fun i hi => settled_of_plain (h i hi)
  have htexts : ∀ c : Constant,
      (c.mapText unquote).mapText repaired = c.mapText fun t => repaired t.unquote := by
    intro c
    by_cases hkind : c.kind = .text
    · simp [Constant.mapText, hkind]
    · simp [Constant.mapText, hkind]
  simp only [fileForm_eq_mapTexts, normalised, mapTexts, List.map_map, hcode, Bytecode.mk.injEq,
    and_true]
  exact List.map_congr_left fun c _ => htexts c

-- How a program may end: at its last instruction, which halts, with an empty stack and every
-- instruction executed once; or at an instruction that divides by zero.
inductive Machine.Outcome.Ends (program : Bytecode) (o : Outcome) : Prop
  | halted (error : o.error = none) (halted : o.machine.halted = true)
      (stack : o.machine.stack = []) (pc : o.machine.pc + 1 = program.code.length)
      (last : program.code[o.machine.pc]? = some (.of .halt))
      (steps : o.machine.steps = program.code.length)
  | divided {fault : Fault} {pc : Nat} {i : Instruction} (raised : fault.RaisedBy i.op)
      (error : o.error = some (.fault fault pc i.op)) (instruction : program.code[pc]? = some i)

theorem Machine.Prints.ends {program : Bytecode} {code : List Instruction} {values : List Value}
    {failure? : Option Failure} (h : Prints program code values failure?)
    (hcode : program.code = code ++ [.of .halt]) : (load program).run.Ends program := by
  cases failure? with
  | none =>
      rw [h.run_finishes hcode]
      refine .halted rfl rfl rfl ?_ ?_ ?_
      · simp [hcode]
      · simp [hcode]
      · simp [hcode]
  | some failure =>
      obtain ⟨fault, pc, i, stopped, -, hi, hraised, -, -, hrun⟩ := h.run_stops hcode
      exact .divided hraised (by rw [hrun]) hi

-- The stack of a generated program is empty after every instruction that prints.
theorem Program.stack_after_print (hp : p.Built) (hc : p.check.errors = [])
    (hb : p.generate p.check.types = .ok b) (hlength : b.constants.length ≤ 0x80000000)
    (read : Text → Text) {n : Nat} {i : Instruction} (hi : b.code[n]? = some i)
    (hprint : i.op.operation?.any Operation.isPrint = true)
    (herror : ((load (b.mapTexts read)).follow (b.code.take (n + 1))).error = none) :
    ((load (b.mapTexts read)).follow (b.code.take (n + 1))).machine.stack = [] := by
  obtain ⟨code, hcode, hhalt⟩ := Program.generate_eq_ok hb
  have hn : n < code.length := by
    by_cases hlt : n < code.length
    · exact hlt
    · rw [hhalt, List.getElem?_append_right (Nat.le_of_not_lt hlt)] at hi
      obtain rfl := List.mem_singleton.mp (List.mem_of_getElem? hi)
      cases hprint
  rw [hhalt, List.getElem?_append_left hn] at hi
  have hannotated := hp.annotated hc
  obtain ⟨first, mid, hfirst, hmid, htake⟩ := Codegen.statements_take hannotated hcode hi
    (by simp [Codegen.Silent, hprint])
  have hprints := Codegen.statements_prints (fun s hs => hannotated s (hfirst s hs)) htake
    ((b.holds_mapTexts read hlength).mono hmid)
  rw [hhalt, List.take_append_of_le_length hn] at herror ⊢
  exact hprints.stack_eq_nil herror

-- An accepted source has a program that can be written and read back. What is read back runs to
-- its end or to a division by zero, with an empty stack after every line it prints.
theorem run_shipped (h : (compile source).rejection = none) :
    ∃ b, (compile source).bytecode = some b ∧
      (b.constants.length < 0x80000000 →
        (∀ c ∈ b.constants, c.text.unquote.utf16.length < 0x80000000) →
        ∃ file loaded, b.encode = .ok file ∧ Bytecode.decode file = .ok loaded ∧
          (load loaded).run.Ends loaded ∧
          ∀ n i, loaded.code[n]? = some i → i.op.operation?.any Operation.isPrint = true →
            ((load loaded).follow (loaded.code.take (n + 1))).error = none →
            ((load loaded).follow (loaded.code.take (n + 1))).machine.stack = []) := by
  obtain ⟨b, hb, herrors, hgenerate⟩ := generate_of_rejection_eq_none h
  have hbuilt := Parser.built_parse source
  refine ⟨b, hb, fun hcount hunits => ?_⟩
  obtain ⟨hwritable, hplain⟩ :=
    Program.generate_writable hbuilt herrors hgenerate hcount hunits
  have hlength := Nat.le_of_lt hcount
  refine ⟨(b.image hwritable).bytes, b.mapTexts fun t => repaired t.unquote,
    b.encode_eq_ok hwritable, ?_, ?_, ?_⟩
  · rw [← b.normalised_fileForm_of_plain hplain]
    exact Bytecode.decode_eq_ok.mpr ⟨_, rfl, b.program_image hwritable⟩
  · obtain ⟨code, hcode, hprints⟩ :=
      Program.generate_prints hbuilt herrors hgenerate hlength fun t => repaired t.unquote
    exact hprints.ends hcode
  · intro n i hi hprint herror
    exact Program.stack_after_print hbuilt herrors hgenerate hlength _ hi hprint herror

-- A text with an ill-formed byte is printed repaired, and then a real is divided by zero.
theorem run_shipped_division :
    ∃ file loaded,
      (compile (("escreve \"" : Text) ++ 0xFF :: "\"; escreve 1 / 0.0;")).bytecode.map
        Bytecode.encode = some (.ok file) ∧ Bytecode.decode file = .ok loaded ∧
      loaded.constants = [.ofText [0xEF, 0xBF, 0xBD], .ofReal ⟨0⟩] ∧
      (load loaded).run.Ends loaded ∧ loaded.code[1]? = some (.of .sprint) ∧
      ((load loaded).follow (loaded.code.take 2)).error = none ∧
      ((load loaded).follow (loaded.code.take 2)).machine.stack = [] := by
  have haccepted : (compile (("escreve \"" : Text) ++ 0xFF :: "\"; escreve 1 / 0.0;")).rejection =
      none := by
    decide +kernel
  have hbytecode : (compile (("escreve \"" : Text) ++ 0xFF :: "\"; escreve 1 / 0.0;")).bytecode =
      some ⟨[.ofText [34, 0xFF, 34], .ofReal ⟨0⟩], [⟨Operation.sconst.code, 0⟩, .of .sprint,
        ⟨Operation.iconst.code, 1⟩, .of .itod, ⟨Operation.dconst.code, 1⟩, .of .ddiv, .of .dprint,
        .of .halt]⟩ := by
    decide +kernel
  obtain ⟨b, hb, hshipped⟩ := run_shipped haccepted
  rw [hbytecode] at hb ⊢
  obtain rfl := Option.some.inj hb
  obtain ⟨file, loaded, hencode, hdecode, hends, hprints⟩ := hshipped (by decide) (by decide)
  have hfile : [0, 0, 0, 2, 3, 0, 0, 0, 1, 0xFF, 0xFD, 1, 0, 0, 0, 0, 0, 0, 0, 0, 2, 0, 0, 0, 0, 27,
      0, 0, 0, 0, 1, 14, 1, 0, 0, 0, 1, 21, 16, 40] = file :=
    Except.ok.inj (Eq.trans (by decide) hencode)
  subst hfile
  have hloaded : Bytecode.mk [.ofText [0xEF, 0xBF, 0xBD], .ofReal ⟨0⟩] [⟨Operation.sconst.code, 0⟩,
      .of .sprint, ⟨Operation.iconst.code, 1⟩, .of .itod, ⟨Operation.dconst.code, 1⟩, .of .ddiv,
      .of .dprint, .of .halt] = loaded :=
    Except.ok.inj (Eq.trans (by decide +kernel) hdecode)
  subst hloaded
  refine ⟨_, _, congrArg some hencode, hdecode, rfl, hends, rfl, by decide, ?_⟩
  exact hprints 1 (.of .sprint) rfl rfl (by decide)

end Tuga
