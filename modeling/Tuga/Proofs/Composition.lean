import Tuga.Proofs.Codegen.Alike
import Tuga.Proofs.Codegen.Constants
import Tuga.Proofs.Codegen.Extension
import Tuga.Proofs.Token.Joining
import Tuga.Proofs.Tree.Layout
import Tuga.Proofs.Typing.Offence

namespace Tuga

open Machine Grammar

-- The expressions that the statements of a source print, without numbers and places.
def sourceTrees (source : Text) : List Expr :=
  (Program.parse source).1.statements.map fun stmt => stmt.value.bare

section Conditions

variable {source : Text}

theorem accepted_iff : (compile source).rejection = none ↔
    Lexable source ∧ Grammatical source ∧ WellTyped source ∧ Narrow source := by
  have hrejected := (compile_outcome source).rejectedBy
  constructor
  · intro h
    rw [h] at hrejected
    exact hrejected
  · intro h
    have hnone : RejectedBy source none := h
    exact Option.map_eq_none_iff.mp (hrejected.unique hnone)

theorem lexable_iff :
    Lexable source ↔ ∀ face ∈ (Lexer.lexemes source).map Lexeme.face, face.1 ≠ none := by
  rw [List.forall_mem_map]
  constructor
  · intro h lexeme hlexeme
    cases lexeme with
    | token t => simp [Lexeme.face]
    | error e => exact absurd hlexeme (h e)
  · intro h e he
    exact h _ he rfl

theorem isProgram_sourceTrees (h : Grammatical source) :
    IsProgram (sourceTokens source) (sourceTrees source) :=
  ((Parser.isProgram_tokens_iff source _).mpr ⟨Parser.syntactic_eq_nil_iff.mpr h, rfl⟩).1

theorem wellTyped_iff : WellTyped source ↔ ∀ e ∈ sourceTrees source, ∃ t, e.type? = some t := by
  rw [sourceTrees, List.forall_mem_map]
  constructor
  · intro h s hs
    obtain ⟨t, ht⟩ := h s.value (Program.value_mem_expressions hs)
    exact ⟨t, by rw [Expr.type?_bare, Expr.type?_eq_some_iff.mpr ht]⟩
  · intro h e he
    obtain ⟨s, hs, he⟩ := List.mem_flatMap.mp he
    obtain ⟨t, ht⟩ := h s hs
    rw [Expr.type?_bare, Expr.type?_eq_some_iff] at ht
    exact ht.nodes e he

end Conditions

section Join

variable {a b : Text}

theorem lexable_join (hnul : 0 ∉ a) (ha : Lexable a) (hb : Lexable b) :
    Lexable (a ++ 10 :: b) := by
  rw [lexable_iff, Lexer.faces_join hnul ha, List.forall_mem_append]
  exact ⟨lexable_iff.mp ha, lexable_iff.mp hb⟩

theorem tokens_join (hnul : 0 ∉ a) (ha : Lexable a) (b : Text) :
    (sourceTokens (a ++ 10 :: b)).map Token.unplaced =
      (sourceTokens a ++ sourceTokens b).map Token.unplaced := by
  rw [List.map_append, sourceTokens, sourceTokens, sourceTokens, Lexer.tokens_unplaced,
    Lexer.tokens_unplaced, Lexer.tokens_unplaced, Lexer.faces_join hnul ha, List.filterMap_append]

theorem forall_tokens_join {P : Token → Prop} (hP : ∀ t, P t.unplaced ↔ P t) (hnul : 0 ∉ a)
    (ha : Lexable a) (hfirst : ∀ t ∈ sourceTokens a, P t) (hsecond : ∀ t ∈ sourceTokens b, P t) :
    ∀ t ∈ sourceTokens (a ++ 10 :: b), P t := by
  have hboth : ∀ t ∈ (sourceTokens a ++ sourceTokens b).map Token.unplaced, P t := by
    simp only [List.forall_mem_map, hP]
    exact List.forall_mem_append.mpr ⟨hfirst, hsecond⟩
  rw [← tokens_join hnul ha b] at hboth
  simpa only [List.forall_mem_map, hP] using hboth

theorem grammatical_join (hnul : 0 ∉ a) (hlexable : Lexable a) (ha : Grammatical a)
    (hb : Grammatical b) : Grammatical (a ++ 10 :: b) ∧
      sourceTrees (a ++ 10 :: b) = sourceTrees a ++ sourceTrees b := by
  have hprogram : IsProgram (sourceTokens (a ++ 10 :: b)) (sourceTrees a ++ sourceTrees b) :=
    ((isProgram_sourceTrees ha).append (isProgram_sourceTrees hb)).of_unplaced
      (tokens_join hnul hlexable b)
  have hrange : ∀ t ∈ sourceTokens (a ++ 10 :: b), t.InRange :=
    forall_tokens_join (fun _ => Iff.rfl) hnul hlexable ha.2 hb.2
  obtain ⟨-, htrees⟩ := (Parser.isProgram_tokens_iff _ _).mp ⟨hprogram, hrange⟩
  exact ⟨⟨⟨_, hprogram⟩, hrange⟩, htrees.symm⟩

-- Two accepted sources are accepted together, and their trees stand one after the other.
theorem accepted_join (hnul : 0 ∉ a) (ha : (compile a).rejection = none)
    (hb : (compile b).rejection = none) : (compile (a ++ 10 :: b)).rejection = none ∧
      sourceTrees (a ++ 10 :: b) = sourceTrees a ++ sourceTrees b := by
  obtain ⟨hlexable, hgrammatical, hwellTyped, hnarrow⟩ := accepted_iff.mp ha
  obtain ⟨hlexable', hgrammatical', hwellTyped', hnarrow'⟩ := accepted_iff.mp hb
  obtain ⟨hboth, htrees⟩ := grammatical_join hnul hlexable hgrammatical hgrammatical'
  refine ⟨accepted_iff.mpr ⟨lexable_join hnul hlexable hlexable', hboth, ?_, ?_⟩, htrees⟩
  · rw [wellTyped_iff, htrees, List.forall_mem_append]
    exact ⟨wellTyped_iff.mp hwellTyped, wellTyped_iff.mp hwellTyped'⟩
  · exact forall_tokens_join (fun _ => Iff.rfl) hnul hlexable hnarrow hnarrow'

theorem length_constants_join (hnul : 0 ∉ a) (ha : (compile a).rejection = none)
    (hb : (compile b).rejection = none) {q r : Bytecode} (hq : (compile b).bytecode = some q)
    (hr : (compile (a ++ 10 :: b)).bytecode = some r) :
    q.constants.length ≤ r.constants.length := by
  have hfilter (ts : List Token) :
      ts.filterMap Token.constant? = (ts.map Token.unplaced).filterMap Token.constant? := by
    rw [List.filterMap_map]
    rfl
  rw [constants_of_rejection_eq_none hb hq,
    constants_of_rejection_eq_none (accepted_join hnul ha hb).1 hr, hfilter (sourceTokens (_ ++ _)),
    tokens_join hnul (accepted_iff.mp ha).1, ← hfilter, List.filterMap_append]
  refine length_pooledAll_le fun c hc => ?_
  rw [← List.filterMap_append] at hc
  obtain ⟨t, -, ht⟩ := List.mem_filterMap.mp hc
  exact Token.isLiteral_of_constant? ht

end Join

section Statements

variable {types types' : TypeMap} {ss ss' : List Statement}

theorem forall₂_alike (hss : ∀ s ∈ ss, s.value.Annotated types)
    (hss' : ∀ s ∈ ss', s.value.Annotated types')
    (h : ss.map (fun s => s.value.bare) = ss'.map fun s => s.value.bare) :
    List.Forall₂ (fun s s' => s.value.Alike types types' s'.value) ss ss' := by
  induction ss generalizing ss' with
  | nil =>
      rw [List.map_eq_nil_iff.mp h.symm]
      exact .nil
  | cons s ss ih =>
      obtain ⟨s', rest, rfl, hs', hrest⟩ := List.map_eq_cons_iff.mp h.symm
      rw [List.forall_mem_cons] at hss hss'
      exact .cons (hss.1.alike hss'.1 hs'.symm) (ih hss.2 hss'.2 hrest.symm)

theorem evaluateAll_alike
    (h : List.Forall₂ (fun s s' => s.value.Alike types types' s'.value) ss ss')
    (read : Text → Text) : evaluateAll read ss = evaluateAll read ss' := by
  induction h with
  | nil => rfl
  | cons hs _ ih => rw [evaluateAll, evaluateAll, hs.evaluate_eq read, ih]

theorem evaluateAll_append {read : Text → Text} (h : (evaluateAll read ss).2 = none)
    (ss' : List Statement) : evaluateAll read (ss ++ ss') =
      ((evaluateAll read ss).1 ++ (evaluateAll read ss').1, (evaluateAll read ss').2) := by
  induction ss with
  | nil => rfl
  | cons s ss ih =>
      rw [evaluateAll] at h
      rw [List.cons_append, evaluateAll, evaluateAll]
      cases hvalue : s.value.evaluate read with
      | ok v =>
          rw [hvalue] at h
          rw [ih h]
          rfl
      | error failure =>
          rw [hvalue] at h
          cases h

end Statements

-- The fault that an error reports, if it reports one.
def RunError.fault? : RunError → Option Fault
  | fault f _ _ => some f
  | writeFailed => none

-- A run that prints what two others print, one after the other, and ends like the second.
structure Machine.Outcome.Joins (whole first second : Outcome) : Prop where
  output : whole.output = first.output ++ second.output
  error : whole.error.map RunError.fault? = second.error.map RunError.fault?
  halted : whole.machine.halted = second.machine.halted

namespace Program

-- The statements of the first program and then those of the second, with the types they have there.
def Joins (whole : Program) (types : TypeMap) (first : Program) (firstTypes : TypeMap)
    (second : Program) (secondTypes : TypeMap) : Prop :=
  ∃ front back, whole.statements = front ++ back ∧
    List.Forall₂ (fun s s' => s.value.Alike types firstTypes s'.value) front first.statements ∧
    List.Forall₂ (fun s s' => s.value.Alike types secondTypes s'.value) back second.statements

theorem Joins.evaluate_eq {first second whole : Program} {types firstTypes secondTypes : TypeMap}
    (h : whole.Joins types first firstTypes second secondTypes) {read : Text → Text}
    (hfinishes : (first.evaluate read).2 = none) :
    whole.evaluate read = ((first.evaluate read).1 ++ (second.evaluate read).1,
      (second.evaluate read).2) := by
  obtain ⟨front, back, hstatements, hfront, hback⟩ := h
  have hfront' := evaluateAll_alike hfront read
  have hnone : (evaluateAll read front).2 = none := by
    rw [hfront']
    exact hfinishes
  rw [evaluate, hstatements, evaluateAll_append hnone, hfront', evaluateAll_alike hback]
  rfl

-- A program as it is read, without type errors, and its code.
structure CompilesTo (p : Program) (b : Bytecode) : Prop where
  built : p.Built
  errors : p.check.errors = []
  generate : p.generate p.check.types = .ok b

namespace CompilesTo

variable {p first second whole : Program} {b firstCode secondCode wholeCode : Bytecode}

theorem of_rejection_eq_none {source : Text} (h : (compile source).rejection = none) :
    ∃ b, (Program.parse source).1.CompilesTo b ∧
      compile source = { tree := (Program.parse source).1,
                         types := some (Program.parse source).1.check.types,
                         bytecode := some b } := by
  obtain ⟨b, hcompile, herrors, hgenerate⟩ := compile_eq_of_rejection_eq_none h
  exact ⟨b, ⟨Parser.built_parse source, herrors, hgenerate⟩, hcompile⟩

theorem annotated (h : p.CompilesTo b) : ∀ s ∈ p.statements, s.value.Annotated p.check.types :=
  h.built.annotated h.errors

theorem run_evaluate (h : p.CompilesTo b) (hlength : b.constants.length ≤ 0x80000000) :
    (load b.fileForm).run.output = Value.lines (p.evaluate Text.unquote).1 ∧
      (load b.fileForm).run.error.map RunError.fault? =
        (p.evaluate Text.unquote).2.map Failure.fault? ∧
      (load b.fileForm).run.machine.halted = (p.evaluate Text.unquote).2.isNone := by
  obtain ⟨code, hcode, hprints⟩ := generate_prints h.built h.errors h.generate hlength Text.unquote
  rw [Bytecode.fileForm_eq_mapTexts]
  cases hfailure : (p.evaluate Text.unquote).2 with
  | none =>
      rw [hfailure] at hprints
      rw [hprints.run_finishes hcode]
      exact ⟨rfl, rfl, rfl⟩
  | some failure =>
      rw [hfailure] at hprints
      obtain ⟨fault, pc, i, stopped, hfault, -, -, -, hhalted, hrun⟩ := hprints.run_stops hcode
      rw [hrun]
      exact ⟨rfl, congrArg some hfault.symm, hhalted⟩

theorem joins (hwhole : whole.CompilesTo wholeCode) (hfirst : first.CompilesTo firstCode)
    (hsecond : second.CompilesTo secondCode)
    (htrees : whole.statements.map (fun s => s.value.bare) =
      first.statements.map (fun s => s.value.bare) ++
        second.statements.map fun s => s.value.bare) :
    whole.Joins whole.check.types first first.check.types second second.check.types := by
  obtain ⟨front, back, hstatements, hfront, hback⟩ := List.map_eq_append_iff.mp htrees
  have hannotated := hwhole.annotated
  rw [hstatements, List.forall_mem_append] at hannotated
  exact ⟨front, back, hstatements, forall₂_alike hannotated.1 hfirst.annotated hfront,
    forall₂_alike hannotated.2 hsecond.annotated hback⟩

section Runs

variable (hwhole : whole.CompilesTo wholeCode) (hfirst : first.CompilesTo firstCode)
  {secondTypes : TypeMap}
  (h : whole.Joins whole.check.types first first.check.types second secondTypes)

include hwhole hfirst h

theorem starts : firstCode.constants <+: wholeCode.constants ∧
    ∃ code rest, firstCode.code = code ++ [.of .halt] ∧ wholeCode.code = code ++ rest ∧
      ∀ i ∈ code, i.Bounded firstCode.constants.length := by
  obtain ⟨front, back, hstatements, hfront, -⟩ := h
  have hannotated := hwhole.annotated
  rw [hstatements, List.forall_mem_append] at hannotated
  exact generate_starts hfirst.generate hwhole.generate hstatements hfront hannotated.2

-- If the first program stops with an error the whole stops there.
theorem run_stops {error : RunError} (herror : (load firstCode.fileForm).run.error = some error) :
    (load wholeCode.fileForm).run.output = (load firstCode.fileForm).run.output ∧
      (load wholeCode.fileForm).run.error = some error := by
  obtain ⟨hgrows, code, rest, hcode, hcode', hbounded⟩ := hwhole.starts hfirst h
  refine run_grows (hgrows.map _) hcode hcode' ?_ herror
  simpa only [Bytecode.fileForm, List.length_map] using hbounded

-- If the first program comes to its end the whole goes on with the second.
theorem run_joins (hsecond : second.CompilesTo secondCode)
    (hlength : secondCode.constants.length ≤ wholeCode.constants.length)
    (hbound : wholeCode.constants.length ≤ 0x80000000)
    (herror : (load firstCode.fileForm).run.error = none) :
    (load wholeCode.fileForm).run.Joins (load firstCode.fileForm).run
      (load secondCode.fileForm).run := by
  have hlength' := (hwhole.starts hfirst h).1.length_le
  obtain ⟨houtput, hfault, -⟩ := hfirst.run_evaluate (Nat.le_trans hlength' hbound)
  obtain ⟨houtput', hfault', hhalted'⟩ := hsecond.run_evaluate (Nat.le_trans hlength hbound)
  obtain ⟨houtput'', hfault'', hhalted''⟩ := hwhole.run_evaluate hbound
  have hfinishes : (first.evaluate Text.unquote).2 = none := by
    rw [herror] at hfault
    exact Option.map_eq_none_iff.mp hfault.symm
  rw [h.evaluate_eq hfinishes] at houtput'' hfault'' hhalted''
  refine ⟨?_, hfault''.trans hfault'.symm, hhalted''.trans hhalted'.symm⟩
  rw [houtput'', houtput, houtput', Value.lines, List.flatMap_append]
  rfl

end Runs

end CompilesTo

end Program

-- Two accepted sources on lines of their own are accepted together. The statements are those of the
-- first and then those of the second, with the same types. If the first program stops with an error
-- the two stop there, having printed the same; else they go on to print what the second prints, and
-- end as it does, as long as every constant has an index that an instruction can carry.
theorem compile_joins_programs {a b : Text} (hnul : 0 ∉ a) (ha : (compile a).rejection = none)
    (hb : (compile b).rejection = none) :
    (compile (a ++ 10 :: b)).rejection = none ∧
    (∃ types firstTypes secondTypes, (compile (a ++ 10 :: b)).types = some types ∧
      (compile a).types = some firstTypes ∧ (compile b).types = some secondTypes ∧
      (compile (a ++ 10 :: b)).tree.Joins types (compile a).tree firstTypes (compile b).tree
        secondTypes) ∧
    ∃ whole first second, (compile (a ++ 10 :: b)).bytecode = some whole ∧
      (compile a).bytecode = some first ∧ (compile b).bytecode = some second ∧
      (∀ error, (load first.fileForm).run.error = some error →
        (load whole.fileForm).run.output = (load first.fileForm).run.output ∧
          (load whole.fileForm).run.error = some error) ∧
      (whole.constants.length ≤ 0x80000000 → (load first.fileForm).run.error = none →
        (load whole.fileForm).run.Joins (load first.fileForm).run (load second.fileForm).run) := by
  obtain ⟨haccepted, htrees⟩ := accepted_join hnul ha hb
  obtain ⟨first, hfirst, hcompile⟩ := Program.CompilesTo.of_rejection_eq_none ha
  obtain ⟨second, hsecond, hcompile'⟩ := Program.CompilesTo.of_rejection_eq_none hb
  obtain ⟨whole, hwhole, hcompile''⟩ := Program.CompilesTo.of_rejection_eq_none haccepted
  have hlength := length_constants_join hnul ha hb (congrArg Compilation.bytecode hcompile')
    (congrArg Compilation.bytecode hcompile'')
  have hjoins := hwhole.joins hfirst hsecond htrees
  rw [hcompile, hcompile', hcompile'']
  refine ⟨rfl, ⟨_, _, _, rfl, rfl, rfl, hjoins⟩, whole, first, second, rfl, rfl, rfl,
    fun error herror => hwhole.run_stops hfirst hjoins herror, fun hbound herror => ?_⟩
  exact hwhole.run_joins hfirst hjoins hsecond hlength hbound herror

-- A comment ends the first program, and both use the same constant. In the other order the fault
-- comes before the text is printed.
theorem compile_joins_programs_modulo :
    ∃ whole other,
      (compile (("escreve \"x\" + 0.5; // end" : Text) ++ 10 ::
        "escreve 0.5; escreve 7 % 0;")).bytecode = some whole ∧
      (load whole.fileForm).run.output = "x0.5\n0.5\n" ∧
      (load whole.fileForm).run.error.map RunError.fault? = some (some .moduloByZero) ∧
      (compile (("escreve 0.5; escreve 7 % 0;" : Text) ++ 10 ::
        "escreve \"x\" + 0.5; // end")).bytecode = some other ∧
      (load other.fileForm).run.output = "0.5\n" ∧
      (load other.fileForm).run.error = some (.fault .moduloByZero 4 Operation.imod.code) := by
  have hprinting : (compile "escreve \"x\" + 0.5; // end").rejection = none ∧
      (compile "escreve \"x\" + 0.5; // end").bytecode = some
        ⟨[.ofText "\"x\"", .ofReal ⟨0x3FE0000000000000⟩], [⟨Operation.sconst.code, 0⟩,
          ⟨Operation.dconst.code, 1⟩, .of .dtos, .of .sconcat, .of .sprint, .of .halt]⟩ := by
    decide +kernel
  have hfaulting : (compile "escreve 0.5; escreve 7 % 0;").rejection = none ∧
      (compile "escreve 0.5; escreve 7 % 0;").bytecode = some
        ⟨[.ofReal ⟨0x3FE0000000000000⟩], [⟨Operation.dconst.code, 0⟩, .of .dprint,
          ⟨Operation.iconst.code, 7⟩, ⟨Operation.iconst.code, 0⟩, .of .imod, .of .iprint,
          .of .halt]⟩ := by
    decide +kernel
  have hjoined : (compile (("escreve \"x\" + 0.5; // end" : Text) ++ 10 ::
      "escreve 0.5; escreve 7 % 0;")).bytecode.any (·.constants.length ≤ 2) = true := by
    decide +kernel
  have happly {a b : Text} {p q : Bytecode} (hnul : 0 ∉ a)
      (ha : (compile a).rejection = none ∧ (compile a).bytecode = some p)
      (hb : (compile b).rejection = none ∧ (compile b).bytecode = some q) :
      ∃ r, (compile (a ++ 10 :: b)).bytecode = some r ∧
        (∀ error, (load p.fileForm).run.error = some error →
          (load r.fileForm).run.output = (load p.fileForm).run.output ∧
            (load r.fileForm).run.error = some error) ∧
        (r.constants.length ≤ 0x80000000 → (load p.fileForm).run.error = none →
          (load r.fileForm).run.Joins (load p.fileForm).run (load q.fileForm).run) := by
    obtain ⟨-, -, whole, first, second, hwhole, hfirst, hsecond, hruns⟩ :=
      compile_joins_programs hnul ha.1 hb.1
    obtain rfl := Option.some.inj (ha.2.symm.trans hfirst)
    obtain rfl := Option.some.inj (hb.2.symm.trans hsecond)
    exact ⟨whole, hwhole, hruns⟩
  obtain ⟨whole, hwhole, -, hjoins⟩ := happly (by decide) hprinting hfaulting
  obtain ⟨other, hother, hstops, -⟩ := happly (by decide) hfaulting hprinting
  have hlength : whole.constants.length ≤ 2 := by
    rw [hwhole] at hjoined
    exact of_decide_eq_true hjoined
  have hjoins := hjoins (Nat.le_trans hlength (by decide)) (by decide +kernel)
  have hstops := hstops (.fault .moduloByZero 4 Operation.imod.code) (by decide +kernel)
  refine ⟨whole, other, hwhole, ?_, ?_, hother, ?_, hstops.2⟩
  · rw [hjoins.output]
    decide +kernel
  · rw [hjoins.error]
    decide +kernel
  · rw [hstops.1]
    decide +kernel

end Tuga
