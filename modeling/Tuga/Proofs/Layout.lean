import Tuga.Proofs.Codegen.Alike
import Tuga.Proofs.Stages
import Tuga.Proofs.Tree.Layout

namespace Tuga

def TypeError.unplaced (e : TypeError) : TypeError := { e with span := default }

namespace Expr

@[simp] theorem id_unplaced (e : Expr) : e.unplaced.id = e.id := by
  rw [id, info_unplaced]
  rfl

@[simp] theorem type?_unplaced (e : Expr) : e.unplaced.type? = e.type? := by
  induction e with
  | int | real | bool | text => rfl
  | paren _ _ ih => exact ih
  | neg _ _ ih | not _ _ ih => simp only [unplaced, type?, ih]
  | binary _ _ _ _ _ ihl ihr => simp only [unplaced, type?, ihl, ihr]

theorem postorder_unplaced (e : Expr) : e.unplaced.postorder = e.postorder.map unplaced := by
  induction e with
  | int | real | bool | text => rfl
  | paren _ _ ih | neg _ _ ih | not _ _ ih =>
      simp only [unplaced, postorder, ih, List.map_append, List.map_cons, List.map_nil]
  | binary _ _ _ _ _ ihl ihr =>
      simp only [unplaced, postorder, ihl, ihr, List.map_append, List.map_cons, List.map_nil]

-- A rule is violated at the same nodes, wherever they stand.
theorem violation?_unplaced (e : Expr) :
    e.unplaced.violation? = e.violation?.map TypeError.unplaced := by
  cases e with
  | int | real | bool | text | paren => rfl
  | neg _ operand | not _ operand =>
      simp only [unplaced, violation?, type?_unplaced]
      cases operand.type? with
      | none => rfl
      | some t => simp only [Option.bind_some]; split <;> rfl
  | binary _ level op left right =>
      simp only [unplaced, violation?, type?_unplaced]
      cases left.type? with
      | none => rfl
      | some l =>
          cases right.type? with
          | none => rfl
          | some r => simp only [Option.bind_some]; split <;> rfl

theorem alike_unplaced (types : TypeMap) (e : Expr) : e.Alike types types e.unplaced := by
  induction e with
  | int | real | bool | text => constructor; rfl
  | paren _ _ ih | neg _ _ ih | not _ _ ih => constructor; rfl; exact ih
  | binary _ _ _ _ _ ihl ihr => exact .binary rfl ihl ihr

end Expr

namespace Program

theorem postorder_unplaced (p : Program) :
    p.unplaced.postorder = p.postorder.map Expr.unplaced := by
  simp only [postorder, unplaced, List.flatMap_map, List.map_flatMap]
  exact List.flatMap_congr fun s _ => s.value.postorder_unplaced

theorem check_unplaced (p : Program) :
    p.unplaced.check = ⟨p.check.types, p.check.errors.map TypeError.unplaced⟩ := by
  have hmark : ∀ (types : TypeMap) (e : Expr), types.mark e.unplaced = types.mark e := by
    intro types e
    rw [TypeMap.mark, TypeMap.mark, Expr.id_unplaced, Expr.type?_unplaced]
  rw [check_eq, check_eq, postorder_unplaced, List.foldl_map, List.filterMap_map,
    List.map_filterMap]
  simp only [hmark, Function.comp_def, Expr.violation?_unplaced]
  rfl

theorem generate_unplaced (p : Program) (types : TypeMap) :
    (p.unplaced.generate types).mapError CodegenError.cause =
      (p.generate types).mapError CodegenError.cause := by
  refine (generate_alike ?_).symm
  rw [unplaced, List.forall₂_map_right_iff, List.forall₂_same]
  exact fun s _ => s.value.alike_unplaced types

end Program

-- Two compilations that end alike, places apart: at the same stage with the same messages, or with
-- the same program; with the same types for the same nodes.
structure Compilation.Same (c c' : Compilation) : Prop where
  tree : c.tree.unplaced = c'.tree.unplaced
  stage : c.rejection.map Rejection.stage = c'.rejection.map Rejection.stage
  messages : (c.rejection.map fun r => r.diagnostics.map Diagnostic.message) =
    c'.rejection.map fun r => r.diagnostics.map Diagnostic.message
  types : c.types = c'.types
  bytecode : c.bytecode = c'.bytecode

theorem Compilation.same_generate {tree tree' : Program} (htree : tree.unplaced = tree'.unplaced)
    (types : TypeMap) :
    (Compilation.mk tree (some types) none none).generate.Same
      (Compilation.mk tree' (some types) none none).generate := by
  have hcode : (tree.generate types).mapError CodegenError.cause =
      (tree'.generate types).mapError CodegenError.cause := by
    rw [← Program.generate_unplaced, htree, Program.generate_unplaced]
  cases hg : tree.generate types with
  | ok b =>
      cases hg' : tree'.generate types with
      | ok b' =>
          rw [hg, hg'] at hcode
          simp only [generate, hg, hg']
          exact ⟨htree, rfl, rfl, rfl, congrArg some (Except.ok.inj hcode)⟩
      | error e =>
          rw [hg, hg'] at hcode
          cases hcode
  | error e =>
      cases hg' : tree'.generate types with
      | ok b' =>
          rw [hg, hg'] at hcode
          cases hcode
      | error e' =>
          rw [hg, hg'] at hcode
          have hcause : e.cause = e'.cause := Except.error.inj hcode
          simp only [generate, hg, hg']
          refine ⟨htree, rfl, ?_, rfl, rfl⟩
          simp [Rejection.diagnostics, hcause]

section Faces

variable {source other : Text}
  (h : (Lexer.lexemes source).map Lexeme.face = (Lexer.lexemes other).map Lexeme.face)

include h

theorem parse_of_faces :
    (Program.parse source).1.unplaced = (Program.parse other).1.unplaced ∧
      (Program.parse source).2.syntactic.map SyntaxError.unplaced =
        (Program.parse other).2.syntactic.map SyntaxError.unplaced := by
  have hread := Program.parse_unplaced source
  rw [Lexer.tokens_unplaced, h, ← Lexer.tokens_unplaced, ← Program.parse_unplaced other,
    Prod.mk.injEq] at hread
  exact hread

theorem lexicalErrors_of_faces :
    (Program.parse source).2.lexicalErrors.map (fun e => e.cause.message) =
      (Program.parse other).2.lexicalErrors.map (fun e => e.cause.message) := by
  rw [lexicalErrors_eq, lexicalErrors_eq, Lexer.messages_errors, h, ← Lexer.messages_errors]

theorem compile_same : (compile source).Same (compile other) := by
  obtain ⟨htree, hsyntactic⟩ := parse_of_faces h
  have hlexical := lexicalErrors_of_faces h
  have hcheck := congrArg Program.check htree
  rw [Program.check_unplaced, Program.check_unplaced, Typing.mk.injEq] at hcheck
  obtain ⟨htypes, herrors⟩ := hcheck
  have hempty {α β : Type} {f : α → β} {l l' : List α} (hmap : l.map f = l'.map f) :
      l.isEmpty = l'.isEmpty := by
    rw [← List.isEmpty_map (f := f), hmap, List.isEmpty_map]
  rw [compile_eq, compile_eq, check_eq, check_eq]
  dsimp only
  rw [hempty hlexical, hempty hsyntactic, hempty herrors, htypes]
  split
  · refine ⟨htree, rfl, congrArg some ?_, rfl, rfl⟩
    simpa [Rejection.diagnostics, LexicalError.diagnostic, Function.comp_def] using hlexical
  split
  · refine ⟨htree, rfl, congrArg some ?_, rfl, rfl⟩
    have hmessages := congrArg (List.map fun e => e.cause.message) hsyntactic
    simpa [Rejection.diagnostics, SyntaxError.diagnostic, SyntaxError.unplaced,
      Function.comp_def] using hmessages
  split
  · refine ⟨htree, rfl, congrArg some ?_, rfl, rfl⟩
    have hmessages := congrArg (List.map TypeError.message) herrors
    simpa [Rejection.diagnostics, TypeError.diagnostic, TypeError.unplaced, TypeError.message,
      Function.comp_def] using hmessages
  · exact Compilation.same_generate htree _

end Faces

-- Two sources with the same lexemes, apart from where these stand, are compiled alike, whatever the
-- stages show; and what is compiled goes into the same file.
theorem compile_ignores_layout {source other : Text}
    (h : (Lexer.lexemes source).map Lexeme.face = (Lexer.lexemes other).map Lexeme.face)
    (detail detail' : Detail) (out out' : Text) :
    let c := (Id.run ((compileShowing detail source).run out)).1
    let c' := (Id.run ((compileShowing detail' other).run out')).1
    c.Same c' ∧ c.bytecode.map Bytecode.encode = c'.bytecode.map Bytecode.encode := by
  have hsame := compile_same h
  rw [run_compileShowing, run_compileShowing]
  exact ⟨hsame, by rw [hsame.bytecode]⟩

-- A sum on one line, and the same sum over three lines with a comment in each gap.
theorem compile_ignores_layout_comments :
    (Lexer.lexemes "escreve 1+0.5;").map Lexeme.face =
        (Lexer.lexemes "escreve// the sum\n\t1 /* and */ + 0.5\n;").map Lexeme.face ∧
      (compile "escreve 1+0.5;").bytecode =
        (compile "escreve// the sum\n\t1 /* and */ + 0.5\n;").bytecode ∧
      (compile "escreve 1+0.5;").types = some #[.typed .integer, .typed .real, .typed .real,
        .missing, .missing] ∧
      (compile "escreve 1+0.5;").tree ≠
        (compile "escreve// the sum\n\t1 /* and */ + 0.5\n;").tree := by
  have hfaces : (Lexer.lexemes "escreve 1+0.5;").map Lexeme.face =
      (Lexer.lexemes "escreve// the sum\n\t1 /* and */ + 0.5\n;").map Lexeme.face := by
    decide +kernel
  have hsame {source other : Text}
      (h : (Lexer.lexemes source).map Lexeme.face = (Lexer.lexemes other).map Lexeme.face) :
      (compile source).Same (compile other) := (compile_ignores_layout h {} {} [] []).1
  exact ⟨hfaces, (hsame hfaces).bytecode, by decide +kernel, by decide +kernel⟩

end Tuga
