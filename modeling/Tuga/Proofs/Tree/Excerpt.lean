import Tuga.Proofs.Stages
import Tuga.Proofs.Token.Cutting
import Tuga.Proofs.Tree.Layout
import Tuga.Proofs.Tree.Places

namespace Tuga

open Grammar

-- A source that is an expression: it is read to its end, without an error, as the tree given.
def ReadsAs (source : Text) (e : Expr) : Prop :=
  let read := (Parser.ofSource source).readExpression
  read.1.map Expr.bare = some e.bare ∧ read.2.diagnostics = []

section Alone

variable {source : Text}

theorem Lexable.lexemes_eq (h : Lexable source) :
    Lexer.lexemes source = (sourceTokens source).map Lexeme.token := by
  rw [sourceTokens, Lexer.tokens, List.map_filterMap]
  refine List.filterMap_some.symm.trans (List.filterMap_congr fun lexeme hlexeme => ?_)
  cases lexeme with
  | token t => rfl
  | error e => exact absurd hlexeme (h e)

theorem Lexable.readsAs (hlexable : Lexable source) {e : Expr}
    (h : Derives (.level .disjunction) (sourceTokens source) e.bare)
    (hrange : ∀ t ∈ sourceTokens source, t.InRange) : ReadsAs source e := by
  have hstops : Parser.Stops (.level .disjunction) Token.Kind.endOfInput := by
    intro l op _ hsign
    cases hsign
  have hs : (Parser.ofSource source).state.tokens = sourceTokens source ++ [] :=
    (List.append_nil _).symm
  have hgives : Parser.Gives (Parser.ofSource source).state Parser.expression [] _ :=
    Parser.accepts_expression h hrange hstops hs
  obtain ⟨e', s', hread, htokens, -, hbare⟩ := hgives
  have herrors : Lexer.errors (Lexer.lexemes source) = [] := by
    rw [hlexable.lexemes_eq, Lexer.errors, List.filterMap_map]
    exact List.filterMap_eq_nil_iff.mpr fun _ _ => rfl
  have hfragment : Parser.fragment (Parser.ofSource source).state = (some e', [], s') := by
    rw [Parser.fragment, hread]
    simp [htokens]
  rw [ReadsAs, Parser.readExpression, hfragment]
  refine ⟨congrArg some hbare, ?_⟩
  rw [Parser.diagnostics, Parser.lexicalErrors, htokens]
  simp [Parser.ofSource, herrors]

end Alone

section Excerpt

variable {source : Text} {us : List Token} {span : Span}

-- The stretch that some tokens cover shows these tokens and nothing else.
theorem Lexable.exists_slice (h : Lexable source) (hus : us <:+: sourceTokens source)
    (hspan : span.Covers us) :
    ∃ start stop : Nat, span.start.offset = start ∧ span.stop.offset = stop ∧
      stop ≤ source.length ∧ Lexable (Lexer.slice source start stop) ∧
      (sourceTokens (Lexer.slice source start stop)).map Token.unplaced =
        us.map Token.unplaced := by
  obtain ⟨first, last, hfirst, hlast, rfl⟩ := hspan
  obtain ⟨before, after, htokens⟩ := hus
  have hlexemes : Lexer.lexemes source = before.map Lexeme.token ++
      (us.map Lexeme.token ++ after.map Lexeme.token) := by
    rw [h.lexemes_eq, ← htokens]
    simp
  have hfirst' : Lexeme.token first ∈ (us.map Lexeme.token).head? := by
    rw [List.head?_map, Option.mem_def.mp hfirst]
    rfl
  have hlast' : Lexeme.token last ∈ (us.map Lexeme.token).getLast? := by
    rw [List.getLast?_map, Option.mem_def.mp hlast]
    rfl
  obtain ⟨start, stop, hstart, hstop, -, hlength, hfaces⟩ :=
    Lexer.faces_slice hlexemes hfirst' hlast'
  refine ⟨start, stop, hstart, hstop, hlength, fun e he => ?_, ?_⟩
  · -- an error shows no kind, and every token does
    have hface : Lexeme.face (.error e) ∈ (us.map Lexeme.token).map Lexeme.face :=
      hfaces ▸ List.mem_map_of_mem he
    simp [Lexeme.face] at hface
  · have hus : Lexer.tokens (us.map Lexeme.token) = us := by
      simp [Lexer.tokens]
    rw [sourceTokens, Lexer.tokens_unplaced, hfaces, ← Lexer.tokens_unplaced, hus]

theorem Token.InRange.of_unplaced {ts : List Token} (hts : ∀ t ∈ ts, t.InRange)
    (h : us.map Token.unplaced = ts.map Token.unplaced) : ∀ u ∈ us, u.InRange := by
  intro u hu
  have hmem : u.unplaced ∈ ts.map Token.unplaced := h ▸ List.mem_map_of_mem hu
  obtain ⟨t, ht, hface⟩ := List.mem_map.mp hmem
  obtain ⟨hkind, hliteral⟩ := Token.unplaced_eq_iff.mp hface
  have hrange := hts t ht
  rwa [Token.InRange, hkind, hliteral] at hrange

end Excerpt

theorem diagnostics_eq_nil_iff {source : Text} :
    (Program.parse source).2.diagnostics = [] ↔ Lexable source ∧ Grammatical source := by
  rw [Parser.diagnostics, List.append_eq_nil_iff, List.map_eq_nil_iff, List.map_eq_nil_iff,
    lexicalErrors_eq_nil_iff, Parser.syntactic_eq_nil_iff]

-- In a source without lexical and syntax errors every expression is delimited by its place: the
-- stretch of source there is read on its own as that expression. Parts stand inside the whole, and
-- one behind the other.
theorem Program.parse_delimits_expressions (source : Text)
    (h : (parse source).2.diagnostics = []) :
    (∀ e ∈ (parse source).1.expressions, ∃ start stop : Nat,
      e.span.start.offset = start ∧ e.span.stop.offset = stop ∧ start < stop ∧
      stop ≤ source.length ∧ ReadsAs (Lexer.slice source start stop) e) ∧
    (parse source).1.Nested := by
  obtain ⟨hlexable, -, hrange⟩ := diagnostics_eq_nil_iff.mp h
  have hnested := nested_parse source
  refine ⟨fun e he => ?_, hnested⟩
  obtain ⟨us, hus, hcovers⟩ := (Parser.covers_parse source).exists_run he
  obtain ⟨start, stop, hstart, hstop, hlength, hslice, htokens⟩ :=
    hlexable.exists_slice hus hcovers.span_covers
  have hlt := (hnested.expressions e he).start_lt_stop
  refine ⟨start, stop, hstart, hstop, by omega, hlength, ?_⟩
  have hranges := Token.InRange.of_unplaced (fun t ht => hrange t (hus.subset ht)) htokens
  exact hslice.readsAs (hcovers.derives.of_unplaced htokens) hranges

theorem Program.parse_delimits_expressions_nested :
    let source : Text := "// é\nescreve nao(1 - -2<3)/* \" */;"
    (parse source).2.diagnostics = [] ∧ (parse source).1.expressions.length = 8 ∧
    (∀ e ∈ (parse source).1.expressions, ∃ start stop : Nat,
      e.span.start.offset = start ∧ e.span.stop.offset = stop ∧ start < stop ∧
      stop ≤ source.length ∧ ReadsAs (Lexer.slice source start stop) e) ∧
    (parse source).1.Nested := by
  intro source
  have hread : (parse source).2.diagnostics = [] := by decide +kernel
  have hlength : (parse source).1.expressions.length = 8 := by decide +kernel
  exact ⟨hread, hlength, parse_delimits_expressions source hread⟩

end Tuga
