import Mathlib.Data.List.Forall2
import Tuga.Proofs.Computation
import Tuga.TestCase

namespace Tuga

-- A text and what is left of it without the line break at its end, if it has one.
inductive Text.Chomped : Text → Text → Prop
  | ended (content : Text) : Chomped (content ++ [10]) content
  | unended {text : Text} (h : text.getLast? ≠ some 10) : Chomped text text

theorem Text.chomped_iff {text content : Text} :
    Chomped text content ↔ dropLineEnd text = content := by
  constructor
  · intro h
    cases h with
    | ended => simp [dropLineEnd]
    | unended h => rw [dropLineEnd, if_neg h]
  · rintro rfl
    rw [dropLineEnd]
    split
    case isTrue h =>
      obtain ⟨content, rfl⟩ := List.getLast?_eq_some_iff.mp h
      rw [List.dropLast_concat]
      exact .ended content
    case isFalse h => exact .unended h

namespace AssertionKind

theorem ofName?_eq_some_iff {language : Text} {kind : AssertionKind} :
    ofName? language = some kind ↔ language = kind.name := by
  constructor
  · intro h
    simpa [eq_comm] using List.find?_some h
  · rintro rfl
    cases kind <;> rfl

theorem name_ne_nil (kind : AssertionKind) : kind.name ≠ [] := by
  cases kind <;> decide

theorem name_ne_sourceLanguage (kind : AssertionKind) : kind.name ≠ TestCase.sourceLanguage := by
  cases kind <;> decide

end AssertionKind

-- The language of a fence. Other blocks have none.
def Markdown.Block.language : Block → Text
  | .heading _ => []
  | .fence language _ => language

namespace TestCase

open Markdown (Block TextLine headingText)

-- The heading of a test case and the blocks up to the next such heading.
structure Section where
  heading : List TextLine
  blocks : List Block

-- The blocks before the first heading of a test case, and the section of each such heading.
inductive Divided (labels : List Text) : List Block → List Block → List Section → Prop
  | nil : Divided labels [] [] []
  | fence {language : Text} {lines : List (Nat × Text)} {blocks before : List Block}
      {sections : List Section} (rest : Divided labels blocks before sections) :
      Divided labels (.fence language lines :: blocks) (.fence language lines :: before) sections
  | heading {lines : List TextLine} {blocks before : List Block} {sections : List Section}
      (title : ¬titleStart <+: headingText labels lines)
      (rest : Divided labels blocks before sections) :
      Divided labels (.heading lines :: blocks) (.heading lines :: before) sections
  | test {lines : List TextLine} {blocks before : List Block} {sections : List Section}
      (title : titleStart <+: headingText labels lines)
      (rest : Divided labels blocks before sections) :
      Divided labels (.heading lines :: blocks) [] (⟨lines, before⟩ :: sections)

-- What the fences among some blocks hold, in order: programs and expectations. Fences without a
-- language do not count, and no fence is in another language.
inductive Gathers : List Block → List Text → List Assertion → Prop
  | nil : Gathers [] [] []
  | heading {lines : List TextLine} {blocks : List Block} {programs : List Text}
      {assertions : List Assertion} (rest : Gathers blocks programs assertions) :
      Gathers (.heading lines :: blocks) programs assertions
  | plain {lines : List (Nat × Text)} {blocks : List Block} {programs : List Text}
      {assertions : List Assertion} (rest : Gathers blocks programs assertions) :
      Gathers (.fence [] lines :: blocks) programs assertions
  | program {lines : List (Nat × Text)} {content : Text} {blocks : List Block}
      {programs : List Text} {assertions : List Assertion}
      (chomped : Text.Chomped (lines.flatMap (·.2)) content)
      (rest : Gathers blocks programs assertions) :
      Gathers (.fence sourceLanguage lines :: blocks) (content :: programs) assertions
  | assertion {kind : AssertionKind} {lines : List (Nat × Text)} {content : Text}
      {blocks : List Block} {programs : List Text} {assertions : List Assertion}
      (chomped : Text.Chomped (lines.flatMap (·.2)) content)
      (rest : Gathers blocks programs assertions) :
      Gathers (.fence kind.name lines :: blocks) programs
        (⟨kind, content, (lines.head?.map (·.1)).getD 1⟩ :: assertions)

-- A case with a program and expectations, which are not both that the program does not compile and
-- what happens when it runs.
structure Valid (c : TestCase) : Prop where
  source_ne_nil : c.source ≠ []
  assertions_ne_nil : c.assertions ≠ []
  consistent : ∀ a ∈ c.assertions, a.kind = .compileError →
    ∀ b ∈ c.assertions, b.kind ≠ .output ∧ b.kind ≠ .runtimeError

-- A section gives a case if its fences hold `n` empty programs, then the program of the case, and
-- the expectations of the case.
structure Section.Gives (labels : List Text) (s : Section) (n : Nat) (c : TestCase) : Prop where
  title : ∃ rest, headingText labels s.heading = titleStart ++ rest ∧ c.name = Text.strip rest
  line : c.line = (s.heading.head?.map (·.number)).getD 1
  fences : Gathers s.blocks (List.replicate n [] ++ [c.source]) c.assertions
  valid : c.Valid

-- One case of each section, in order.
def Given (labels : List Text) (sections : List Section) (cases : List TestCase) : Prop :=
  List.Forall₂ (fun s c => ∃ n, s.Gives labels n c) sections cases

-- A fence for a program that is empty.
def Section.HasEmptyProgram (s : Section) : Prop :=
  ∃ lines, .fence sourceLanguage lines ∈ s.blocks ∧ Text.Chomped (lines.flatMap (·.2)) []

section Steps

variable {c next : TestCase} {language body title name : Text} {line : Nat}

theorem addFence_eq_ok_iff :
    c.addFence language body line = .ok next ↔
      (language = sourceLanguage ∧ c.source = [] ∧ next = { c with source := body }) ∨
      ∃ kind : AssertionKind, language = kind.name ∧
        next = { c with assertions := c.assertions ++ [⟨kind, body, line⟩] } := by
  constructor
  · intro h
    rw [addFence] at h
    split at h
    case isTrue hsource =>
      split at h
      case isTrue hempty =>
        cases h
        exact .inl ⟨hsource, List.isEmpty_iff.mp hempty, rfl⟩
      case isFalse => cases h
    case isFalse =>
      split at h
      case h_1 kind hkind =>
        cases h
        exact .inr ⟨kind, AssertionKind.ofName?_eq_some_iff.mp hkind, rfl⟩
      case h_2 => cases h
  · rintro (⟨rfl, hempty, rfl⟩ | ⟨kind, rfl, rfl⟩)
    · rw [addFence, if_pos rfl, if_pos (List.isEmpty_iff.mpr hempty)]
    · rw [addFence, if_neg kind.name_ne_sourceLanguage, AssertionKind.ofName?_eq_some_iff.mpr rfl]

theorem isSome_assertion?_iff {kind : AssertionKind} :
    (c.assertion? kind).isSome = true ↔ ∃ a ∈ c.assertions, a.kind = kind := by
  simp [assertion?]

theorem validate_eq_ok_iff : c.validate = .ok next ↔ next = c ∧ c.Valid := by
  constructor
  · intro h
    rw [validate] at h
    split at h
    case isTrue => cases h
    case isFalse hsource =>
      split at h
      case isTrue => cases h
      case isFalse hassertions =>
        split at h
        case isTrue => cases h
        case isFalse hconsistent =>
          cases h
          simp only [Bool.and_eq_true, Bool.or_eq_true, isSome_assertion?_iff] at hconsistent
          refine ⟨rfl, by simpa using hsource, by simpa using hassertions, ?_⟩
          intro a ha hkind b hb
          exact ⟨fun h => hconsistent ⟨⟨a, ha, hkind⟩, .inl ⟨b, hb, h⟩⟩,
            fun h => hconsistent ⟨⟨a, ha, hkind⟩, .inr ⟨b, hb, h⟩⟩⟩
  · rintro ⟨rfl, hsource, hassertions, hconsistent⟩
    rw [validate, if_neg (by simpa using hsource), if_neg (by simpa using hassertions), if_neg]
    simp only [Bool.and_eq_true, Bool.or_eq_true, isSome_assertion?_iff]
    rintro ⟨⟨a, ha, hkind⟩, ⟨b, hb, h⟩ | ⟨b, hb, h⟩⟩
    · exact (hconsistent a ha hkind b hb).1 h
    · exact (hconsistent a ha hkind b hb).2 h

theorem nameOf?_eq_some_iff :
    nameOf? title = some name ↔ ∃ rest, title = titleStart ++ rest ∧ name = Text.strip rest := by
  rw [nameOf?]
  split
  case isTrue h =>
    obtain ⟨rest, rfl⟩ := List.isPrefixOf_iff_prefix.mp h
    simp [eq_comm]
  case isFalse h =>
    simp only [reduceCtorEq, false_iff]
    rintro ⟨rest, rfl, -⟩
    exact h (List.isPrefixOf_iff_prefix.mpr (List.prefix_append _ _))

theorem nameOf?_eq_none_iff : nameOf? title = none ↔ ¬titleStart <+: title := by
  rw [nameOf?, ite_eq_right_iff, ← List.isPrefixOf_iff_prefix]
  simp

end Steps

section Taking

variable {c c' : TestCase} {blocks : List Block} {language : Text} {lines : List (Nat × Text)}

-- What a case becomes with the fences of some blocks. The expectations are added to its own. Of its
-- own program and those of the blocks, the last one is left, and all others are empty.
def Takes (c : TestCase) (blocks : List Block) (c' : TestCase) : Prop :=
  ∃ programs assertions, Gathers blocks programs assertions ∧
    c.source :: programs = List.replicate programs.length [] ++ [c'.source] ∧
    c' = { c with source := c'.source, assertions := c.assertions ++ assertions }

theorem takes_nil : c.Takes [] c' ↔ c' = c := by
  constructor
  · rintro ⟨programs, assertions, hgathers, hsource, hc'⟩
    cases hgathers
    have hsame : c.source = c'.source := by simpa using hsource
    rw [hc', ← hsame, List.append_nil]
  · rintro rfl
    exact ⟨[], [], .nil, rfl, by simp⟩

theorem takes_heading {lines : List TextLine} :
    c.Takes (.heading lines :: blocks) c' ↔ c.Takes blocks c' := by
  constructor
  · rintro ⟨programs, assertions, hgathers, htaken⟩
    cases hgathers with
    | heading rest => exact ⟨programs, assertions, rest, htaken⟩
  · rintro ⟨programs, assertions, hgathers, htaken⟩
    exact ⟨programs, assertions, .heading hgathers, htaken⟩

theorem takes_plain : c.Takes (.fence [] lines :: blocks) c' ↔ c.Takes blocks c' := by
  constructor
  · rintro ⟨programs, assertions, hgathers, htaken⟩
    generalize hlanguage : ([] : Text) = language at hgathers
    cases hgathers with
    | plain rest => exact ⟨programs, assertions, rest, htaken⟩
    | program => cases hlanguage
    | @assertion kind => exact absurd hlanguage.symm kind.name_ne_nil
  · rintro ⟨programs, assertions, hgathers, htaken⟩
    exact ⟨programs, assertions, .plain hgathers, htaken⟩

theorem takes_fence (hlanguage : language ≠ []) :
    c.Takes (.fence language lines :: blocks) c' ↔
      ∃ next, c.addFence language (Text.dropLineEnd (lines.flatMap (·.2)))
        ((lines.head?.map (·.1)).getD 1) = .ok next ∧ next.Takes blocks c' := by
  simp only [addFence_eq_ok_iff]
  constructor
  · rintro ⟨programs, assertions, hgathers, hsource, hc'⟩
    cases hgathers with
    | plain => exact absurd rfl hlanguage
    | @program lines content _ programs _ chomped rest =>
        -- Another program follows, so the one that the case has is empty.
        rw [List.length_cons, List.replicate_succ, List.cons_append, List.cons.injEq] at hsource
        refine ⟨_, .inl ⟨rfl, hsource.1, rfl⟩, programs, assertions, rest, ?_, hc'⟩
        rw [Text.chomped_iff.mp chomped]
        exact hsource.2
    | @assertion kind lines content _ _ assertions chomped rest =>
        refine ⟨_, .inr ⟨kind, rfl, rfl⟩, programs, assertions, rest, hsource, ?_⟩
        rw [Text.chomped_iff.mp chomped, hc']
        simp
  · rintro ⟨next, ⟨rfl, hempty, rfl⟩ | ⟨kind, rfl, rfl⟩, programs, assertions, rest, hsource, hc'⟩
    · refine ⟨_, assertions, .program (Text.chomped_iff.mpr rfl) rest, ?_, hc'⟩
      rw [List.length_cons, List.replicate_succ, List.cons_append, hempty, hsource]
    · refine ⟨programs, _, .assertion (Text.chomped_iff.mpr rfl) rest, hsource, ?_⟩
      rw [hc']
      simp

-- A new case takes the fences of its section: a program that is not empty, behind any number of
-- empty ones.
theorem takes_new {name : Text} {line : Nat} (hsource : c'.source ≠ []) :
    ({ name, line } : TestCase).Takes blocks c' ↔
      c'.name = name ∧ c'.line = line ∧
        ∃ n, Gathers blocks (List.replicate n [] ++ [c'.source]) c'.assertions := by
  constructor
  · rintro ⟨programs, assertions, hgathers, hprograms, hc'⟩
    rw [hc']
    refine ⟨rfl, rfl, ?_⟩
    cases hlength : programs.length with
    | zero =>
        rw [hlength] at hprograms
        exact absurd (List.cons.inj hprograms).1.symm hsource
    | succ n =>
        rw [hlength, List.replicate_succ, List.cons_append] at hprograms
        refine ⟨n, ?_⟩
        rw [← (List.cons.inj hprograms).2]
        exact hgathers
  · rintro ⟨rfl, rfl, n, hgathers⟩
    refine ⟨_, _, hgathers, ?_, rfl⟩
    rw [List.length_append, List.length_replicate, List.length_singleton, List.replicate_succ]
    rfl

end Taking

section Reading

variable {labels : List Text} {blocks before : List Block} {sections : List Section}
  {c : TestCase} {cases : List TestCase}

theorem exists_divided (labels : List Text) (blocks : List Block) :
    ∃ before sections, Divided labels blocks before sections := by
  induction blocks with
  | nil => exact ⟨[], [], .nil⟩
  | cons b blocks ih =>
      obtain ⟨before, sections, rest⟩ := ih
      cases b with
      | fence language lines => exact ⟨_, sections, .fence rest⟩
      | heading lines =>
          by_cases title : titleStart <+: headingText labels lines
          · exact ⟨[], _, .test title rest⟩
          · exact ⟨_, sections, .heading title rest⟩

theorem Section.exists_gives_iff {s : Section} {name : Text}
    (hname : nameOf? (headingText labels s.heading) = some name) :
    (∃ n, s.Gives labels n c) ↔
      Takes { name, line := (s.heading.head?.map (·.number)).getD 1 } s.blocks c ∧ c.Valid := by
  constructor
  · rintro ⟨n, title, line, fences, valid⟩
    rw [← nameOf?_eq_some_iff, hname, Option.some.injEq] at title
    exact ⟨(takes_new valid.source_ne_nil).mpr ⟨title.symm, line, n, fences⟩, valid⟩
  · rintro ⟨htakes, valid⟩
    obtain ⟨rfl, line, n, fences⟩ := (takes_new valid.source_ne_nil).mp htakes
    exact ⟨n, nameOf?_eq_some_iff.mp hname, line, fences, valid⟩

-- The case that is being read takes the blocks before the next heading of a case and is followed by
-- the cases of the sections.
def Completes (labels : List Text) (c : TestCase) (before : List Block) (sections : List Section)
    (cases : List TestCase) : Prop :=
  ∃ c' rest, c.Takes before c' ∧ c'.Valid ∧ Given labels sections rest ∧ cases = c' :: rest

theorem given_cons_iff {lines : List TextLine} {name : Text}
    (hname : nameOf? (headingText labels lines) = some name) :
    Given labels (⟨lines, before⟩ :: sections) cases ↔
      Completes labels { name, line := (lines.head?.map (·.number)).getD 1 } before sections
        cases := by
  have hgives := fun c => Section.exists_gives_iff (c := c) (s := ⟨lines, before⟩) hname
  simp only [Given, Completes, List.forall₂_cons_left_iff, hgives, and_assoc]

theorem exists_nameOf? {title : Text} (h : titleStart <+: title) :
    ∃ name, nameOf? title = some name :=
  Option.ne_none_iff_exists'.mp (mt nameOf?_eq_none_iff.mp (not_not.mpr h))

-- Each fence before the next heading changes the case that is being read, and the heading ends it.
theorem ofParts_some_eq_ok_iff (h : Divided labels blocks before sections) :
    ofParts (some c) (blocks.map (Part.ofBlock labels)) = .ok cases ↔
      Completes labels c before sections cases := by
  induction h generalizing c cases with
  | nil =>
      rw [List.map_nil, ofParts, bind_eq_ok]
      simp only [validate_eq_ok_iff, Completes, takes_nil, Given, List.forall₂_nil_left_iff]
      constructor
      · rintro ⟨c, ⟨rfl, hvalid⟩, h⟩
        exact ⟨c, [], rfl, hvalid, rfl, (Except.ok.inj h).symm⟩
      · rintro ⟨c, rest, rfl, hvalid, rfl, rfl⟩
        exact ⟨c, ⟨rfl, hvalid⟩, rfl⟩
  | @fence language lines blocks before sections rest ih =>
      rw [List.map_cons, Part.ofBlock, ofParts]
      by_cases hlanguage : language = []
      · subst hlanguage
        rw [if_pos List.isEmpty_nil, ih]
        simp only [Completes, takes_plain]
      · rw [if_neg (by simpa using hlanguage), bind_eq_ok]
        simp only [ih, Completes, takes_fence hlanguage]
        constructor
        · rintro ⟨next, hnext, c', rest, htakes, hrest⟩
          exact ⟨c', rest, ⟨next, hnext, htakes⟩, hrest⟩
        · rintro ⟨c', rest, ⟨next, hnext, htakes⟩, hrest⟩
          exact ⟨next, hnext, c', rest, htakes, hrest⟩
  | heading title rest ih =>
      rw [List.map_cons, Part.ofBlock, ofParts, nameOf?_eq_none_iff.mpr title]
      simp only [ih, Completes, takes_heading]
  | test title rest ih =>
      obtain ⟨name, hname⟩ := exists_nameOf? title
      rw [List.map_cons, Part.ofBlock, ofParts, hname]
      dsimp only
      simp only [bind_eq_ok, ih, ← given_cons_iff hname, validate_eq_ok_iff]
      constructor
      · rintro ⟨c, ⟨rfl, hvalid⟩, rest, hrest, h⟩
        exact ⟨c, rest, takes_nil.mpr rfl, hvalid, hrest, (Except.ok.inj h).symm⟩
      · rintro ⟨c', rest, htakes, hvalid, hrest, rfl⟩
        obtain rfl := takes_nil.mp htakes
        exact ⟨c', ⟨rfl, hvalid⟩, rest, hrest, rfl⟩

theorem ofParts_none_eq_ok_iff (h : Divided labels blocks before sections) :
    ofParts none (blocks.map (Part.ofBlock labels)) = .ok cases ↔
      (∀ b ∈ before, b.language = []) ∧ Given labels sections cases := by
  induction h with
  | nil =>
      rw [List.map_nil, ofParts, Given, List.forall₂_nil_left_iff]
      exact ⟨fun h => ⟨by simp, (Except.ok.inj h).symm⟩, fun h => congrArg Except.ok h.2.symm⟩
  | @fence language lines blocks before sections rest ih =>
      rw [List.map_cons, Part.ofBlock, ofParts, List.forall_mem_cons, Block.language]
      by_cases hlanguage : language = []
      · rw [if_pos (List.isEmpty_iff.mpr hlanguage), ih, and_iff_right hlanguage]
      · rw [if_neg (mt List.isEmpty_iff.mp hlanguage)]
        simp [hlanguage]
  | heading title rest ih =>
      rw [List.map_cons, Part.ofBlock, ofParts, nameOf?_eq_none_iff.mpr title,
        List.forall_mem_cons, Block.language, and_iff_right rfl]
      exact ih
  | test title rest ih =>
      obtain ⟨name, hname⟩ := exists_nameOf? title
      rw [List.map_cons, Part.ofBlock, ofParts, hname, given_cons_iff hname]
      simpa using ofParts_some_eq_ok_iff rest

end Reading

section Counting

variable {labels : List Text} {blocks before : List Block} {sections : List Section}
  {programs : List Text} {assertions : List Assertion} {s : Section} {n : Nat} {c : TestCase}
  {cases : List TestCase} {b : Block}

theorem Divided.exists_section (h : Divided labels blocks before sections) (hb : b ∈ blocks)
    (hlanguage : b.language ≠ []) : b ∈ before ∨ ∃ s ∈ sections, b ∈ s.blocks := by
  induction h with
  | nil => cases hb
  | fence rest ih => grind
  | heading title rest ih => grind
  | @test lines blocks before sections title rest ih =>
      have hb : b ∈ blocks := List.mem_of_ne_of_mem (by rintro rfl; exact hlanguage rfl) hb
      right
      rcases ih hb with hbefore | ⟨s, hs, hb⟩
      · exact ⟨⟨lines, before⟩, List.mem_cons_self, hbefore⟩
      · exact ⟨s, List.mem_cons_of_mem _ hs, hb⟩

theorem sourceLanguage_ne_nil : sourceLanguage ≠ [] := by decide

namespace Gathers

theorem length_programs (h : Gathers blocks programs assertions) :
    programs.length = blocks.countP (·.language = sourceLanguage) := by
  induction h with
  | nil => rfl
  | heading rest ih =>
      rw [ih, List.countP_cons_of_neg (by simp [Block.language, sourceLanguage_ne_nil.symm])]
  | plain rest ih =>
      rw [ih, List.countP_cons_of_neg (by simp [Block.language, sourceLanguage_ne_nil.symm])]
  | program chomped rest ih =>
      rw [List.length_cons, ih, List.countP_cons_of_pos (by simp [Block.language])]
  | @assertion kind _ _ _ _ _ chomped rest ih =>
      rw [ih, List.countP_cons_of_neg (by simp [Block.language, kind.name_ne_sourceLanguage])]

theorem known (h : Gathers blocks programs assertions) :
    ∀ b ∈ blocks, b.language = [] ∨ b.language = sourceLanguage ∨
      ∃ kind : AssertionKind, b.language = kind.name := by
  induction h with
  | nil => simp
  | heading rest ih => exact List.forall_mem_cons.mpr ⟨.inl rfl, ih⟩
  | plain rest ih => exact List.forall_mem_cons.mpr ⟨.inl rfl, ih⟩
  | program _ rest ih => exact List.forall_mem_cons.mpr ⟨.inr (.inl rfl), ih⟩
  | assertion _ rest ih => exact List.forall_mem_cons.mpr ⟨.inr (.inr ⟨_, rfl⟩), ih⟩

theorem mem_cons_of_language_ne {lines : List (Nat × Text)} (h : b.language ≠ sourceLanguage) :
    .fence sourceLanguage lines ∈ b :: blocks ↔ .fence sourceLanguage lines ∈ blocks := by
  rw [List.mem_cons, or_iff_right]
  rintro rfl
  exact h rfl

theorem mem_programs_iff (h : Gathers blocks programs assertions) {content : Text} :
    content ∈ programs ↔ ∃ lines, .fence sourceLanguage lines ∈ blocks ∧
      Text.Chomped (lines.flatMap (·.2)) content := by
  induction h with
  | nil => simp
  | heading rest ih =>
      simp only [ih, mem_cons_of_language_ne (b := .heading _) sourceLanguage_ne_nil.symm]
  | plain rest ih =>
      simp only [ih, mem_cons_of_language_ne (b := .fence [] _) sourceLanguage_ne_nil.symm]
  | @program lines content' _ _ _ chomped rest ih =>
      constructor
      · intro hcontent
        rcases List.mem_cons.mp hcontent with rfl | hcontent
        · exact ⟨lines, List.mem_cons_self, chomped⟩
        · obtain ⟨lines, hlines, h⟩ := ih.mp hcontent
          exact ⟨lines, List.mem_cons_of_mem _ hlines, h⟩
      · rintro ⟨lines', hlines, h⟩
        rcases List.mem_cons.mp hlines with heq | hlines
        · cases heq
          rw [← Text.chomped_iff.mp h, Text.chomped_iff.mp chomped]
          exact List.mem_cons_self
        · exact List.mem_cons_of_mem _ (ih.mpr ⟨lines', hlines, h⟩)
  | @assertion kind _ _ _ _ _ chomped rest ih =>
      simp only [ih, mem_cons_of_language_ne (b := .fence kind.name _) kind.name_ne_sourceLanguage]

end Gathers

namespace Section

-- The program of a case is not empty, so the empty ones are those before it.
theorem Gives.eq_zero_iff (h : s.Gives labels n c) : n = 0 ↔ ¬s.HasEmptyProgram := by
  rw [HasEmptyProgram, ← h.fences.mem_programs_iff, List.mem_append, List.mem_replicate,
    List.mem_singleton]
  simp [h.valid.source_ne_nil.symm]

theorem gives_zero_iff :
    s.Gives labels 0 c ↔ ¬s.HasEmptyProgram ∧ ∃ n, s.Gives labels n c := by
  constructor
  · intro h
    exact ⟨h.eq_zero_iff.mp rfl, 0, h⟩
  · rintro ⟨hempty, n, h⟩
    obtain rfl := h.eq_zero_iff.mpr hempty
    exact h

theorem Gives.countP_eq (h : s.Gives labels n c) :
    s.blocks.countP (·.language = sourceLanguage) = n + 1 := by
  rw [← h.fences.length_programs]
  simp

end Section

theorem Given.exists_gives (h : Given labels sections cases) (hs : s ∈ sections) :
    ∃ n c, s.Gives labels n c := by
  induction h with
  | nil => cases hs
  | cons hgives _ ih =>
      rcases List.mem_cons.mp hs with rfl | hs
      · obtain ⟨n, hgives⟩ := hgives
        exact ⟨n, _, hgives⟩
      · exact ih hs

-- The headings of test cases divide every document. It is read exactly if no fence before them has
-- a language and each section gives a case, where empty programs may stand before the program of
-- the case. There is one fence for programs in the section of each case exactly if none of them is
-- empty. A document is refused if a fence with a language stands before all headings, if a fence
-- is in another language, or if a section without empty programs has not exactly one program.
theorem ofDocument_reads_sections (document : Markdown.Document) :
    ∃ before sections, Divided document.labels document.blocks before sections ∧
      (∀ cases, ofDocument document = .ok cases ↔
        (∀ b ∈ before, b.language = []) ∧
          List.Forall₂ (fun s c => ∃ n, s.Gives document.labels n c) sections cases) ∧
      (∀ cases,
        ((∀ b ∈ before, b.language = []) ∧
          List.Forall₂ (fun s c => s.Gives document.labels 0 c) sections cases) ↔
        (∀ s ∈ sections, ¬s.HasEmptyProgram) ∧ ofDocument document = .ok cases) ∧
      ((∃ b ∈ before, b.language ≠ []) ∨
        (∃ b ∈ document.blocks, b.language ≠ [] ∧ b.language ≠ sourceLanguage ∧
          ∀ kind : AssertionKind, b.language ≠ kind.name) ∨
        (∃ s ∈ sections, ¬s.HasEmptyProgram ∧
          s.blocks.countP (·.language = sourceLanguage) ≠ 1) →
        ∃ error, ofDocument document = .error error) := by
  obtain ⟨before, sections, hdivided⟩ := exists_divided document.labels document.blocks
  have hreads : ∀ cases, ofDocument document = .ok cases ↔
      (∀ b ∈ before, b.language = []) ∧ Given document.labels sections cases :=
    fun cases => ofParts_none_eq_ok_iff hdivided
  refine ⟨before, sections, hdivided, hreads, fun cases => ?_, fun hrefused => ?_⟩
  · rw [hreads, Given]
    simp only [Section.gives_zero_iff, List.forall₂_and_left]
    exact and_left_comm
  · cases hresult : ofDocument document with
    | error error => exact ⟨error, rfl⟩
    | ok cases =>
        obtain ⟨hbefore, hgiven⟩ := (hreads cases).mp hresult
        exfalso
        rcases hrefused with ⟨b, hb, hlanguage⟩ | ⟨b, hb, hlanguage, hsource, hkind⟩ |
          ⟨s, hs, hempty, hcount⟩
        · exact hlanguage (hbefore b hb)
        · rcases hdivided.exists_section hb hlanguage with hb | ⟨s, hs, hb⟩
          · exact hlanguage (hbefore b hb)
          · obtain ⟨n, c, hgives⟩ := hgiven.exists_gives hs
            rcases hgives.fences.known b hb with h | h | ⟨kind, h⟩
            · exact hlanguage h
            · exact hsource h
            · exact hkind kind h
        · obtain ⟨n, c, hgives⟩ := hgiven.exists_gives hs
          obtain rfl := hgives.eq_zero_iff.mpr hempty
          exact hcount hgives.countP_eq

-- The first fence for programs of the only section is empty and goes unnoticed.
theorem ofMarkdown_empty_program_ignored :
    let text : Text := "## Test: x\n```tuga\n```\n```tuga\nescreve 1;\n```\n```output\n1\n```\n"
    let document := Markdown.Document.ofText text
    ofMarkdown text = .ok [⟨"x", 1, "escreve 1;", [⟨.output, "1", 8⟩]⟩] ∧
      ∃ s, Divided document.labels document.blocks [] [s] ∧
        s.blocks.countP (·.language = sourceLanguage) = 2 := by
  intro text document
  let heading : List TextLine := [⟨1, [], "Test: x"⟩]
  let fences : List Block :=
    [.fence "tuga" [], .fence "tuga" [(5, "escreve 1;\n")], .fence "output" [(8, "1\n")]]
  have hblocks : document.blocks = .heading heading :: fences := by decide +kernel
  refine ⟨by decide +kernel, ⟨heading, fences⟩, ?_, by decide +kernel⟩
  rw [hblocks]
  exact .test (by decide +kernel) (.fence (.fence (.fence .nil)))

end Counting

end TestCase

end Tuga
