import Tuga.Markdown.Passage
import Tuga.Text.CaseFolding
import Tuga.Text.Utf8

namespace Tuga.Markdown

def collapseSpace : Text → Text
  | [] => []
  | [b] => if isSpace b then [32] else [b]
  | a :: b :: rest =>
    if isSpace a then
      if isSpace b then collapseSpace (b :: rest) else 32 :: collapseSpace (b :: rest)
    else a :: collapseSpace (b :: rest)

def foldedText (text : Text) : Text :=
  text.characters.flatMap fun c =>
    if c.isWellFormed then Text.ofCodes (Text.caseFold c.code) else c.bytes

-- What labels are compared by: space at the ends and case do not count, and every other run of
-- space counts as one blank.
def labelKey (label : Text) : Text :=
  foldedText (collapseSpace (trimRight (label.dropWhile isSpace)))

structure Definition where
  label : Text
  start : Nat
  stop : Nat

-- The definition at the start of a passage and the place where reading goes on. None if something
-- else stands there. What looks like a title counts only if nothing follows it on its line; where
-- it stands on a line of its own, the definition holds without it. Reading goes on behind what was
-- searched for the end of a title.
def definition? (p : Passage) : Option (Definition × Passage) := do
  let p := p.skipSpace.2
  let start := p.index
  if p.head? ≠ some 91 then failure
  let (label, p) ← (p.next.untilClosing 91 93).toOption
  if isBlank label then failure
  if p.head? ≠ some 58 then failure
  let p ← p.next.skipDestination?
  let alone := isBlank p.rest
  let stop := p.index
  let (spaces, q) := p.skipSpace
  match q.head?.bind fun b => (Passage.titleClosing? b).map fun closing => (b, closing) with
  | none => if alone then some (⟨label, start, stop + 1⟩, q) else none
  | some (opening, closing) =>
    if spaces = 0 then failure
    match q.next.untilClosing opening closing with
    | .error r => if alone then some (⟨label, start, stop + 1⟩, r.nextLine) else none
    | .ok (_, r) =>
      if isBlank r.rest then some (⟨label, start, r.index + 1⟩, r)
      else if alone then some (⟨label, start, stop⟩, r)
      else none

def definitions : Nat → Passage → List Definition
  | 0, _ => []
  | limit + 1, p =>
    match definition? p with
    | none => []
    | some (d, q) => d :: definitions limit q

def Definition.behind (d : Definition) : Nat := max d.stop (d.start + 1)

-- Takes definitions out of lines. The lines are counted as if all lines up to the definition before
-- were gone.
def removeDefinitions {α : Type} (offset : Nat) (lines : List α) : List Definition → List α
  | [] => lines
  | d :: rest =>
    let left := lines.take (d.start - offset) ++ lines.drop (d.behind - offset)
    removeDefinitions d.behind left rest

-- The keys of the labels that a paragraph defines, and the lines that are left of it.
def extractDefinitions (lines : List TextLine) : List Text × List TextLine :=
  let found := definitions lines.length (.ofLines lines)
  (found.map fun d => labelKey d.label, removeDefinitions 0 lines found)

end Tuga.Markdown
