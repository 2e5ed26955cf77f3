import Tuga.Markdown.Autolink
import Tuga.Markdown.Emphasis
import Tuga.Markdown.Html
import Tuga.Markdown.Reference

namespace Tuga.Markdown

-- An open bracket: whether it opens an image, where it stands in the document, how many bytes were
-- read when it was, and the spans since, nearest first.
structure Bracket where
  image : Bool
  position : Nat
  offset : Nat
  spans : List Span := []
  deriving Repr

def Bracket.hasLink (b : Bracket) : Bool :=
  b.spans.any fun
    | .text _ linked => linked
    | .run _ => false

def maxBracketSpan : Nat := 998

def Bracket.tooFar (brackets : List Bracket) : Bool :=
  match brackets.head?, brackets.getLast? with
  | some inner, some outer =>
    maxBracketSpan < inner.position + (if inner.image then 2 else 1) - outer.position
  | _, _ => false

-- What was read so far: the spans outside all brackets, nearest first, and the open brackets,
-- innermost first.
structure Inlines where
  spans : List Span := []
  brackets : List Bracket := []
  deriving Repr

namespace Inlines

def add (s : Inlines) (spans : List Span) : Inlines :=
  match s.brackets with
  | [] => { s with spans := spans ++ s.spans }
  | b :: rest => { s with brackets := { b with spans := spans ++ b.spans } :: rest }

def addText (s : Inlines) (text : Text) : Inlines := s.add [.text text false]

def giveUp (s : Inlines) : Inlines :=
  match s.brackets with
  | [] => s
  | b :: rest =>
    let mark : Text := if b.image then "![" else "["
    { s with brackets := rest }.add (b.spans ++ [Span.text mark false])

def finish (s : Inlines) : Inlines :=
  match s.brackets with
  | [] => s
  | b :: rest =>
    { s with brackets := rest }.add [.text (plainText b.spans.reverse) (!b.image || b.hasLink)]

def render (s : Inlines) : Text :=
  plainText (s.brackets.foldl (fun s _ => s.giveUp) s).spans.reverse

end Inlines

def Bracket.label (b : Bracket) (p : Passage) : Text :=
  (p.taken.take (p.taken.length - b.offset)).reverse

namespace Passage

def remaining (p : Passage) : Text :=
  p.rest ++ p.following.flatMap TextLine.text

-- The code point before a place. A line break counts as standing before the text.
def codeBefore (p : Passage) : Nat :=
  let tail := p.read.takeWhile Character.isContinuation
  match p.read.drop tail.length with
  | [] => 10
  | b :: _ => if p.taken.isEmpty then 10 else (Character.leading b (tail.reverse ++ p.rest)).code

def skipTarget? (p : Passage) : Option Passage := do
  let p := p.skipSpace.2
  if p.head? = some 41 then return p.next
  let q := (← p.skipDestination?).skipSpace.2
  if q.head? = some 41 then return q.next
  let r := (← q.skipTitle?).skipSpace.2
  if r.head? = some 41 then return r.next
  failure

end Passage

def maxLabel : Nat := 999

-- The place behind a link whose closing bracket stands at `p`: a target in round brackets, a label
-- in square ones, or the text itself as a label. A label must be defined.
def linkEnd? (labels : List Text) (b : Bracket) (p : Passage) : Option Passage :=
  let after := p.next
  let defined (label : Text) : Bool := label.length ≤ maxLabel && labels.contains (labelKey label)
  let short := if defined (b.label p) then some after else none
  match after.head? with
  | some 40 => after.next.skipTarget?.or short
  | some 91 =>
    match after.next.untilClosing 91 93 with
    | .ok (label, q) =>
      if defined (if isBlank label then b.label p else label) then some q else none
    | .error _ => short
  | _ => short

def backticksAt? (n : Nat) (run : Nat) : Text → Option Nat
  | [] => if run = n then some 0 else none
  | b :: rest =>
    if b = 96 then (backticksAt? n (run + 1) rest).map (· + 1)
    else if run = n then some 0
    else (backticksAt? n 0 rest).map (· + 1)

-- The text of a code span. Unless it is blank, a blank or line break at both ends is left out.
def codeText (text : Text) : Text :=
  let isGap (b : UInt8) : Bool := b = 32 || b = 10
  if !isBlank text && text.head?.any isGap && text.getLast?.any isGap then (text.drop 1).dropLast
  else text

-- What starts at a place that may start something other than text: the state after it, and how
-- many bytes beyond the first it takes. None if the first byte is text.
def inlineAt (labels : List Text) (s : Inlines) (p : Passage) : Inlines × Option Nat :=
  match p.rest with
  | 96 :: _ =>
    let n := (p.rest.takeWhile (· = 96)).length
    let body := p.remaining.drop n
    match backticksAt? n 0 body with
    | some stop => (s.addText (codeText (body.take (stop - n))), some (n + stop - 1))
    | none => (s.addText (List.replicate n 96), some (n - 1))
  | 33 :: 91 :: _ =>
    ({ s with brackets := ⟨true, p.position, p.taken.length + 2, []⟩ :: s.brackets }, some 1)
  | 91 :: _ =>
    ({ s with brackets := ⟨false, p.position, p.taken.length + 1, []⟩ :: s.brackets }, some 0)
  | 93 :: _ =>
    match s.brackets with
    | [] => (s, none)
    | b :: outer =>
      if Bracket.tooFar outer || (!b.image && b.hasLink) then (s.giveUp, none)
      else
        match linkEnd? labels b p with
        | some q => (s.finish, some (q.taken.length - p.taken.length - 1))
        | none => (s.giveUp, none)
  | 60 :: _ => (s, ((Autolink.length? p.rest).or (Html.length? p.remaining)).map (· - 1))
  | b :: _ =>
    if b = 42 || b = 95 then
      let n := (p.rest.takeWhile (· = b)).length
      let after :=
        match p.rest.drop n with
        | [] => 32
        | c :: rest =>
          if Character.isContinuation c then b.toNat else (Character.leading c rest).code
      (s.add [.run (.between b n p.codeBefore after)], some (n - 1))
    else (s, none)
  | [] => (s, none)

-- Reads running text. `pending` holds the bytes since the last span, nearest first, and `previous`
-- the byte before the place, unless a span ends there. A backslash takes the meaning of the mark
-- after it. Space at the end of a line is dropped, and so is a backslash there, which keeps the
-- space before it. A backslash before two blanks at the end of a line counts for the next line.
def readInlines (labels : List Text) (s : Inlines) (pending : Text) (previous : Option UInt8)
    (escaped : Bool) (p : Passage) : Inlines :=
  match _h : p.rest with
  | [] => s.addText (trimRight pending.reverse)
  | b :: tail =>
    if b = 10 then
      readInlines labels (s.addText (trimRight pending.reverse)) [] none escaped p.nextLine
    else if b = 32 && (tail = [32, 10] || tail = [32, 13, 10]) then
      readInlines labels (s.addText (trimRight pending.reverse)) [] none escaped p.nextLine
    else if b = 92 && (tail = [10] || tail = [13, 10]) && previous ≠ some 92 then
      readInlines labels (s.addText pending.reverse) [] none escaped p.nextLine
    else if isPunct b && (!escaped || previous.isNone) then
      match inlineAt labels (s.addText pending.reverse) p with
      | (s, some n) => readInlines labels s [] none escaped (p.next.drop n)
      | (s, none) => readInlines labels s [b] (some b) (!escaped && b = 92) p.next
    else readInlines labels s (b :: pending) (some b) (!escaped && b = 92) p.next
  termination_by p.size
  decreasing_by
    · exact Passage.size_nextLine_lt (by simp_all)
    · exact Passage.size_nextLine_lt (by simp_all)
    · exact Passage.size_nextLine_lt (by simp_all)
    · exact Nat.lt_of_le_of_lt (Passage.size_drop_le _ _) (Passage.size_next_lt (by simp_all))
    · exact Passage.size_next_lt (by simp_all)
    · exact Passage.size_next_lt (by simp_all)

-- The text of a heading. Emphasis, links, images and code stand for the text inside them; addresses
-- in angle brackets and HTML stand for nothing; everything else stands for itself as it is written.
def headingText (labels : List Text) (lines : List TextLine) : Text :=
  (readInlines labels {} [] none false (.ofLines lines)).render

end Tuga.Markdown
