import Tuga.Markdown.Line
import Tuga.Text.Punctuation
import Tuga.Text.Utf8
import Tuga.Text.Words

namespace Tuga.Markdown

-- A run of marks of emphasis. `full` is the length it had before any of it was used up.
structure Run where
  mark : UInt8
  length : Nat
  full : Nat
  opens : Bool
  closes : Bool
  deriving DecidableEq, Repr

namespace Run

-- A run between two code points. Next to punctuation a run opens or closes only on the side away
-- from the text; an underscore does so only at the edge of a word.
def between (mark : UInt8) (length before after : Nat) : Run :=
  let left :=
    !Text.isBlank after &&
      (!Text.isPunctuation after || Text.isBlank before || Text.isPunctuation before)
  let right :=
    !Text.isBlank before &&
      (!Text.isPunctuation before || Text.isBlank after || Text.isPunctuation after)
  let whole := mark = 95
  { mark, length, full := length
    opens := left && (!whole || !right || Text.isPunctuation before)
    closes := right && (!whole || !left || Text.isPunctuation after) }

def text (r : Run) : Text := List.replicate r.length r.mark

-- How many marks a closing run and an opening run use up. Runs that could go both ways match only
-- if their lengths do not add up to a multiple of three, unless both are such multiples.
def matched (opening closing : Run) : Nat :=
  if (opening.closes || closing.opens) && (opening.full + closing.full) % 3 = 0 &&
      closing.full % 3 ≠ 0 then 0
  else if 2 ≤ opening.length && 2 ≤ closing.length then 2
  else 1

end Run

inductive Span where
  | text (text : Text) (linked : Bool)
  | run (run : Run)
  deriving Repr

namespace Span

def render : Span → Text
  | text t _ => t
  | run r => r.text

def settle : Span → Span
  | run r => text r.text false
  | s => s

end Span

-- The nearest run before a closing run that can open emphasis with it: the spans after it, the run
-- itself, how many marks are used up, and the spans before it.
def findOpening (closing : Run) : List Span → Option (List Span × Run × Nat × List Span)
  | [] => none
  | .run r :: before =>
    let n := if r.opens && r.mark = closing.mark then r.matched closing else 0
    if n ≠ 0 then some ([], r, n, before)
    else (findOpening closing before).map fun (between, o) => (.run r :: between, o)
  | s :: before => (findOpening closing before).map fun (between, o) => (s :: between, o)

def hasCandidate (closing : Run) (before : List Span) : Bool :=
  before.any fun
    | .run r => r.opens && r.mark = closing.mark
    | .text .. => false

-- Uses up a closing run as far as runs before it match. The spans before it come nearest first.
-- Runs between two that match are settled.
def close : Nat → Run → List Span → List Span
  | 0, _, before => before
  | limit + 1, closing, before =>
    match findOpening closing before with
    | some (between, opening, n, rest) =>
      let opened := { opening with length := opening.length - n }
      let rest := if opened.length = 0 then rest else .run opened :: rest
      let before := between.map Span.settle ++ rest
      let closing := { closing with length := closing.length - n }
      if closing.length = 0 then before else close limit closing before
    | none =>
      if hasCandidate closing before || closing.opens then .run closing :: before
      else .text closing.text false :: before

def matchRuns (done : List Span) : List Span → List Span
  | [] => done.reverse
  | .run r :: rest =>
    matchRuns (if r.closes then close r.length r done else .run r :: done) rest
  | s :: rest => matchRuns (s :: done) rest

def plainText (spans : List Span) : Text :=
  (matchRuns [] spans).flatMap Span.render

end Tuga.Markdown
