import Tuga.Markdown.Line

namespace Tuga.Markdown

-- A line of running text. `before` holds the bytes before it on its line of the document, nearest
-- first.
structure TextLine where
  number : Nat
  before : Text
  text : Text
  deriving DecidableEq, Repr

def Line.toTextLine (l : Line) : TextLine :=
  let space := l.rest.takeWhile isSpace
  ⟨l.number, space.reverse ++ l.before, l.rest.drop space.length⟩

-- A place in running text. `read` holds the bytes of the document's line before the place, the
-- nearest first; `taken` those of the whole text. `position` counts the bytes of the document since
-- the start of the text, with those before the text of each line.
structure Passage where
  index : Nat := 0
  position : Nat := 0
  read : Text := []
  taken : Text := []
  rest : Text
  following : List TextLine
  deriving Repr

namespace Passage

def ofLines : List TextLine → Passage
  | [] => { rest := [], following := [] }
  | line :: following => { read := line.before, rest := line.text, following }

def size (p : Passage) : Nat :=
  p.rest.length + p.following.foldr (fun line n => line.text.length + 1 + n) 0

def nextLine (p : Passage) : Passage :=
  match p.following with
  | [] => { p with index := p.index + 1, taken := p.rest.reverse ++ p.taken, rest := [] }
  | line :: following =>
    { index := p.index + 1
      position := p.position + p.rest.length + line.before.length
      read := line.before
      taken := p.rest.reverse ++ p.taken
      rest := line.text
      following }

-- Goes on by one byte. The end of a line leads to the next line, if there is one.
def next (p : Passage) : Passage :=
  match p.rest, p.following with
  | [], _ => p
  | [_], _ :: _ => p.nextLine
  | b :: rest, _ =>
    { p with position := p.position + 1, read := b :: p.read, taken := b :: p.taken, rest }

def drop : Nat → Passage → Passage
  | 0, p => p
  | n + 1, p => drop n p.next

-- The next line leaves what this one had left.
theorem size_nextLine_add_le (p : Passage) : p.nextLine.size + p.rest.length ≤ p.size := by
  unfold nextLine size
  cases p.following with
  | nil => simp
  | cons line following =>
      simp only [List.foldr_cons]
      omega

theorem size_nextLine_le (p : Passage) : p.nextLine.size ≤ p.size := by
  have hadd := p.size_nextLine_add_le
  omega

theorem size_nextLine_lt {p : Passage} (h : p.rest ≠ []) : p.nextLine.size < p.size := by
  have hpos := List.length_pos_iff.mpr h
  have hadd := p.size_nextLine_add_le
  omega

theorem size_next_le (p : Passage) : p.next.size ≤ p.size := by
  unfold next
  split
  · exact Nat.le_refl _
  · exact size_nextLine_le p
  · next h _ => simp [size, h]

theorem size_next_lt {p : Passage} (h : p.rest ≠ []) : p.next.size < p.size := by
  unfold next
  split
  · contradiction
  · exact size_nextLine_lt h
  · next hr _ => simp [size, hr]

theorem size_drop_le (n : Nat) (p : Passage) : (p.drop n).size ≤ p.size := by
  induction n generalizing p with
  | zero => exact Nat.le_refl _
  | succ n ih => exact Nat.le_trans (ih p.next) (size_next_le p)

def skipSpace (p : Passage) : Nat × Passage :=
  match _h : p.rest with
  | [] => (0, p)
  | b :: _ =>
    if isSpace b then
      let (n, q) := p.next.skipSpace
      (n + 1, q)
    else (0, p)
  termination_by p.size
  decreasing_by exact size_next_lt (by simp_all)

def head? (p : Passage) : Option UInt8 := p.rest.head?

-- Reads up to a closing byte. A backslash takes the meaning of a punctuation mark after it; the
-- opening byte must not occur. Gives the text before the closing byte and the place behind it, or
-- else the place where the search ended.
def untilClosing (opening closing : UInt8) (p : Passage) : Except Passage (Text × Passage) :=
  match _h : p.rest with
  | [] => .error p
  | b :: tail =>
    if b = closing then .ok ([], p.next)
    else if b = opening then .error p
    else
      match tail with
      | mark :: _ =>
        if b = 92 && isPunct mark then
          (p.next.next.untilClosing opening closing).map fun (text, q) => (b :: mark :: text, q)
        else (p.next.untilClosing opening closing).map fun (text, q) => (b :: text, q)
      | [] => (p.next.untilClosing opening closing).map fun (text, q) => (b :: text, q)
  termination_by p.size
  decreasing_by
    · exact Nat.lt_of_le_of_lt (size_next_le _) (size_next_lt (by simp_all))
    · exact size_next_lt (by simp_all)
    · exact size_next_lt (by simp_all)

-- The length of a link destination without angle brackets: up to a space or a closing bracket
-- that was not opened within it.
def destinationLength (opened : Nat) : Text → Nat
  | [] => 0
  | 92 :: mark :: rest =>
    if isPunct mark then destinationLength opened rest + 2
    else destinationLength opened (mark :: rest) + 1
  | b :: rest =>
    if b = 40 then destinationLength (opened + 1) rest + 1
    else if b = 41 then
      match opened with
      | 0 => 0
      | opened + 1 => destinationLength opened rest + 1
    else if isSpace b then 0
    else destinationLength opened rest + 1

-- The length of a link destination in angle brackets after the opening one, up to the closing
-- one. None if it is not closed on the line.
def bracketedLength : Text → Option Nat
  | [] => none
  | 92 :: mark :: rest =>
    if isPunct mark then (bracketedLength rest).map (· + 2)
    else (bracketedLength (mark :: rest)).map (· + 1)
  | b :: rest => if b = 62 then some 0 else (bracketedLength rest).map (· + 1)

def skipDestination? (p : Passage) : Option Passage :=
  let p := p.skipSpace.2
  match p.rest with
  | 60 :: tail => (bracketedLength tail).map fun n => p.drop (n + 2)
  | rest =>
    let n := destinationLength 0 rest
    if n = 0 then none else some (p.drop n)

def titleClosing? (b : UInt8) : Option UInt8 :=
  if b = 34 || b = 39 then some b else if b = 40 then some 41 else none

def skipTitle? (p : Passage) : Option Passage := do
  let p := p.skipSpace.2
  let opening ← p.head?
  let closing ← titleClosing? opening
  let (_, q) ← (p.next.untilClosing opening closing).toOption
  return q

end Passage

end Tuga.Markdown
