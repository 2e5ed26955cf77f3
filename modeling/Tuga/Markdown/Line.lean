import Tuga.Text.Basic

namespace Tuga.Markdown

-- The bytes that count as space: blanks, tabs and the bytes of line breaks.
def isSpace (b : UInt8) : Bool :=
  b = 32 || b = 9 || b = 10 || b = 13

def isPunct (b : UInt8) : Bool :=
  (33 ≤ b && b ≤ 47) || (58 ≤ b && b ≤ 64) || (91 ≤ b && b ≤ 96) || (123 ≤ b && b ≤ 126)

def isLetterByte (b : UInt8) : Bool :=
  (65 ≤ b && b ≤ 90) || (97 ≤ b && b ≤ 122)

def isBlank (text : Text) : Bool := text.all isSpace

def trimRight (text : Text) : Text :=
  (text.reverse.dropWhile isSpace).reverse

-- The columns from a given column to the next tab stop, which is divisible by four.
def tabWidth (column : Nat) : Nat := 4 - column % 4

def indentation (column : Nat) : Text → Nat × Nat
  | [] => (0, 0)
  | b :: rest =>
    let width := if b = 32 then 1 else if b = 9 then tabWidth column else 0
    if width = 0 then (0, 0)
    else
      let (w, n) := indentation (column + width) rest
      (w + width, n + 1)

-- How many bytes of a text make up an indentation of `width` columns from a column on, and how
-- many columns the last of them takes beyond that. None if the text is indented less.
def indentTaken (column : Nat) : Nat → Text → Option (Nat × Nat)
  | 0, _ => some (0, 0)
  | _ + 1, [] => none
  | width + 1, b :: rest =>
    let w := if b = 32 then 1 else if b = 9 then tabWidth column else 0
    if w = 0 then none
    else if width + 1 ≤ w then some (1, w - (width + 1))
    else (indentTaken (column + w) (width + 1 - w) rest).map fun (n, spare) => (n + 1, spare)

-- What is left of a line: `padding` columns of a tab that was taken in part, then `rest`, whose
-- first byte stands at `column`. `before` holds the bytes of the line before `rest`, nearest first.
structure Line where
  number : Nat
  column : Nat := 0
  padding : Nat := 0
  before : Text := []
  rest : Text
  deriving Repr

namespace Line

def text (l : Line) : Text := List.replicate l.padding 32 ++ l.rest

def start (l : Line) : Nat := l.column - l.padding

def indent (l : Line) : Nat × Nat := indentation l.start l.text

def isBlank (l : Line) : Bool := Markdown.isBlank l.text

def next (l : Line) : Line :=
  match l.rest with
  | [] => l
  | b :: rest =>
    { l with
      column := l.column + if b = 9 then tabWidth l.column else 1
      before := b :: l.before
      rest }

def drop : Nat → Line → Line
  | 0, l => l
  | n + 1, l => drop n (if l.padding = 0 then l.next else { l with padding := l.padding - 1 })

-- Takes bytes off a line and leaves at least `padding` columns of the last one behind.
def dropPadded (n padding : Nat) (l : Line) : Line :=
  let l := l.drop n
  { l with padding := max padding l.padding }

def toLast (l : Line) : Line := l.drop (l.text.length - 1)

-- Where the line's first byte beyond its indentation stands. None if the indentation is at least
-- as wide as the line is long, which a wide tab can bring about.
def markOffset? (l : Line) : Option Nat :=
  if l.indent.1 < l.text.length then some l.indent.2 else none

end Line

def physicalLines : Text → List Text
  | [] => []
  | b :: rest =>
    if b = 10 then [b] :: physicalLines rest
    else
      match physicalLines rest with
      | [] => [[b]]
      | line :: lines => (b :: line) :: lines

def lines (document : Text) : List Line :=
  ((physicalLines document).zipIdx 1).map fun (rest, number) => { number, rest }

end Tuga.Markdown
