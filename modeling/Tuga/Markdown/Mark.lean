import Tuga.Markdown.Passage

namespace Tuga.Markdown

-- A line of at least three equal marks, with any space among them, is a rule.
def isRule (column : Nat) (text : Text) : Bool :=
  let (width, bytes) := indentation column text
  let marks := (text.drop bytes).filter fun b => !isSpace b
  match marks with
  | m :: _ => width < 4 && (m = 42 || m = 45 || m = 95) && marks.all (· = m) && 2 < marks.length
  | [] => false

-- A line of equals signs or hyphens alone makes the paragraph above it a heading.
def isUnderline (text : Text) : Bool :=
  let bar := trimRight (text.dropWhile (· = 32))
  (text.takeWhile (· = 32)).length < 4 && !bar.isEmpty && (bar.all (· = 61) || bar.all (· = 45))

-- The text of a heading that starts with up to six number signs. Number signs at the end are left
-- out if space stands before them. None if the line is no heading; an empty heading has no lines.
def headingLines? (l : Line) : Option (List TextLine) := do
  let text := l.text.drop (← l.markOffset?)
  let level := (text.takeWhile (· = 35)).length
  let body := text.drop level
  if level = 0 || 6 < level || !(body.isEmpty || body.head?.any isSpace) then failure
  let title := trimRight (body.dropWhile isSpace)
  let stem := (title.reverse.dropWhile (· = 35)).reverse
  let shown := if stem.isEmpty || stem.getLast?.any isSpace then stem else title
  return if shown.isEmpty then [] else [⟨l.number, [], shown⟩]

structure Fence where
  mark : UInt8
  length : Nat
  indent : Nat
  language : Text
  deriving Repr

-- The fence that a line opens. The words after a fence of backticks hold no backtick.
def fence? (l : Line) : Option Fence := do
  let indent ← l.markOffset?
  let text := l.text.drop indent
  let mark ← text.head?
  let length := (text.takeWhile (· = mark)).length
  if !(mark = 96 || mark = 126) || length < 3 then failure
  let after := text.drop length
  -- A single byte after the fence is taken for the line break.
  let info := if after.length ≤ 1 then [] else trimRight (after.dropWhile isSpace)
  if mark = 96 && info.contains 96 then failure
  return { mark, length, indent, language := info.takeWhile (· ≠ 32) }

namespace Fence

def closes (f : Fence) (l : Line) : Bool :=
  let (width, bytes) := l.indent
  let text := l.text.drop bytes
  let n := (text.takeWhile (· = f.mark)).length
  width < 4 && f.length ≤ n && Markdown.isBlank (text.drop n)

-- A line inside a fence, without as much indentation as the fence itself has. From a line with
-- less indentation all of it is taken. If there is nothing else on the line, it is kept instead,
-- and the padding stands for as many of the bytes before it.
def content (f : Fence) (l : Line) : Text :=
  if f.indent ≤ l.padding then List.replicate (l.padding - f.indent) 32 ++ l.rest
  else
    match indentTaken l.column (f.indent - l.padding) l.rest with
    | some (n, spare) => List.replicate spare 32 ++ l.rest.drop n
    | none =>
      let rest := l.rest.dropWhile fun b => b = 32 || b = 9
      if rest = [] || rest.head? = some 10 then (l.before.take l.padding).reverse ++ l.rest
      else rest

end Fence

-- The mark of a list item. `indent` bytes of blanks stand before it and it ends before byte
-- `stop`; `number` is the number of an ordered item.
structure ItemMark where
  indent : Nat
  stop : Nat
  mark : UInt8
  ordered : Bool
  number : Nat
  deriving Repr

-- The mark of the list item that a line starts: a bullet, or up to nine digits with a point or a
-- bracket. Space or the line's end follows it.
def itemMark? (text : Text) : Option ItemMark := do
  let indent := (text.takeWhile (· = 32)).length
  if 3 < indent then failure
  let body := text.drop indent
  let digits := body.takeWhile Text.isDigitByte
  let mark ← (body.drop digits.length).head?
  let ordered := !digits.isEmpty
  let stop := indent + digits.length + 1
  if ordered && !(digits.length ≤ 9 && (mark = 46 || mark = 41)) then failure
  if !ordered && !(mark = 45 || mark = 42 || mark = 43) then failure
  if (text.drop stop).head?.any fun b => !(b = 10 || b = 32 || b = 9) then failure
  return { indent, stop, mark, ordered, number := Text.toNat digits }

namespace ItemMark

-- The columns between an item's mark and its content. Content that is indented like code belongs
-- to the item from one column on.
def gap (m : ItemMark) (text : Text) : Nat :=
  let content := text.drop m.stop
  if isBlank content then 1
  else
    let width := (indentation m.stop content).1
    if 4 < width then 1 else width

def offset (m : ItemMark) (text : Text) : Nat := m.stop + m.gap text

def content (m : ItemMark) (l : Line) : Line :=
  match indentTaken m.stop (m.gap l.text) (l.text.drop m.stop) with
  | some (n, spare) => l.dropPadded (m.stop + n) spare
  | none => l.drop m.stop

end ItemMark

-- What follows the mark of a quotation. One blank after the mark belongs to it.
def quoted? (l : Line) : Option Line :=
  let (width, bytes) := l.indent
  if 3 < width || (l.text.drop bytes).head? ≠ some 62 then none
  else
    let l := l.drop (bytes + 1)
    match l.rest.head? with
    | some 32 => some (l.drop 1)
    | some 9 => some (l.dropPadded 1 (tabWidth l.start - 1))
    | _ => some l

end Tuga.Markdown
