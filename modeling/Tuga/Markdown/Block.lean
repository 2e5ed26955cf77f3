import Tuga.Markdown.Html
import Tuga.Markdown.Mark
import Tuga.Markdown.Reference

namespace Tuga.Markdown

-- A block that is kept: a heading with the lines of its text, or a fence with its language and its
-- numbered lines. Quotations and lists are seen through.
inductive Block where
  | heading (lines : List TextLine)
  | fence (language : Text) (lines : List (Nat × Text))
  deriving DecidableEq, Repr

-- Blocks that hold others. A list is known by its current item: the mark of the list's items,
-- how far the item's lines are indented, and whether it holds anything.
inductive Container where
  | quotation
  | item (mark : UInt8) (ordered : Bool) (offset : Nat) (filled : Bool)
  deriving Repr

-- The innermost open block, if it takes lines itself. The lines are kept last first. A block of
-- HTML may be over on its first line already.
inductive Leaf where
  | none
  | paragraph (lines : List TextLine)
  | fence (fence : Fence) (lines : List (Nat × Text))
  | code
  | html (kind : Html.Block) (ended : Bool)
  deriving Repr

-- The paragraph that a new line would interrupt: none, one inside containers that do not go on, or
-- one in the place where the line stands.
inductive Interrupted where
  | nothing
  | elsewhere
  | here
  deriving DecidableEq, Repr

inductive Opening where
  | nothing
  | rule
  | heading (lines : List TextLine)
  | leaf (leaf : Leaf)
  deriving Repr

-- A list interrupts a paragraph in the same place only with content, and an ordered one only from
-- number one on.
def ItemMark.mayInterrupt (m : ItemMark) (text : Text) : Interrupted → Bool
  | .here => (!m.ordered || m.number = 1) && !isBlank (text.drop m.stop)
  | _ => true

def ItemMark.container (m : ItemMark) (text : Text) : Container :=
  .item m.mark m.ordered (m.offset text) (!isBlank (text.drop m.stop))

-- The block without containers that a line opens. Indented code and paragraphs interrupt nothing.
def openLeaf (cut : Interrupted) (l : Line) : Opening :=
  let (width, bytes) := l.indent
  let fresh := cut = .nothing
  if l.isBlank then .nothing
  else if 3 < width then if fresh then .leaf .code else .nothing
  else
    match headingLines? l, fence? l with
    | some lines, _ => .heading lines
    | none, some f => .leaf (.fence f [])
    | none, none =>
      let text := l.text.drop bytes
      let html := l.markOffset?.bind fun _ =>
        if (l.text.take bytes).all (· = 32) then Html.Block.opening? (!fresh) text else none
      match html with
      | some kind => .leaf (.html kind (kind ≠ .tag && kind.endsAt l.text))
      | none => if fresh then .leaf (.paragraph [l.toTextLine]) else .nothing

-- The containers that a line opens, outermost first, and what it opens inside them. Every container
-- takes at least one byte, so `limit` is the length of the line.
def openBlocks : Nat → Interrupted → Line → List Container × Opening
  | 0, _, _ => ([], .nothing)
  | limit + 1, cut, l =>
    let width := l.indent.1
    if 3 < width || l.isBlank then ([], openLeaf cut l)
    else if isRule l.start l.text then ([], .rule)
    else
      match (itemMark? l.text).filter fun m => m.mayInterrupt l.text cut, quoted? l with
      | some m, _ =>
        if isBlank (l.text.drop m.stop) then ([m.container l.text], .nothing)
        else
          let (inner, opening) := openBlocks limit .nothing (m.content l)
          (m.container l.text :: inner, opening)
      | none, some inside =>
        let (inner, opening) := openBlocks limit .nothing inside
        (.quotation :: inner, opening)
      | none, none => ([], openLeaf cut l)

inductive Reach where
  -- All of them go on.
  | all
  -- The line ended before all of them were looked at.
  | ended
  -- The next one does not go on.
  | stopped
  -- The next one is a list that goes on with a new item.
  | item (mark : ItemMark)
  deriving Repr

structure Descent where
  kept : List Container
  line : Line
  vacant : Bool
  reach : Reach
  deriving Repr

inductive ItemStep where
  | inside
  | another (mark : ItemMark)
  | outside

-- A line that is indented less than the item's content, or comes after an empty item, may start
-- another item with the same kind of mark. Any other line belongs to the item if it is indented
-- enough, unless blank lines follow an empty item.
def itemStep (mark : UInt8) (ordered : Bool) (offset : Nat) (filled vacant : Bool) (l : Line) :
    ItemStep :=
  let indent := l.indent.1
  let next := if indent < 4 then itemMark? l.text else none
  let belongs : ItemStep := if indent < offset || vacant then .outside else .inside
  if indent < offset || !filled then
    match next with
    | some m =>
      if m.mark ≠ mark || m.ordered ≠ ordered || isRule 0 (l.text.drop (m.stop - 1)) then .outside
      else if indent < offset || vacant then .another m
      else .inside
    | none => if filled then .outside else belongs
  else belongs

def descend (vacant : Bool) : List Container → Line → Descent
  | [], l => ⟨[], l, vacant, .all⟩
  | c :: rest, l =>
    let keep (c : Container) (vacant : Bool) (l : Line) : Descent :=
      let d := descend vacant rest l
      { d with kept := c :: d.kept }
    if l.rest.isEmpty then ⟨[], l, vacant, .ended⟩
    else
      match c with
      | .quotation =>
        match quoted? l with
        | some inside => keep c vacant inside
        | none => ⟨[], l, vacant, .stopped⟩
      | .item mark ordered offset filled =>
        if l.isBlank then keep c (vacant || !filled) l.toLast
        else
          match itemStep mark ordered offset filled vacant l with
          | .outside => ⟨[], l, vacant, .stopped⟩
          | .another m => ⟨[], l, vacant, .item m⟩
          | .inside =>
            match indentTaken l.start offset l.text with
            | some (n, spare) => keep c vacant (l.dropPadded n spare)
            | none => ⟨[], l, vacant, .stopped⟩

-- The state of reading a document. Blocks are kept last first. `vacant` says whether an item
-- without content was followed by a blank line.
structure Reading where
  containers : List Container := []
  leaf : Leaf := .none
  vacant : Bool := false
  blocks : List Block := []
  labels : List Text := []
  deriving Repr

namespace Reading

def closeLeaf (r : Reading) : Reading :=
  match r.leaf with
  | .paragraph lines =>
    { r with leaf := .none, labels := (extractDefinitions lines.reverse).1 ++ r.labels }
  | .fence f lines =>
    { r with leaf := .none, blocks := .fence f.language lines.reverse :: r.blocks }
  | _ => { r with leaf := .none }

def fill (containers : List Container) : List Container :=
  match containers.getLast? with
  | some (.item mark ordered offset _) =>
    containers.dropLast ++ [.item mark ordered offset true]
  | _ => containers

def hasItem (containers : List Container) : Bool :=
  containers.any fun
    | .item .. => true
    | .quotation => false

def replace (r : Reading) (kept inner : List Container) (opening : Opening) : Reading :=
  let r := r.closeLeaf
  let r := { r with containers := kept ++ inner, vacant := r.vacant && !hasItem inner }
  match opening with
  | .nothing | .rule => r
  | .heading [] => r
  | .heading lines => { r with blocks := .heading lines :: r.blocks }
  | .leaf leaf => { r with leaf }

-- Opens what a line opens inside the containers that go on. A line that opens nothing goes on a
-- paragraph, even one whose containers do not go on.
def place (r : Reading) (kept : List Container) (cut : Interrupted) (l : Line) : Reading :=
  match openBlocks (l.rest.length + 1) cut l, r.leaf with
  | ([], .nothing), .paragraph lines =>
    if l.isBlank then r.replace kept [] .nothing
    else { r with leaf := .paragraph (l.toTextLine :: lines) }
  | ([], .nothing), _ => r.replace kept [] .nothing
  | (inner, opening), _ => r.replace (fill kept) inner opening

-- A paragraph that is made a heading by the line under it. Definitions at its start stay out of
-- the heading; if nothing else is left, the line stands for itself.
def underline (r : Reading) (lines : List TextLine) (l : Line) : Reading :=
  let trimmed :=
    match lines with
    | [] => []
    | last :: before => { last with text := trimRight last.text } :: before
  let (labels, left) := extractDefinitions trimmed.reverse
  let r := { r with leaf := .none, labels := labels ++ r.labels }
  if left.isEmpty then r.place r.containers .nothing l
  else { r with blocks := .heading left :: r.blocks }

def goOn (r : Reading) (l : Line) : Reading :=
  let anew := r.place r.containers .nothing l
  match r.leaf with
  | .none => anew
  | .paragraph lines =>
    if !l.isBlank && l.indent.1 < 4 && isUnderline l.text then r.underline lines l
    else r.place r.containers .here l
  | .fence f lines =>
    if f.closes l then r.closeLeaf
    else { r with leaf := .fence f ((l.number, f.content l) :: lines) }
  | .code => if l.isBlank || 3 < l.indent.1 then r else anew
  | .html kind ended =>
    if ended then anew
    else if kind.endsAt l.text then { r with leaf := .none }
    else r

def step (r : Reading) (l : Line) : Reading :=
  let d := descend r.vacant r.containers l
  let r := { r with vacant := d.vacant }
  let interrupted : Interrupted :=
    match r.leaf with
    | .paragraph _ => .elsewhere
    | _ => .nothing
  match d.reach with
  | .ended => r
  | .all => if d.line.rest.isEmpty then r else r.goOn d.line
  | .stopped => r.place d.kept interrupted d.line
  | .item m =>
    let text := d.line.text
    let (inner, opening) :=
      if isBlank (text.drop m.stop) then ([], .nothing)
      else openBlocks (d.line.rest.length + 1) .nothing (m.content d.line)
    r.replace d.kept (m.container text :: inner) opening

end Reading

structure Document where
  blocks : List Block
  labels : List Text

def Document.ofText (text : Text) : Document :=
  let r := ((lines text).foldl Reading.step {}).closeLeaf
  ⟨r.blocks.reverse, r.labels⟩

end Tuga.Markdown
