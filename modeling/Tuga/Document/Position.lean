import Tuga.Source.Position
import Tuga.Text.Utf16

namespace Tuga

-- A place as editors count them: lines from zero, and within a line UTF-16 units from zero.
structure DocumentPosition where
  line : Nat
  character : Nat
  deriving DecidableEq, Repr

structure DocumentRange where
  start : DocumentPosition
  stop : DocumentPosition
  deriving DecidableEq, Repr

def Text.lastLine (text : Text) : Text :=
  (text.reverse.takeWhile (· ≠ 10)).reverse

-- The longest run of leading characters that take at most `units` UTF-16 units. A character that
-- would end beyond them is left out, so the run never ends inside a surrogate pair.
def Text.charactersWithin : Nat → List Character → List Character
  | _, [] => []
  | units, c :: rest =>
    let width := (unitsOf c.code).length
    if width ≤ units then c :: charactersWithin (units - width) rest else []

namespace DocumentPosition

-- The place at a line and a character, as the server says it: both counts wrap at 32 bits.
def ofCounts (line character : Nat) : DocumentPosition :=
  ⟨line % 0x100000000, character % 0x100000000⟩

-- Where a place of a source lies in the document that holds the source. A place that belongs to
-- no line goes to the start.
def ofPosition (document : Text) (p : Position) : DocumentPosition :=
  if p.line < 1 then ⟨0, 0⟩
  else ofCounts (p.line - 1).toNat (Text.lastLine (document.take p.offset.toNat)).utf16.length

-- The characters of the line that stand before a place. Places beyond the end of a line go to its
-- end; a line beyond the end of the document has none.
def before? (document : Text) (p : DocumentPosition) : Option (List Character) :=
  (document.splitOn 10)[p.line]?.map fun (line : Text) =>
    Text.charactersWithin p.character line.characters

def offset? (document : Text) (p : DocumentPosition) : Option Nat :=
  (p.before? document).map fun before =>
    (((document.splitOn 10).take p.line).flatMap fun line => line ++ [10]).length +
      (Text.ofCharacters before).length

end DocumentPosition

def DocumentRange.ofSpan (document : Text) (span : Span) : DocumentRange :=
  ⟨.ofPosition document span.start, .ofPosition document span.stop⟩

end Tuga
