import Tuga.Text.Utf8

namespace Tuga

-- A place between two characters of a source text. Lines and columns count from one, columns in
-- characters. A tree may be built with places of any numbers, so they are integers.
structure Position where
  offset : Int
  line : Int
  column : Int
  deriving DecidableEq, Repr, Inhabited

def Position.start : Position := ⟨0, 1, 1⟩

def Position.after (pos : Position) (c : Character) : Position :=
  if c.code = 10 then ⟨pos.offset + c.bytes.length, pos.line + 1, 1⟩
  else ⟨pos.offset + c.bytes.length, pos.line, pos.column + 1⟩

def Position.afterAll (pos : Position) (cs : List Character) : Position :=
  cs.foldl Position.after pos

structure Span where
  start : Position
  stop : Position
  deriving DecidableEq, Repr, Inhabited

-- Whether a byte offset lies inside the span. The end itself does not.
def Span.contains (span : Span) (offset : Int) : Bool :=
  span.start.offset ≤ offset && offset < span.stop.offset

structure Diagnostic where
  span : Span
  message : Text
  deriving DecidableEq, Repr

-- The message as it is shown: the place first, then the message.
def Diagnostic.render (d : Diagnostic) : Text :=
  ("line " : Text) ++ Text.ofInt d.span.start.line ++ (":" : Text) ++
    Text.ofInt d.span.start.column ++ (": " : Text) ++ d.message

end Tuga
