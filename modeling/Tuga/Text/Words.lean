import Tuga.Text.Utf8

namespace Tuga.Text

-- Code points with the property White_Space, in increasing order.
def blankRanges : List CodeRange :=
  [⟨0x9, 0xD⟩, ⟨0x20, 0x20⟩, ⟨0x85, 0x85⟩, ⟨0xA0, 0xA0⟩, ⟨0x1680, 0x1680⟩, ⟨0x2000, 0x200A⟩,
    ⟨0x2028, 0x2029⟩, ⟨0x202F, 0x202F⟩, ⟨0x205F, 0x205F⟩, ⟨0x3000, 0x3000⟩]

def isBlank (code : Nat) : Bool :=
  blankRanges.any (·.contains code)

-- The runs of characters between blanks; `word` holds the characters of the current run.
def wordsFrom (word : Text) : List Character → List Text
  | [] => if word.isEmpty then [] else [word]
  | c :: rest =>
    if isBlank c.code then
      if word.isEmpty then wordsFrom [] rest else word :: wordsFrom [] rest
    else wordsFrom (word ++ c.bytes) rest

def words (text : Text) : List Text :=
  wordsFrom [] text.characters

end Tuga.Text
