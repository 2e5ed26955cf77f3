import Tuga.Markdown.Line
import Tuga.Text.CaseFolding

namespace Tuga.Markdown

def indexOf? (part : Text) : Text → Option Nat
  | [] => if part.isEmpty then some 0 else none
  | text@(_ :: rest) =>
    if part.isPrefixOf text then some 0 else (indexOf? part rest).map (· + 1)

namespace Html

def isNameByte (b : UInt8) : Bool :=
  isLetterByte b || Text.isDigitByte b || b = 45

def nameLength : Text → Nat
  | [] => 0
  | b :: rest => if isLetterByte b then (rest.takeWhile isNameByte).length + 1 else 0

def isTagSpace (b : UInt8) : Bool := b = 32 || b = 9 || b = 10 || b = 13

-- The length of an attribute value: quoted, or without quotes and free of marks and space.
def valueLength : Text → Nat
  | [] => 0
  | b :: rest =>
    if b = 34 || b = 39 then
      let body := rest.takeWhile (· ≠ b)
      if body.length < rest.length then body.length + 2 else 0
    else
      ((b :: rest).takeWhile fun b =>
        32 < b && !([34, 39, 61, 60, 62, 96] : List UInt8).contains b).length

def attributeLength (text : Text) : Nat :=
  let space := (text.takeWhile isTagSpace).length
  match text.drop space with
  | [] => 0
  | b :: rest =>
    if space = 0 || !(isLetterByte b || b = 95 || b = 58) then 0
    else
      let name := (rest.takeWhile fun b => isNameByte b || b = 58 || b = 46 || b = 95).length + 1
      let rest := text.drop (space + name)
      let gap := (rest.takeWhile isTagSpace).length
      match rest.drop gap with
      | 61 :: more =>
        let second := (more.takeWhile isTagSpace).length
        let value := valueLength (more.drop second)
        if value = 0 then space + name else space + name + gap + 1 + second + value
      | _ => space + name

def attributesLength (text : Text) : Nat :=
  let n := attributeLength text
  if _h : n = 0 ∨ text = [] then 0 else n + attributesLength (text.drop n)
  termination_by text.length
  decreasing_by
    have hpos : 0 < text.length := List.length_pos_iff.mpr (fun h' => _h (Or.inr h'))
    simp only [List.length_drop]
    omega

-- The length of space in a tag, where a carriage return counts only before a line break.
def closingSpaceLength : Text → Nat
  | 13 :: 10 :: rest => closingSpaceLength rest + 2
  | b :: rest => if b = 32 || b = 9 || b = 10 then closingSpaceLength rest + 1 else 0
  | [] => 0

def openTagLength? (text : Text) : Option Nat :=
  let name := nameLength text
  if name = 0 then none
  else
    let n := name + attributesLength (text.drop name)
    let n := n + closingSpaceLength (text.drop n)
    match text.drop n with
    | 47 :: 62 :: _ => some (n + 2)
    | 62 :: _ => some (n + 1)
    | _ => none

def closeTagLength? (text : Text) : Option Nat :=
  let name := nameLength text
  if name = 0 then none
  else
    let n := name + closingSpaceLength (text.drop name)
    match text.drop n with
    | 62 :: _ => some (n + 1)
    | _ => none

def untilLength? (closing text : Text) : Option Nat :=
  (indexOf? closing text).map (· + closing.length)

-- A text up to the first replacement character or ill-formed byte.
def readable (text : Text) : Text :=
  Text.ofCharacters (text.characters.takeWhile fun c => c.code ≠ Character.replacement)

-- The length of the HTML at the start of a text: a tag, a comment, an instruction, a declaration
-- or a raw section. A tag holds no replacement character.
def length? (text : Text) : Option Nat :=
  let startsWith (s : Text) : Bool := s.isPrefixOf text
  match text with
  | 60 :: b :: rest =>
    if isLetterByte b || Text.isDigitByte b then
      (openTagLength? (readable (b :: rest))).map (· + 1)
    else if b = 47 && rest.head?.any fun c => isLetterByte c || Text.isDigitByte c then
      (closeTagLength? (readable rest)).map (· + 2)
    else if startsWith "<!-->" then some 5
    else if startsWith "<!--->" then some 6
    else if startsWith "<!--" then (untilLength? "-->" (text.drop 4)).map (· + 4)
    else if startsWith "<?" then untilLength? "?>" text
    else if b = 33 && rest.head?.any fun c => 65 ≤ c && c ≤ 90 then untilLength? ">" text
    else if startsWith "<![CDATA[" then untilLength? "]]>" text
    else none
  | _ => none

inductive Block where
  | raw
  | comment
  | instruction
  | declaration
  | cdata
  | tag
  deriving DecidableEq, Repr

def rawTags : List Text := ["script", "pre", "style", "textarea"]

def blockTags : List Text :=
  (["address", "article", "aside", "base", "basefont", "blockquote", "body", "caption", "center",
    "col", "colgroup", "dd", "details", "dialog", "dir", "div", "dl", "dt", "fieldset",
    "figcaption", "figure", "footer", "form", "frame", "frameset", "h1", "h2", "h3", "h4", "h5",
    "h6", "head", "header", "hr", "html", "iframe", "legend", "li", "link", "main", "menu",
    "menuitem", "meta", "nav", "noframes", "ol", "optgroup", "option", "p", "param", "search",
    "section", "summary", "table", "tbody", "td", "tfoot", "th", "thead", "title", "tr", "track",
    "ul"] : List String).map Text.ofString

def lower (text : Text) : Text :=
  text.map fun b => if 65 ≤ b && b ≤ 90 then b + 32 else b

def folded (text : Text) : Text := Text.ofCodes (text.codes.map Text.foldCase)

def isLineEnd (text : Text) : Bool := text = [] || text = [10] || text = [13, 10]

def endsRawName (text : Text) : Bool :=
  match text with
  | [] => true
  | 47 :: 62 :: _ => true
  | b :: _ => b = 62 || b = 32 || b = 9 || b = 10 || b = 12 || b = 13

def endsBlockName (text : Text) : Bool :=
  match text with
  | 47 :: 62 :: _ => true
  | b :: _ => b = 62 || b = 32 || isLineEnd text
  | [] => true

-- A tag that fills its line: whether it is closing, its name, and whether it has attributes. The
-- text starts behind `<`.
def lineTag? (text : Text) : Option (Bool × Text × Bool) :=
  let (slash, text) : Text × Text :=
    match text with
    | 47 :: rest =>
      let blanks := rest.takeWhile (· = 32)
      (47 :: blanks, rest.drop blanks.length)
    | _ => ([], text)
  let name := nameLength text
  let attributes := attributesLength (text.drop name)
  let rest := (text.drop (name + attributes)).dropWhile (· = 32)
  let rest? : Option Text :=
    match rest with
    | 47 :: 62 :: rest => some rest
    | 62 :: rest => some rest
    | _ => none
  match rest? with
  | some rest =>
    if name ≠ 0 && isLineEnd (rest.dropWhile (· = 32)) then
      some (slash = [47], lower (text.take name), attributes ≠ 0)
    else none
  | none => none

def leadingTag? (text : Text) : Option Text :=
  let text :=
    match text with
    | 47 :: rest => rest.dropWhile (· = 32)
    | _ => text
  let name := nameLength text
  if name ≠ 0 && endsBlockName (text.drop name) then some (lower (text.take name)) else none

namespace Block

-- The block that a line opens. The text starts behind the indentation. A tag of no particular
-- element does not interrupt a paragraph.
def opening? (interrupting : Bool) (text : Text) : Option Block :=
  let startsWith (s : Text) : Bool := s.isPrefixOf text
  match text with
  | 60 :: rest =>
    let low := folded rest
    if rawTags.any fun t => t.isPrefixOf low && endsRawName (low.drop t.length) then some raw
    else if startsWith "<!--" then some comment
    else if startsWith "<?" then some instruction
    else if startsWith "<!" && (rest.drop 1).head?.any fun c => 65 ≤ c && c ≤ 90 then
      some declaration
    else if startsWith "<![CDATA[" then some cdata
    else
      let whole :=
        match lineTag? rest with
        | some (closing, name, attributes) =>
          blockTags.contains name ||
            (!(["script", "style", "pre"] : List Text).contains name && !interrupting &&
              !(closing && attributes))
        | none => false
      if whole || (leadingTag? rest).any blockTags.contains then some tag else none
  | _ => none

-- Whether a line ends a block. A tag's block ends at a blank line.
def endsAt (text : Text) : Block → Bool
  | raw => rawTags.any fun t => Text.contains (("</" : Text) ++ t ++ (">" : Text)) (folded text)
  | comment => Text.contains "-->" text
  | instruction => Text.contains "?>" text
  | declaration => Text.contains ">" text
  | cdata => Text.contains "]]>" text
  | tag => isBlank text

end Block

end Html

end Tuga.Markdown
