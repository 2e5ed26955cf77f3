import Tuga.Text.Letter
import Tuga.Toml.Number

namespace Tuga.Toml

-- A reader of one construct: what it read and what is left, or nothing if it is malformed.
abbrev Read (α : Type) := Codes → Option (α × Codes)

def isSpace (c : Nat) : Bool := c = 32 || c = 9

def isNewline (c : Nat) : Bool := c = 10 || c = 13

def skipSpace (codes : Codes) : Codes := codes.dropWhile isSpace

def skipComment (codes : Codes) : Codes := codes.dropWhile fun c => !isNewline c

def skipTriviaFrom : Bool → Codes → Codes
  | _, [] => []
  | inComment, c :: rest =>
    if inComment then skipTriviaFrom (!isNewline c) rest
    else if isSpace c || isNewline c then skipTriviaFrom false rest
    else if c = 35 then skipTriviaFrom true rest
    else c :: rest

def skipTrivia (codes : Codes) : Codes := skipTriviaFrom false codes

def hexEscape? (width : Nat) (codes : Codes) : Option (Nat × Codes) :=
  let digits := codes.take width
  let code := digitsValue 16 digits
  if digits.length = width && digits.all isHexDigit && code ≤ 0x10FFFF &&
      !(0xD800 ≤ code && code ≤ 0xDFFF) then some (code, codes.drop width)
  else none

def escape? : Codes → Option (Nat × Codes)
  | 98 :: rest => some (8, rest)
  | 116 :: rest => some (9, rest)
  | 110 :: rest => some (10, rest)
  | 102 :: rest => some (12, rest)
  | 114 :: rest => some (13, rest)
  | 101 :: rest => some (27, rest)
  | 34 :: rest => some (34, rest)
  | 92 :: rest => some (92, rest)
  | 120 :: rest => hexEscape? 2 rest
  | 117 :: rest => hexEscape? 4 rest
  | 85 :: rest => hexEscape? 8 rest
  | _ => none

def basicString : Nat → Read Codes
  | 0, _ => none
  | fuel + 1, codes =>
    match codes with
    | 34 :: rest => some ([], rest)
    | 92 :: rest => do
      let (code, rest) ← escape? rest
      let (more, rest) ← basicString fuel rest
      return (code :: more, rest)
    | c :: rest =>
      if isNewline c then none
      else do
        let (more, rest) ← basicString fuel rest
        return (c :: more, rest)
    | [] => none

def rawString (codes : Codes) : Option (Codes × Codes) :=
  let (body, rest) := cut (fun c => c = 39 || isNewline c) codes
  match rest with
  | 39 :: rest => some (body, rest)
  | _ => none

-- A backslash at the end of a line removes the blanks and newlines after it, given that they
-- include a newline.
def continuation? (codes : Codes) : Option Codes :=
  let isBlank (c : Nat) : Bool := isSpace c || isNewline c
  if (codes.takeWhile isBlank).contains 10 then some (codes.dropWhile isBlank) else none

def quoteRun (quote : Nat) (codes : Codes) : Nat := (codes.takeWhile (· = quote)).length

-- The rest of a string on several lines. Three to five quotes in a row end it, and the last three
-- of them do not belong to it. `spare` more quotes may stand there; one may after a backslash that
-- is escaped.
def multilineString (quote : Nat) (escapes : Bool) (spare : Nat) : Nat → Read Codes
  | 0, _ => none
  | fuel + 1, codes =>
    match codes with
    | [] => none
    | c :: rest =>
      if c = quote then
        let n := quoteRun quote codes
        if n < 3 then do
          let (more, rest) ← multilineString quote escapes 0 fuel (codes.drop n)
          return (List.replicate n quote ++ more, rest)
        else if n < 6 + spare then some (List.replicate (n - 3) quote, codes.drop n)
        else none
      else if c = 92 && escapes then
        match continuation? rest with
        | some rest => multilineString quote escapes 0 fuel rest
        | none => do
          let spare := if rest.head? = some 92 then 1 else 0
          let (code, rest) ← escape? rest
          let (more, rest) ← multilineString quote escapes spare fuel rest
          return (code :: more, rest)
      else do
        let (more, rest) ← multilineString quote escapes 0 fuel rest
        return (c :: more, rest)

-- A newline right after the opening quotes does not belong to the string.
def dropFirstNewline : Codes → Codes
  | 10 :: rest => rest
  | 13 :: 10 :: rest => rest
  | codes => codes

def stringValue (codes : Codes) : Option (Value × Codes) :=
  let read (r : Option (Codes × Codes)) : Option (Value × Codes) :=
    r.map fun (codes, rest) => (.text (Text.ofCodes codes), rest)
  let fuel := codes.length + 1
  match codes with
  | 34 :: 34 :: 34 :: rest => read (multilineString 34 true 0 fuel (dropFirstNewline rest))
  | 34 :: rest => read (basicString fuel rest)
  | 39 :: 39 :: 39 :: rest => read (multilineString 39 false 0 fuel (dropFirstNewline rest))
  | 39 :: rest => read (rawString rest)
  | _ => none

def keyPart (codes : Codes) : Option (Text × Codes) :=
  match codes with
  | 34 :: rest => (basicString (rest.length + 1) rest).map fun (s, rest) => (Text.ofCodes s, rest)
  | 39 :: rest => (rawString rest).map fun (s, rest) => (Text.ofCodes s, rest)
  | _ =>
    let bare := codes.takeWhile isBareKey
    if bare.isEmpty then none else some (Text.ofCodes bare, codes.drop bare.length)

-- The parts of a key, separated by dots. Blanks may stand around the parts.
def keyPath : Nat → Read Path
  | 0, _ => none
  | fuel + 1, codes => do
    let (part, rest) ← keyPart (skipSpace codes)
    match skipSpace rest with
    | 46 :: rest =>
      let (parts, rest) ← keyPath fuel rest
      return (part :: parts, rest)
    | rest => return ([part], rest)

def boolean? (codes : Codes) : Option (Value × Codes) :=
  let word := Text.ofCodes (codes.takeWhile Text.isLetter)
  let rest := codes.dropWhile Text.isLetter
  if word = ("true" : Text) then some (.boolean true, rest)
  else if word = ("false" : Text) then some (.boolean false, rest)
  else none

def arrayItems (value : Read Value) : Nat → Read (List Value)
  | 0, _ => none
  | fuel + 1, codes =>
    match skipTrivia codes with
    | 93 :: rest => some ([], rest)
    | codes => do
      let (item, rest) ← value codes
      match skipTrivia rest with
      | 44 :: rest =>
        let (items, rest) ← arrayItems value fuel rest
        return (item :: items, rest)
      | 93 :: rest => return ([item], rest)
      | _ => none

def entry (value : Read Value) (codes : Codes) : Option ((Path × Value) × Codes) := do
  let (path, rest) ← keyPath (codes.length + 1) codes
  match rest with
  | 61 :: rest =>
    let (v, rest) ← value (skipSpace rest)
    return ((path, v), rest)
  | _ => none

def inlineEntries (value : Read Value) : Nat → Read (List (Path × Value))
  | 0, _ => none
  | fuel + 1, codes =>
    match skipTrivia codes with
    | 125 :: rest => some ([], rest)
    | codes => do
      let (first, rest) ← entry value codes
      match skipTrivia rest with
      | 44 :: rest =>
        let (entries, rest) ← inlineEntries value fuel rest
        return (first :: entries, rest)
      | 125 :: rest => return ([first], rest)
      | _ => none

def value : Nat → Read Value
  | 0, _ => none
  | depth + 1, codes =>
    match codes with
    | [] => none
    | c :: rest =>
      if c = 91 then
        (arrayItems (value depth) (rest.length + 1) rest).map fun (items, rest) =>
          (.array items, rest)
      else if c = 123 then
        (inlineEntries (value depth) (rest.length + 1) rest).map fun (entries, rest) =>
          (.inline entries, rest)
      else if c = 34 || c = 39 then stringValue codes
      else if isDigit c || c = 43 || c = 45 then number? codes
      else if codes.take 3 = [105, 110, 102] || codes.take 3 = [110, 97, 110] then
        some (.scalar, codes.drop 3)
      else boolean? codes

def lineEnd (codes : Codes) : Option Codes :=
  match skipSpace codes with
  | [] => some []
  | c :: rest =>
    if c = 35 then some (skipComment rest) else if isNewline c then some rest else none

def header (codes : Codes) : Option (Item × Codes) :=
  match codes with
  | 91 :: rest => do
    let (path, rest) ← keyPath (rest.length + 1) rest
    match rest with
    | 93 :: 93 :: rest => return (.tableArray path, rest)
    | _ => none
  | _ => do
    let (path, rest) ← keyPath (codes.length + 1) codes
    match rest with
    | 93 :: rest => return (.table path, rest)
    | _ => none

-- The items of a document. Every item takes a character, which bounds their number.
def items : Nat → Codes → Option (List Item)
  | 0, _ => none
  | fuel + 1, codes =>
    match skipTrivia codes with
    | [] => some []
    | c :: rest => do
      let (item, rest) ←
        if c = 91 then header rest
        else
          (entry (value (codes.length + 1)) (c :: rest)).map fun (e, rest) =>
            (Item.entry e.1 e.2, rest)
      let rest ← lineEnd rest
      return item :: (← items fuel rest)

def isControl (c : Nat) : Bool := (c < 32 && c ≠ 9 && c ≠ 10 && c ≠ 13) || c = 127

def isClean : Codes → Bool
  | [] => true
  | c :: rest => !isControl c && (c ≠ 13 || rest.head? = some 10) && isClean rest

def dropMark : Text → Text
  | 0xFF :: 0xFE :: rest => rest
  | 0xFE :: 0xFF :: rest => rest
  | 0xEF :: 0xBB :: 0xBF :: rest => rest
  | text => text

-- The items of a document, none if it is malformed. A document with a control character, a carriage
-- return that ends no line or a byte that is not UTF-8 is refused as a whole, so the rules above
-- need not look at them again.
def parse (document : Text) : Option (List Item) :=
  let text := dropMark document
  if text.isUtf8 && isClean text.codes then items (text.length + 1) text.codes else none

end Tuga.Toml
