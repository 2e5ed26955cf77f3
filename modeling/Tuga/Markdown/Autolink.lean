import Tuga.Markdown.Line

namespace Tuga.Markdown.Autolink

def isMailboxByte (b : UInt8) : Bool :=
  isLetterByte b || Text.isDigitByte b ||
    List.contains (Text.ofString ".!#$%&'*+/=?^_`\x7b|\x7d~-") b

def isAlphanumeric (b : UInt8) : Bool := isLetterByte b || Text.isDigitByte b

-- The length of a part of a host name: at most 63 letters, digits and hyphens, with a hyphen at
-- neither end.
def hostPartLength (text : Text) : Nat :=
  match text with
  | [] => 0
  | b :: _ =>
    if isAlphanumeric b then
      let run := (text.takeWhile fun b => isAlphanumeric b || b = 45).take 63
      (run.reverse.dropWhile (· = 45)).length
    else 0

def hostTailLength : Nat → Text → Nat
  | limit + 1, 46 :: rest =>
    let n := hostPartLength rest
    if n = 0 then 0 else n + 1 + hostTailLength limit (rest.drop n)
  | _, _ => 0

def mailLength? (text : Text) : Option Nat :=
  let mailbox := (text.takeWhile isMailboxByte).length
  match text.drop mailbox with
  | 64 :: host =>
    let first := hostPartLength host
    if mailbox = 0 || first = 0 then none
    else some (mailbox + 1 + first + hostTailLength host.length (host.drop first))
  | _ => none

def isSchemeByte (b : UInt8) : Bool := isAlphanumeric b || b = 43 || b = 45 || b = 46

-- The length of the address with a scheme at the start of a text. A scheme has two to 33 bytes.
def urlLength? (text : Text) : Option Nat :=
  let scheme := (text.takeWhile isSchemeByte).length
  match text.drop scheme with
  | 58 :: rest =>
    if text.head?.any isLetterByte && 2 ≤ scheme && scheme ≤ 33 then
      some (scheme + 1 + (rest.takeWhile fun b => 32 < b && b ≠ 60 && b ≠ 62).length)
    else none
  | _ => none

def length? (text : Text) : Option Nat :=
  match text with
  | 60 :: rest =>
    match (mailLength? rest).or (urlLength? rest) with
    | some n => if (rest.drop n).head? = some 62 then some (n + 2) else none
    | none => none
  | _ => none

end Tuga.Markdown.Autolink
