import Tuga.Cbor.Basic

namespace Tuga.Cbor

structure Head where
  major : Nat
  info : Nat
  number : Nat

def openLength : Nat := 31

def maxDepth : Nat := 32

def maxElements : Nat := 131072

def readHead (data : Text) : Option (Head × Text) :=
  match data with
  | [] => none
  | first :: rest =>
    let major := first.toNat / 32
    let info := first.toNat % 32
    if info < 24 then some (⟨major, info, info⟩, rest)
    else if info < 28 then
      let width := Nat.pow 2 (info - 24)
      let bytes := rest.take width
      if bytes.length < width then none
      else some (⟨major, info, Text.ofBigEndian bytes⟩, rest.drop width)
    else if info = openLength then some (⟨major, info, 0⟩, rest)
    else none

def stopByte : UInt8 := 0xFF

def readBytes (n : Nat) (data : Text) : Option (Text × Text) :=
  let bytes := data.take n
  if bytes.length < n then none else some (bytes, data.drop n)

-- The pieces of a string of open length, at most `limit` of them. Each has the same major type and
-- a length of its own.
def readPieces (major : Nat) : Nat → Text → Option (List Text × Text)
  | 0, _ => none
  | limit + 1, data =>
    if data.head? = some stopByte then some ([], data.drop 1)
    else do
      let (h, data) ← readHead data
      if h.major ≠ major || h.info = openLength then none
      else
        let (piece, data) ← readBytes h.number data
        let (pieces, data) ← readPieces major limit data
        return (piece :: pieces, data)

def readMany (item : Text → Option (Cbor × Text)) : Nat → Text → Option (List Cbor × Text)
  | 0, data => some ([], data)
  | n + 1, data => do
    let (c, data) ← item data
    let (cs, data) ← readMany item n data
    return (c :: cs, data)

def readOpen (item : Text → Option (Cbor × Text)) : Nat → Text → Option (List Cbor × Text)
  | 0, _ => none
  | limit + 1, data =>
    if data.head? = some stopByte then some ([], data.drop 1)
    else do
      let (c, data) ← item data
      let (cs, data) ← readOpen item limit data
      return (c :: cs, data)

def pairUp : List Cbor → Option (List (Cbor × Cbor))
  | [] => some []
  | key :: value :: rest => (pairUp rest).map ((key, value) :: ·)
  | [_] => none

def readElements (item : Text → Option (Cbor × Text)) (h : Head) (data : Text) :
    Option (List Cbor × Text) :=
  if h.info = openLength then readOpen item (data.length + 1) data
  else readMany item (if h.major = 5 then 2 * h.number else h.number) data

def readString (h : Head) (data : Text) : Option (List Text × Text) :=
  if h.info = openLength then readPieces h.major (data.length + 1) data
  else (readBytes h.number data).map fun (piece, data) => ([piece], data)

-- A simple value or a real. The one-byte form of simple values starts at 32.
def ofSimple (h : Head) : Option Cbor :=
  match h.info with
  | 24 => if h.number < 32 then none else some (.simple h.number)
  | 25 => some (.real (Real64.ofNarrow .half h.number))
  | 26 => some (.real (Real64.ofNarrow .single h.number))
  | 27 => some (.real ⟨UInt64.ofNat h.number⟩)
  | 31 => none
  | _ => some (.simple h.number)

-- One item. `fuel` bounds the number of nested heads, `depth` the nesting; the first of several
-- tags in a row does not count as nesting.
def readItem : Nat → Nat → Bool → Text → Option (Cbor × Text)
  | 0, _, _, _ => none
  | fuel + 1, depth, afterTag, data => do
    let (h, data) ← readHead data
    match h.major with
    | 0 => if h.info = openLength then none else some (.unsigned h.number, data)
    | 1 => if h.info = openLength then none else some (.negative h.number, data)
    | 2 => (readString h data).map fun (pieces, data) => (.bytes pieces.flatten, data)
    | 3 => (readString h data).map fun (pieces, data) => (.text pieces, data)
    | 4 =>
      if depth = 0 then none
      else
        let (items, data) ← readElements (readItem fuel (depth - 1) false) h data
        if maxElements < items.length then none else some (.array items, data)
    | 5 =>
      if depth = 0 then none
      else
        let (items, data) ← readElements (readItem fuel (depth - 1) false) h data
        let entries ← pairUp items
        if maxElements < entries.length then none else some (.map entries, data)
    | 6 =>
      if h.info = openLength || (afterTag && depth = 0) then none
      else
        let (content, data) ← readItem fuel (if afterTag then depth - 1 else depth) true data
        return (.tagged h.number content, data)
    | _ => (ofSimple h).map fun c => (c, data)

-- The item that the data consist of. Lengths may be written in more bytes than needed or be left
-- open; an item that is cut short, uses a reserved head, nests too deeply, has too many parts or is
-- followed by more bytes is refused.
def decode (data : Text) : Option Cbor :=
  match readItem (data.length + 1) maxDepth false data with
  | some (c, []) => some c
  | _ => none

end Tuga.Cbor
