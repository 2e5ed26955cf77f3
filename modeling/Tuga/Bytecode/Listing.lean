import Tuga.Bytecode.Lines
import Tuga.Cbor.Decode

namespace Tuga

-- The exported form of a program. It is written as a map with the keys 1 to 4 for these fields, and
-- a constant as a map with the keys 1 (kind), 2 (real) and 3 (text). Zero reals, empty texts and an
-- empty table of properties are left out.
structure Listing where
  version : Int := 0
  constants : List Constant := []
  code : List Text := []
  properties : List (Text × Text) := []

namespace Listing

def currentVersion : Int := 1

def ofBytecode (b : Bytecode) (properties : List (Text × Text)) : Listing :=
  { version := currentVersion, constants := b.constants, code := b.lines, properties }

def isZero (x : Real64) : Bool := x.magnitude = 0

def encodeConstant (c : Constant) : Text :=
  Cbor.encodeMap (
    [(Cbor.encodeNat 1, Cbor.encodeNat c.kind.tag.toNat)] ++
    (if isZero c.real then [] else [(Cbor.encodeNat 2, Cbor.encodeReal c.real)]) ++
    (if c.text.isEmpty then [] else [(Cbor.encodeNat 3, Cbor.encodeText c.text)]))

def encodeProperties (properties : List (Text × Text)) : Text :=
  let written := properties.map fun (key, value) => (Cbor.encodeText key, Cbor.encodeText value)
  Cbor.encodeMap (written.mergeSort fun a b => Cbor.keyBefore a.1 b.1)

-- The bytes of a listing; its version should not be negative.
def toBytes (l : Listing) : Text :=
  Cbor.encodeMap (
    [(Cbor.encodeNat 1, Cbor.encodeNat l.version.toNat),
      (Cbor.encodeNat 2, Cbor.encodeArray (l.constants.map encodeConstant)),
      (Cbor.encodeNat 3, Cbor.encodeArray (l.code.map Cbor.encodeText))] ++
    (if l.properties.isEmpty then [] else [(Cbor.encodeNat 4, encodeProperties l.properties)]))

-- The bytes of the listing of a program. Equal programs have equal bytes.
def encode (b : Bytecode) (properties : List (Text × Text)) : Text :=
  (ofBytecode b properties).toBytes

-- The item without its tags. Tags 0 and 1 mark times and tags 2 and 3 big numbers, and their
-- content must have the right type; other tags mean nothing here.
def untag : Cbor → Option Cbor
  | .tagged 0 content =>
    match content with
    | .text pieces => some (.text pieces)
    | _ => none
  | .tagged 1 content =>
    match content with
    | .unsigned n => some (.unsigned n)
    | .negative n => some (.negative n)
    | .real x => some (.real x)
    | _ => none
  | .tagged 2 content =>
    match content with
    | .bytes data => some (.unsigned (Text.ofBigEndian data))
    | _ => none
  | .tagged 3 content =>
    match content with
    | .bytes data => some (.negative (Text.ofBigEndian data))
    | _ => none
  | .tagged _ content => untag content
  | c => some c

-- The number of a simple value that stands for no value.
def isNull (n : Nat) : Bool := n = 22 || n = 23

def isTruth (n : Nat) : Bool := n = 20 || n = 21

-- A whole number of 64 bits; `old` if there is no value.
def toInt? (old : Int) (c : Cbor) : Option Int := do
  match ← untag c with
  | .unsigned n => if n < 0x8000000000000000 then return n else none
  | .negative n => if n < 0x8000000000000000 then return -1 - (n : Int) else none
  | .simple n => if isNull n then return old else if isTruth n then none else return n
  | _ => none

def toByte? (old : UInt8) (c : Cbor) : Option UInt8 := do
  match ← untag c with
  | .unsigned n => if n < 256 then return UInt8.ofNat n else none
  | .simple n =>
    if isNull n then return old
    else if isTruth n || 256 ≤ n then none
    else return UInt8.ofNat n
  | _ => none

def toReal? (old : Real64) (c : Cbor) : Option Real64 := do
  match ← untag c with
  | .unsigned n => if n < 0x10000000000000000 then return Real64.ofInt n else none
  | .negative n => if n < 0x8000000000000000 then return Real64.ofInt (-1 - (n : Int)) else none
  | .real x => return x
  | .simple n => if isNull n then return old else if isTruth n then none else return Real64.ofInt n
  | _ => none

def joinPieces? (pieces : List Text) : Option Text :=
  if pieces.all Text.isUtf8 then some pieces.flatten else none

def toText? (old : Text) (c : Cbor) : Option Text := do
  match ← untag c with
  | .text pieces => joinPieces? pieces
  | .simple n => if isNull n then return old else none
  | _ => none

def toItems? (c : Cbor) : Option (List Cbor) := do
  match ← untag c with
  | .array items => return items
  | .simple n => if isNull n then return [] else none
  | _ => none

-- Which field of a record a key stands for: a number, or the same number as text. Other keys of
-- these two types stand for no field, and keys of other types are refused.
def fieldOf? (c : Cbor) : Option (Option Nat) :=
  match c with
  | .unsigned n => some (some n)
  | .negative n => if n < 0x8000000000000000 then some none else none
  | .text pieces => do
    let key ← joinPieces? pieces
    return (List.range 10).find? fun n => key = Text.ofNat n
  | _ => none

-- Fills the fields of a record from the entries of a map. The first entry for a field counts; keys
-- that stand for none of the `count` fields are passed over.
def fill {α : Type} (count : Nat) (set : Nat → Cbor → α → Option α) :
    List Nat → List (Cbor × Cbor) → α → Option α
  | _, [], record => some record
  | seen, (key, value) :: rest, record => do
    match ← fieldOf? key with
    | some n =>
      if n = 0 || count < n || seen.contains n then fill count set seen rest record
      else fill count set (n :: seen) rest (← set n value record)
    | none => fill count set seen rest record

def toRecord? {α : Type} (count : Nat) (set : Nat → Cbor → α → Option α) (default : α) (c : Cbor) :
    Option α := do
  match ← untag c with
  | .map entries => fill count set [] entries default
  | .simple n => if isNull n then return default else none
  | _ => none

def setConstant (field : Nat) (value : Cbor) (c : Constant) : Option Constant :=
  match field with
  | 1 => (toByte? c.kind.tag value).map fun tag => { c with kind := ⟨tag⟩ }
  | 2 => (toReal? c.real value).map fun real => { c with real }
  | _ => (toText? c.text value).map fun text => { c with text }

-- Puts an entry into a table of properties. A later entry for a key replaces an earlier one.
def put (table : List (Text × Text)) (key value : Text) : List (Text × Text) :=
  table.filter (·.1 ≠ key) ++ [(key, value)]

-- The properties of a map. A key or value without content repeats the one before it.
def toTable? (key value : Text) (table : List (Text × Text)) :
    List (Cbor × Cbor) → Option (List (Text × Text))
  | [] => some table
  | (k, v) :: rest => do
    let key ← toText? key k
    let value ← toText? value v
    toTable? key value (put table key value) rest

def toProperties? (c : Cbor) : Option (List (Text × Text)) := do
  match ← untag c with
  | .map entries => toTable? [] [] [] entries
  | .simple n => if isNull n then return [] else none
  | _ => none

def setField (field : Nat) (value : Cbor) (l : Listing) : Option Listing :=
  match field with
  | 1 => (toInt? l.version value).map fun version => { l with version }
  | 2 => do
    let items ← toItems? value
    let constants ← items.mapM (toRecord? 3 setConstant { kind := ⟨0⟩ })
    return { l with constants }
  | 3 => do
    let items ← toItems? value
    let code ← items.mapM (toText? [])
    return { l with code }
  | _ => (toProperties? value).map fun properties => { l with properties }

def decode (data : Text) : Option Listing := do
  toRecord? 4 setField {} (← Cbor.decode data)

def sortedProperties (l : Listing) : List (Text × Text) :=
  l.properties.mergeSort fun a b => !Text.lt b.1 a.1

end Listing

inductive ListingError where
  | version (found : Int)
  | unknownTag (index : Nat) (tag : UInt8)
  | code (error : LineError)
  deriving DecidableEq, Repr

def ListingError.message : ListingError → Text
  | version found =>
    ("bytecode: listing version " : Text) ++ Text.ofInt found ++ (", want " : Text) ++
      Text.ofInt Listing.currentVersion
  | unknownTag index tag =>
    ("bytecode: listing constant " : Text) ++ Text.ofNat index ++
      (": unknown constant tag " : Text) ++ Text.ofNat tag.toNat
  | code error => ("bytecode: listing code: " : Text) ++ error.message

namespace Listing

-- The pool of a listing from index `index` on; of each entry only the value that counts.
def pool (index : Nat) : List Constant → Except ListingError (List Constant)
  | [] => .ok []
  | c :: rest =>
    if c.kind = .real then (pool (index + 1) rest).map (.ofReal c.real :: ·)
    else if c.kind = .text then (pool (index + 1) rest).map (.ofText c.text :: ·)
    else .error (.unknownTag index c.kind.tag)

def toBytecode (l : Listing) : Except ListingError Bytecode := do
  if l.version ≠ currentVersion then throw (.version l.version)
  let constants ← pool 0 l.constants
  match Instruction.ofLines l.code with
  | .ok code => return { constants, code }
  | .error e => throw (.code e)

end Listing

end Tuga
