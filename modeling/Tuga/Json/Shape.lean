import Tuga.Json.Basic

namespace Tuga

-- Which values a receiver can read.
inductive Shape where
  -- A value that is not looked at.
  | skipped
  -- A value of any kind. Its numbers are read as double precision numbers.
  | any
  | text
  | boolean
  -- A whole number at least `low` and below `high`, written without a fraction.
  | whole (low high : Int)
  -- A value of one of two shapes.
  | either (first second : Shape)
  -- A value that null takes away.
  | optional (shape : Shape)
  -- A value that is looked at only after all members of the record around it. Of several only the
  -- last is looked at.
  | late (shape : Shape)
  | list (item : Shape)
  | record (fields : List (Text × Shape))

namespace JsonValue

-- The numbers from here on round to infinity in double precision.
def realBound : Nat := Nat.pow 2 1024 - Nat.pow 2 970

mutual

def isMeasurable : JsonValue → Bool
  | number n places => n.natAbs < realBound * Nat.pow 10 places
  | array items => areMeasurable items
  | object members => haveMeasurable members
  | _ => true

def areMeasurable : List JsonValue → Bool
  | [] => true
  | v :: rest => v.isMeasurable && areMeasurable rest

def haveMeasurable : List (Text × JsonValue) → Bool
  | [] => true
  | (_, v) :: rest => v.isMeasurable && haveMeasurable rest

end

end JsonValue

namespace Shape

def signed : Shape := whole (-0x80000000) 0x80000000
def unsigned : Shape := whole 0 0x100000000

mutual

-- What is held after a value was read over what was held before, because a member may be written
-- more than once under names that differ in case. Null leaves most shapes as they are, members that
-- a record does not name are skipped, and there is nothing if the value does not have the shape.
def read? : Shape → JsonValue → JsonValue → Option JsonValue
  | skipped, _, v => some v
  | any, _, v => if v.isMeasurable then some v else none
  | either first second, _, v => (first.read? .null v).or (second.read? .null v)
  | optional shape, held, v => if v.isNull then some .null else shape.read? held v
  | late _, _, v => some v
  | text, held, v =>
    match v with
    | .null => some held
    | .text t => some (.text t)
    | _ => none
  | boolean, held, v =>
    match v with
    | .null => some held
    | .boolean b => some (.boolean b)
    | _ => none
  | whole low high, held, v =>
    match v with
    | .null => some held
    | .number n places => if places = 0 && low ≤ n && n < high then some v else none
    | _ => none
  | list item, _, v =>
    match v with
    | .null => some .null
    | .array items => (items.mapM (item.read? .null)).map .array
    | _ => none
  | record fields, held, v =>
    match v with
    | .null => some held
    | .object members => (readFields? held members fields).map .object
    | _ => none

def readFields? (held : JsonValue) (members : List (Text × JsonValue)) :
    List (Text × Shape) → Option (List (Text × JsonValue))
  | [] => some []
  | (name, shape) :: rest => do
    let value ← members.foldlM
      (fun v m => if Text.sameFolded m.1 name then shape.read? v m.2 else some v)
      (held.member name)
    return (name, ← shape.settle? value) :: (← readFields? held members rest)

-- Looks at what was left for later.
def settle? : Shape → JsonValue → Option JsonValue
  | late shape, v => shape.read? .null v
  | list item, .array items => (items.mapM item.settle?).map .array
  | _, v => some v

end

end Shape

end Tuga
