import Tuga.Bytecode.Operation
import Tuga.Machine.Sink

namespace Tuga

structure Profile where
  counts : Array Nat := Array.replicate 256 0
  total : Nat := 0

namespace Profile

def record (p : Profile) (op : Opcode) : Profile :=
  { counts := p.counts.modify op.byte.toNat (· + 1), total := p.total + 1 }

def recordTimes (p : Profile) (op : Opcode) : Nat → Profile
  | 0 => p
  | n + 1 => (p.record op).recordTimes op n

def count (p : Profile) (op : Opcode) : Nat := p.counts.getD op.byte.toNat 0

def executed (p : Profile) : List (Opcode × Nat) :=
  ((List.range 256).map fun i => (Opcode.mk (UInt8.ofNat i))).filterMap fun op =>
    if 0 < p.count op then some (op, p.count op) else none

-- The executed operations, the most frequent first. Equal counts keep the order of numbers.
def hottest (p : Profile) : List (Opcode × Nat) :=
  p.executed.mergeSort fun a b => b.2 ≤ a.2

def columnWidth : Nat := 8

def row (entry : Opcode × Nat) : Text :=
  let name := entry.1.name
  name ++ List.replicate (columnWidth - name.length) 32 ++ (32 : UInt8) ::
    (Text.ofNat entry.2 ++ [10])

def header (p : Profile) : Text :=
  ("*** Profile (" : Text) ++ Text.ofNat p.total ++ (" instructions) ***\n" : Text)

-- The lines of the profile, the header first. Each is written on its own.
def rows (p : Profile) : List Text :=
  p.header :: p.hottest.map row

def render (p : Profile) : Text := p.rows.flatten

end Profile

end Tuga
