import Tuga.Proofs.Bytecode.Layout

namespace Tuga

open Text

-- What an error says is true of the file.
def DecodeError.Describes (file : Text) (e : DecodeError) : Prop :=
  match e.cause with
  | .truncated => e.offset ≤ file.length
  | .unknownTag tag => file[e.offset]? = some tag ∧ tag ≠ 1 ∧ tag ≠ 3
  | .unknownOpcode byte => file[e.offset]? = some byte ∧ 44 < byte
  | .negativeCount => 4 ≤ e.offset ∧ e.offset ≤ file.length ∧
      0x80000000 ≤ ofBigEndian ((file.drop (e.offset - 4)).take 4)

theorem Opcode.operation?_eq_none_iff {byte : UInt8} :
    (Opcode.mk byte).operation? = none ↔ 44 < byte := by
  rw [operation?, Operation.ofOrdinal?, List.getElem?_eq_none_iff, UInt8.lt_iff_toNat_lt]
  exact Iff.rfl

namespace Bytecode

-- A reader that stands at an offset, with no outcome once it looks beyond the end.
abbrev Cursor := StateT Nat (ExceptT DecodeError Option)

namespace Cursor

-- The `n` bytes from an offset on, each looked up by itself.
def bytesAt? (file : Text) (start : Nat) : Nat → Option Text
  | 0 => some []
  | n + 1 => do
    let byte ← file[start]?
    let bytes ← bytesAt? file (start + 1) n
    return byte :: bytes

-- Steps over the next `n` bytes, which the file should have.
def look (file : Text) (n : Nat) : Cursor Text := fun start =>
  (bytesAt? file start n).map fun bytes => .ok (bytes, start + n)

-- Steps over the next `n` bytes if the file has them.
def take (file : Text) (n : Nat) (item : DecodeItem) : Cursor Text := do
  let start ← get
  if file.length < start + n then throw ⟨start, item, .truncated⟩ else look file n

def count (file : Text) (item : DecodeItem) : Cursor Nat := do
  let bytes ← take file 4 item
  let n := ofBigEndian bytes
  if n < 0x80000000 then return n else throw ⟨← get, item, .negativeCount⟩

def constant (file : Text) : Cursor Constant := do
  let start ← get
  let tag ← take file 1 .constantTag
  let kind : ConstantKind := ⟨tag.headD 0⟩
  if kind = .real then
    let bytes ← take file 8 .realConstant
    return .ofReal ⟨UInt64.ofNat (ofBigEndian bytes)⟩
  else if kind = .text then
    let n ← count file .textLength
    let bytes ← take file (2 * n) .textConstant
    return .ofText (ofUtf16 (units bytes))
  else throw ⟨start, .constantTag, .unknownTag kind.tag⟩

def constants (file : Text) : Nat → Cursor (List Constant)
  | 0 => pure []
  | n + 1 => do
    let c ← constant file
    let cs ← constants file n
    return c :: cs

-- The instruction at the cursor, which stands before the end.
def instruction (file : Text) : Cursor Instruction := do
  let start ← get
  let byte := (← look file 1).headD 0
  match (Opcode.mk byte).operation? with
  | none => throw ⟨start, .opcode, .unknownOpcode byte⟩
  | some op =>
    if op.hasOperand then
      let bytes ← take file 4 (.operand op)
      return ⟨⟨byte⟩, Int32.ofNat (ofBigEndian bytes)⟩
    else return ⟨⟨byte⟩, 0⟩

-- The instructions up to the end. Every step takes a byte, so as many steps as there are bytes
-- suffice.
def code (file : Text) : Nat → Cursor (List Instruction)
  | 0 => pure []
  | steps + 1 => do
    if file.length ≤ (← get) then return []
    else
      let i ← instruction file
      let is ← code file steps
      return i :: is

def decode (file : Text) : Cursor Bytecode := do
  let n ← count file .constantCount
  let constants ← constants file n
  let code ← code file file.length
  return { constants, code }

end Cursor

-- What is left of a file from an offset on.
structure Rest.Of (file : Text) (rest : Rest) : Prop where
  offset_le : rest.offset ≤ file.length
  data_eq : rest.data = file.drop rest.offset

theorem Rest.Of.length_eq {file : Text} {rest : Rest} (h : rest.Of file) :
    rest.data.length = file.length - rest.offset := by
  rw [h.data_eq, List.length_drop]

theorem Rest.Of.getElem?_offset {file tail : Text} {rest : Rest} {byte : UInt8}
    (h : rest.Of file) (hdata : rest.data = byte :: tail) : file[rest.offset]? = some byte := by
  have hhead : (file.drop rest.offset)[0]? = some byte := by rw [← h.data_eq, hdata]; rfl
  rwa [List.getElem?_drop, Nat.add_zero] at hhead

theorem Rest.Of.offset_eq {file : Text} {rest : Rest} (h : rest.Of file) (hdata : rest.data = []) :
    rest.offset = file.length := by
  have hle := h.offset_le
  have hlength := h.length_eq
  rw [hdata, List.length_nil] at hlength
  omega

-- What is read after the byte of an instruction, which stood at `start`.
def Rest.operand (start : Nat) (byte : UInt8) (after : Rest) :
    Except DecodeError (Instruction × Rest) :=
  match (Opcode.mk byte).operation? with
  | none => throw ⟨start, .opcode, .unknownOpcode byte⟩
  | some op =>
    if op.hasOperand then do
      let (bytes, after) ← after.take 4 (.operand op)
      return (⟨⟨byte⟩, Int32.ofNat (ofBigEndian bytes)⟩, after)
    else return (⟨⟨byte⟩, 0⟩, after)

theorem Rest.length_operand_le {start : Nat} {byte : UInt8} {rest after : Rest} {i : Instruction}
    (h : Rest.operand start byte rest = .ok (i, after)) :
    after.data.length ≤ rest.data.length := by
  rw [Rest.operand] at h
  split at h
  · cases h
  · split at h
    · obtain ⟨⟨bytes, after'⟩, htake, h⟩ := bind_eq_ok.mp h
      cases h
      rw [(Rest.take_eq_ok.mp htake).1, List.length_append]
      exact Nat.le_add_left _ _
    · cases h
      exact Nat.le_refl _

theorem decodeCode_cons (offset : Nat) (byte : UInt8) (tail : Text) :
    decodeCode offset (byte :: tail) =
      Rest.operand offset byte ⟨offset + 1, tail⟩ >>= fun read =>
        (read.1 :: ·) <$> decodeCode read.2.offset read.2.data := by
  rw [Rest.operand, decodeCode.eq_def]
  dsimp only
  cases (Opcode.mk byte).operation? with
  | none => rfl
  | some op =>
      dsimp only
      cases op.hasOperand with
      | false => rfl
      | true =>
          -- an operand needs four bytes more
          rcases tail with _ | ⟨b₁, _ | ⟨b₂, _ | ⟨b₃, _ | ⟨b₄, tail⟩⟩⟩⟩ <;> rfl

-- A cursor has the outcome of a reader that is given the rest of the file.
def Agrees {α : Type} (file : Text) (rest : Rest) (x : Cursor α)
    (y : Except DecodeError (α × Rest)) : Prop :=
  match y with
  | .ok (a, after) => (x.run rest.offset).run = some (.ok (a, after.offset)) ∧ after.Of file
  | .error e => (x.run rest.offset).run = some (.error e) ∧ e.Describes file

namespace Agrees

variable {α β : Type} {file : Text} {rest last : Rest}

theorem bind {x : Cursor α} {y : Except DecodeError (α × Rest)} {f : α → Cursor β}
    {g : α × Rest → Except DecodeError (β × Rest)} (hx : Agrees file rest x y)
    (hf : ∀ a after, y = .ok (a, after) → after.Of file → Agrees file after (f a) (g (a, after))) :
    Agrees file rest (x >>= f) (y >>= g) := by
  cases y with
  | error e =>
      refine ⟨?_, hx.2⟩
      rw [StateT.run_bind, ExceptT.run_bind, hx.1]
      rfl
  | ok result =>
      obtain ⟨a, after⟩ := result
      have hrun : ((x >>= f).run rest.offset).run = ((f a).run after.offset).run := by
        rw [StateT.run_bind, ExceptT.run_bind, hx.1]
        rfl
      have hg := hf a after rfl hx.2
      change Agrees file rest (x >>= f) (g (a, after))
      unfold Agrees at hg ⊢
      rw [hrun]
      exact hg

theorem get {f : Nat → Cursor α} {y : Except DecodeError (α × Rest)}
    (h : Agrees file rest (f rest.offset) y) : Agrees file rest (MonadState.get >>= f) y := h

theorem pure (a : α) (h : rest.Of file) : Agrees file rest (Pure.pure a) (.ok (a, rest)) :=
  ⟨rfl, h⟩

theorem map {x : Cursor α} {y : Except DecodeError α} (h : Agrees file rest x ((·, last) <$> y))
    (f : α → β) : Agrees file rest (x >>= fun a => Pure.pure (f a)) ((·, last) <$> f <$> y) := by
  have heq : (·, last) <$> f <$> y = ((·, last) <$> y) >>= fun read => .ok (f read.1, read.2) := by
    cases y <;> rfl
  rw [heq]
  exact h.bind fun a after _ hafter => .pure (f a) hafter

end Agrees

namespace Cursor

variable {file : Text} {rest : Rest}

theorem bytesAt?_eq {start n : Nat} (h : start + n ≤ file.length) :
    bytesAt? file start n = some ((file.drop start).take n) := by
  induction n generalizing start with
  | zero => rfl
  | succ n ih =>
      have hstart : start < file.length := by omega
      rw [bytesAt?, List.getElem?_eq_getElem hstart, ih (by omega),
        List.drop_eq_getElem_cons hstart, List.take_succ_cons]
      rfl

theorem agrees_look {n : Nat} (h : rest.Of file) (hn : n ≤ rest.data.length) (item : DecodeItem) :
    Agrees file rest (look file n) (rest.take n item) := by
  have hlength := h.length_eq
  have hend : rest.offset + n ≤ file.length := by
    have hle := h.offset_le
    omega
  have htake : rest.take n item =
      .ok ((file.drop rest.offset).take n, ⟨rest.offset + n, file.drop (rest.offset + n)⟩) := by
    rw [Rest.take, if_neg, h.data_eq, List.drop_drop]
    rw [List.length_take]
    omega
  rw [htake]
  refine ⟨?_, hend, rfl⟩
  change look file n rest.offset = _
  rw [look, bytesAt?_eq hend]
  rfl

theorem agrees_take (h : rest.Of file) (n : Nat) (item : DecodeItem) :
    Agrees file rest (take file n item) (rest.take n item) := by
  have hle := h.offset_le
  have hlength := h.length_eq
  refine .get ?_
  split
  · rename_i hshort
    have htake : rest.take n item = .error ⟨rest.offset, item, .truncated⟩ := by
      rw [Rest.take, if_pos]
      rw [List.length_take]
      omega
    rw [htake]
    exact ⟨rfl, hle⟩
  · exact agrees_look h (by omega) item

theorem agrees_count (h : rest.Of file) (item : DecodeItem) :
    Agrees file rest (count file item) (rest.count item) := by
  refine (agrees_take h 4 item).bind fun bytes after htake hafter => ?_
  obtain ⟨hdata, hlength, hoffset⟩ := Rest.take_eq_ok.mp htake
  dsimp only
  split
  · exact .pure _ hafter
  · rename_i hlt
    have hbytes : (file.drop (after.offset - 4)).take 4 = bytes := by
      rw [hoffset, Nat.add_sub_cancel, ← h.data_eq, hdata, ← hlength, List.take_left]
    refine ⟨rfl, ?_, hafter.offset_le, ?_⟩
    · dsimp only
      omega
    · dsimp only
      rw [hbytes]
      exact Nat.le_of_not_lt hlt

theorem agrees_constant (h : rest.Of file) :
    Agrees file rest (constant file) rest.constant := by
  refine .get ((agrees_take h 1 .constantTag).bind fun tag after htake hafter => ?_)
  obtain ⟨hdata, hlength, -⟩ := Rest.take_eq_ok.mp htake
  obtain ⟨byte, rfl⟩ := List.length_eq_one_iff.mp hlength
  dsimp only
  split
  · exact (agrees_take hafter 8 .realConstant).bind fun bytes after' _ hafter' =>
      .pure _ hafter'
  · split
    · refine (agrees_count hafter .textLength).bind fun n after' _ hafter' => ?_
      exact (agrees_take hafter' (2 * n) .textConstant).bind fun bytes after'' _ hafter'' =>
        .pure _ hafter''
    · rename_i hreal htext
      refine ⟨rfl, h.getElem?_offset hdata, ?_, ?_⟩
      · rintro rfl
        exact hreal rfl
      · rintro rfl
        exact htext rfl

theorem agrees_constants (h : rest.Of file) (n : Nat) :
    Agrees file rest (constants file n) (rest.constants n) := by
  induction n generalizing rest with
  | zero => exact .pure [] h
  | succ n ih =>
      refine (agrees_constant h).bind fun c after _ hafter => ?_
      exact (ih hafter).bind fun cs after' _ hafter' => .pure _ hafter'

theorem agrees_instruction {byte : UInt8} {tail : Text} (h : rest.Of file)
    (hdata : rest.data = byte :: tail) :
    Agrees file rest (instruction file)
      (Rest.operand rest.offset byte ⟨rest.offset + 1, tail⟩) := by
  have hlength : 1 ≤ rest.data.length := by
    rw [hdata]
    exact Nat.le_add_left 1 _
  have hlook := agrees_look h hlength .opcode
  rw [show rest.take 1 .opcode = .ok ([byte], ⟨rest.offset + 1, tail⟩) from
    Rest.take_eq_ok.mpr ⟨hdata, rfl, rfl⟩] at hlook
  refine .get ?_
  change Agrees file rest _ (.ok ([byte], Rest.mk (rest.offset + 1) tail) >>= fun read =>
    Rest.operand rest.offset (read.1.headD 0) read.2)
  refine hlook.bind fun bytes after hread hafter => ?_
  cases hread
  dsimp only [Rest.operand, List.headD_cons]
  split
  · rename_i hop
    exact ⟨rfl, h.getElem?_offset hdata, Opcode.operation?_eq_none_iff.mp hop⟩
  · split
    · exact (agrees_take hafter 4 _).bind fun bytes after' _ hafter' => .pure _ hafter'
    · exact .pure _ hafter

theorem agrees_nil (h : rest.Of file) (hdata : rest.data = []) :
    Agrees file rest (pure []) ((·, ⟨file.length, []⟩) <$> decodeCode rest.offset rest.data) := by
  obtain ⟨offset, data⟩ := rest
  obtain rfl : data = [] := hdata
  obtain rfl : offset = file.length := h.offset_eq rfl
  exact ⟨rfl, h⟩

theorem agrees_code {steps : Nat} (h : rest.Of file) (hsteps : rest.data.length ≤ steps) :
    Agrees file rest (code file steps)
      ((·, ⟨file.length, []⟩) <$> decodeCode rest.offset rest.data) := by
  induction steps generalizing rest with
  | zero => exact agrees_nil h (List.length_eq_zero_iff.mp (Nat.le_zero.mp hsteps))
  | succ steps ih =>
      refine .get ?_
      split
      · rename_i hend
        exact agrees_nil h (by rw [h.data_eq, List.drop_eq_nil_of_le hend])
      · rename_i hend
        cases hdata : rest.data with
        | nil => exact absurd (Nat.le_of_eq (h.offset_eq hdata).symm) hend
        | cons byte tail =>
            rw [decodeCode_cons, map_bind]
            refine (agrees_instruction h hdata).bind fun i after hread hafter => ?_
            have hlength : after.data.length ≤ steps := by
              have hle := Rest.length_operand_le hread
              rw [hdata, List.length_cons] at hsteps
              exact Nat.le_trans hle (Nat.le_of_succ_le_succ hsteps)
            exact (ih hafter hlength).map (i :: ·)

theorem agrees_decode (file : Text) :
    Agrees file ⟨0, file⟩ (decode file) ((·, ⟨file.length, []⟩) <$> Bytecode.decode file) := by
  have hstart : (Rest.mk 0 file).Of file := ⟨Nat.zero_le _, rfl⟩
  rw [Bytecode.decode, map_bind]
  refine (agrees_count hstart .constantCount).bind fun n rest _ hrest => ?_
  dsimp only
  rw [map_bind]
  refine (agrees_constants hrest n).bind fun constants rest' _ hrest' => ?_
  dsimp only
  have hlength : rest'.data.length ≤ file.length := by
    rw [hrest'.length_eq]
    exact Nat.sub_le _ _
  rw [bind_pure_comp]
  exact (agrees_code hrest' hlength).map (Bytecode.mk constants)

theorem run_decode_of_ok {file : Text} {b : Bytecode} (h : Bytecode.decode file = .ok b) :
    ((decode file).run 0).run = some (.ok (b, file.length)) := by
  have hagrees := agrees_decode file
  rw [h] at hagrees
  exact hagrees.1

theorem run_decode_of_error {file : Text} {e : DecodeError} (h : Bytecode.decode file = .error e) :
    ((decode file).run 0).run = some (.error e) ∧ e.Describes file := by
  have hagrees := agrees_decode file
  rwa [h] at hagrees

end Cursor

end Bytecode

end Tuga
