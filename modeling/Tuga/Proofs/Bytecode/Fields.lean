import Tuga.Proofs.Bytecode.Replacement

namespace Tuga

open Text

-- How far behind the start of its field an error stands.
def DecodeCause.shift : DecodeCause → Nat
  | negativeCount => 4
  | _ => 0

namespace Bytecode

-- The field that is next. `left` counts the constants after the one that is being read.
inductive Place where
  | count
  | tag (left : Nat)
  | real (left : Nat)
  | length (left : Nat)
  | units (n left : Nat)
  | opcode
  | operand (op : Operation)
  deriving DecidableEq, Repr

namespace Place

def item : Place → DecodeItem
  | count => .constantCount
  | tag _ => .constantTag
  | real _ => .realConstant
  | length _ => .textLength
  | units _ _ => .textConstant
  | opcode => .opcode
  | operand op => .operand op

-- How many bytes the field has.
def width : Place → Nat
  | count => 4
  | tag _ => 1
  | real _ => 8
  | length _ => 4
  | units n _ => 2 * n
  | opcode => 1
  | operand _ => 4

-- The first field of what follows a constant, or the count, with `left` constants to come.
def following : Nat → Place
  | 0 => opcode
  | left + 1 => tag left

end Place

-- A valid field, and the place after it.
inductive Reads : Place → Text → Place → Prop where
  | count {bytes : Text} (hlength : bytes.length = 4) (hlt : ofBigEndian bytes < 2 ^ 31) :
      Reads .count bytes (.following (ofBigEndian bytes))
  | realTag (left : Nat) : Reads (.tag left) [1] (.real left)
  | textTag (left : Nat) : Reads (.tag left) [3] (.length left)
  | real {left : Nat} {bytes : Text} (hlength : bytes.length = 8) :
      Reads (.real left) bytes (.following left)
  | length {left : Nat} {bytes : Text} (hlength : bytes.length = 4)
      (hlt : ofBigEndian bytes < 2 ^ 31) :
      Reads (.length left) bytes (.units (ofBigEndian bytes) left)
  | units {n left : Nat} {bytes : Text} (hlength : bytes.length = 2 * n) :
      Reads (.units n left) bytes (.following left)
  | operation {byte : UInt8} {op : Operation} (hop : (Opcode.mk byte).operation? = some op)
      (h : op.hasOperand = false) : Reads .opcode [byte] .opcode
  | load {byte : UInt8} {op : Operation} (hop : (Opcode.mk byte).operation? = some op)
      (h : op.hasOperand = true) : Reads .opcode [byte] (.operand op)
  | operand {op : Operation} {bytes : Text} (hlength : bytes.length = 4) :
      Reads (.operand op) bytes .opcode

-- The bytes of all fields before a place, each of them valid.
inductive Reached : Text → Place → Prop where
  | start : Reached [] .count
  | field {before bytes : Text} {place next : Place} (h : Reached before place)
      (hreads : Reads place bytes next) : Reached (before ++ bytes) next

-- Why the field at a place cannot be read from the rest of a file. Only code may end at its place.
inductive Refuses : Place → Text → DecodeCause → Prop where
  | truncated {place : Place} {rest : Text} (hlt : rest.length < place.width)
      (hplace : place ≠ .opcode) : Refuses place rest .truncated
  | tag {left : Nat} {byte : UInt8} (rest : Text) (hreal : byte ≠ 1) (htext : byte ≠ 3) :
      Refuses (.tag left) (byte :: rest) (.unknownTag byte)
  | opcode {byte : UInt8} (rest : Text) (h : 44 < byte) :
      Refuses .opcode (byte :: rest) (.unknownOpcode byte)
  | count {bytes : Text} (rest : Text) (hlength : bytes.length = 4)
      (hle : 2 ^ 31 ≤ ofBigEndian bytes) : Refuses .count (bytes ++ rest) .negativeCount
  | length {left : Nat} {bytes : Text} (rest : Text) (hlength : bytes.length = 4)
      (hle : 2 ^ 31 ≤ ofBigEndian bytes) : Refuses (.length left) (bytes ++ rest) .negativeCount

-- The constants that are left, and the code.
def Rest.remainder (left : Nat) (rest : Rest) : Except DecodeError Unit := do
  let (_, rest) ← rest.constants left
  let _ ← decodeCode rest.offset rest.data

-- Decoding from a place on.
def resume : Place → Rest → Except DecodeError Unit
  | .count, rest => do
    let (n, rest) ← rest.count .constantCount
    rest.remainder n
  | .tag left, rest => rest.remainder (left + 1)
  | .real left, rest => do
    let (_, rest) ← rest.take 8 .realConstant
    rest.remainder left
  | .length left, rest => do
    let (n, rest) ← rest.count .textLength
    let (_, rest) ← rest.take (2 * n) .textConstant
    rest.remainder left
  | .units n left, rest => do
    let (_, rest) ← rest.take (2 * n) .textConstant
    rest.remainder left
  | .opcode, rest => do
    let _ ← decodeCode rest.offset rest.data
  | .operand op, rest => do
    let (_, rest) ← rest.take 4 (.operand op)
    let _ ← decodeCode rest.offset rest.data

theorem remainder_eq (left : Nat) (rest : Rest) :
    rest.remainder left = resume (.following left) rest := by
  cases left <;> rfl

theorem resume_count (file : Text) :
    resume .count ⟨0, file⟩ = decode file >>= fun _ => pure () := by
  simp only [resume, Rest.remainder, decode, bind_assoc, pure_bind]

section Steps

variable {place next : Place} {bytes rest : Text}

theorem take_append (offset : Nat) (item : DecodeItem) (bytes rest : Text) {n : Nat}
    (h : bytes.length = n) :
    (Rest.mk offset (bytes ++ rest)).take n item = .ok (bytes, ⟨offset + bytes.length, rest⟩) :=
  Rest.take_eq_ok.mpr ⟨rfl, h, by rw [h]⟩

theorem count_append (offset : Nat) (item : DecodeItem) (bytes rest : Text)
    (h : bytes.length = 4) :
    (Rest.mk offset (bytes ++ rest)).count item =
      if ofBigEndian bytes < 2 ^ 31 then .ok (ofBigEndian bytes, ⟨offset + bytes.length, rest⟩)
      else .error ⟨offset + 4, item, .negativeCount⟩ := by
  rw [Rest.count, take_append offset item bytes rest h, ← h]
  rfl

theorem take_of_lt {offset n : Nat} {rest : Text} (h : rest.length < n) (item : DecodeItem) :
    (Rest.mk offset rest).take n item = .error ⟨offset, item, .truncated⟩ := by
  rw [Rest.take, if_pos]
  rw [List.length_take]
  exact Nat.lt_of_le_of_lt (Nat.min_le_right _ _) h

theorem remainder_tag (offset left : Nat) (byte : UInt8) (rest : Text) :
    (Rest.mk offset (byte :: rest)).remainder (left + 1) =
      Rest.payload offset ⟨byte⟩ ⟨offset + 1, rest⟩ >>= fun read => read.2.remainder left := by
  have htake : (Rest.mk offset (byte :: rest)).take 1 .constantTag =
      .ok ([byte], ⟨offset + 1, rest⟩) := take_append offset .constantTag [byte] rest rfl
  simp only [Rest.remainder, Rest.constants, Rest.constant_eq, htake, bind_assoc, pure_bind]
  rfl

theorem code_opcode (offset : Nat) (byte : UInt8) (rest : Text) :
    (decodeCode offset (byte :: rest) >>= fun _ => pure () : Except DecodeError Unit) =
      Rest.operand offset byte ⟨offset + 1, rest⟩ >>= fun read =>
        decodeCode read.2.offset read.2.data >>= fun _ => pure () := by
  simp only [decodeCode_cons, bind_assoc, map_eq_pure_bind, pure_bind]

theorem Reads.resume_eq (h : Reads place bytes next) (offset : Nat) (rest : Text) :
    resume place ⟨offset, bytes ++ rest⟩ = resume next ⟨offset + bytes.length, rest⟩ := by
  cases h with
  | count hlength hlt =>
      rw [resume, count_append _ _ _ _ hlength, if_pos hlt, ← remainder_eq]
      rfl
  | realTag left =>
      have hkind : ConstantKind.mk 1 = .real := rfl
      rw [List.singleton_append, resume, remainder_tag, Rest.payload, if_pos hkind]
      simp only [resume, bind_assoc, pure_bind]
      rfl
  | textTag left =>
      have hkind : ConstantKind.mk 3 = .text := rfl
      rw [List.singleton_append, resume, remainder_tag, Rest.payload, if_neg (by decide),
        if_pos hkind]
      simp only [resume, bind_assoc, pure_bind]
      rfl
  | real hlength =>
      rw [resume, take_append _ _ _ _ hlength, ← remainder_eq]
      rfl
  | length hlength hlt =>
      rw [resume, count_append _ _ _ _ hlength, if_pos hlt]
      rfl
  | units hlength =>
      rw [resume, take_append _ _ _ _ hlength, ← remainder_eq]
      rfl
  | operation hop hoperand =>
      simp only [List.singleton_append, resume, code_opcode, Rest.operand, hop, hoperand]
      rfl
  | load hop hoperand =>
      simp only [List.singleton_append, resume, code_opcode, Rest.operand, hop, hoperand, if_true,
        bind_assoc, pure_bind]
      rfl
  | operand hlength =>
      simp only [resume, take_append _ _ _ _ hlength]
      rfl

theorem Refuses.resume_eq {cause : DecodeCause} (h : Refuses place rest cause) (offset : Nat) :
    resume place ⟨offset, rest⟩ = .error ⟨offset + cause.shift, place.item, cause⟩ := by
  cases h with
  | truncated hlt hplace =>
      cases place with
      | count =>
          rw [resume, Rest.count, take_of_lt (n := 4) hlt]
          rfl
      | tag left =>
          obtain rfl := List.length_eq_zero_iff.mp (Nat.lt_one_iff.mp hlt)
          rfl
      | real left =>
          rw [resume, take_of_lt (n := 8) hlt]
          rfl
      | length left =>
          rw [resume, Rest.count, take_of_lt (n := 4) hlt]
          rfl
      | units n left =>
          rw [resume, take_of_lt (n := 2 * n) hlt]
          rfl
      | opcode => exact absurd rfl hplace
      | operand op =>
          simp only [resume, take_of_lt (n := 4) hlt]
          rfl
  | @tag left byte rest hreal htext =>
      have hreal' : ConstantKind.mk byte ≠ .real := fun h => hreal (congrArg ConstantKind.tag h)
      have htext' : ConstantKind.mk byte ≠ .text := fun h => htext (congrArg ConstantKind.tag h)
      rw [resume, remainder_tag, Rest.payload, if_neg hreal', if_neg htext']
      rfl
  | opcode rest hbyte =>
      simp only [resume, code_opcode, Rest.operand, Opcode.operation?_eq_none_iff.mpr hbyte]
      rfl
  | count rest hlength hle =>
      rw [resume, count_append _ _ _ _ hlength, if_neg (Nat.not_lt.mpr hle)]
      rfl
  | length rest hlength hle =>
      rw [resume, count_append _ _ _ _ hlength, if_neg (Nat.not_lt.mpr hle)]
      rfl

theorem exists_append {n : Nat} {data : Text} (h : ¬data.length < n) :
    ∃ bytes rest, data = bytes ++ rest ∧ bytes.length = n :=
  ⟨data.take n, data.drop n, (List.take_append_drop n data).symm, by simp; omega⟩

-- Decoding comes to its end at a place, is refused there, or reads a field.
theorem reads_or_refuses (place : Place) (data : Text) :
    (place = .opcode ∧ data = []) ∨ (∃ cause, Refuses place data cause) ∨
      ∃ bytes rest next, data = bytes ++ rest ∧ Reads place bytes next := by
  by_cases hshort : data.length < place.width
  · by_cases hplace : place = .opcode
    · subst hplace
      exact .inl ⟨rfl, List.length_eq_zero_iff.mp (Nat.lt_one_iff.mp hshort)⟩
    · exact .inr (.inl ⟨_, .truncated hshort hplace⟩)
  obtain ⟨bytes, rest, rfl, hlength⟩ := exists_append hshort
  cases place with
  | count =>
      by_cases hlt : ofBigEndian bytes < 2 ^ 31
      · exact .inr (.inr ⟨bytes, rest, _, rfl, .count hlength hlt⟩)
      · exact .inr (.inl ⟨_, .count rest hlength (Nat.not_lt.mp hlt)⟩)
  | tag left =>
      obtain ⟨byte, rfl⟩ := List.length_eq_one_iff.mp hlength
      by_cases hreal : byte = 1
      · subst hreal
        exact .inr (.inr ⟨_, rest, _, rfl, .realTag left⟩)
      by_cases htext : byte = 3
      · subst htext
        exact .inr (.inr ⟨_, rest, _, rfl, .textTag left⟩)
      exact .inr (.inl ⟨_, .tag rest hreal htext⟩)
  | real left => exact .inr (.inr ⟨bytes, rest, _, rfl, .real hlength⟩)
  | length left =>
      by_cases hlt : ofBigEndian bytes < 2 ^ 31
      · exact .inr (.inr ⟨bytes, rest, _, rfl, .length hlength hlt⟩)
      · exact .inr (.inl ⟨_, .length rest hlength (Nat.not_lt.mp hlt)⟩)
  | units n left => exact .inr (.inr ⟨bytes, rest, _, rfl, .units hlength⟩)
  | opcode =>
      obtain ⟨byte, rfl⟩ := List.length_eq_one_iff.mp hlength
      cases hop : (Opcode.mk byte).operation? with
      | none => exact .inr (.inl ⟨_, .opcode rest (Opcode.operation?_eq_none_iff.mp hop)⟩)
      | some op =>
          cases hoperand : op.hasOperand with
          | false => exact .inr (.inr ⟨_, rest, _, rfl, .operation hop hoperand⟩)
          | true => exact .inr (.inr ⟨_, rest, _, rfl, .load hop hoperand⟩)
  | operand op => exact .inr (.inr ⟨bytes, rest, _, rfl, .operand hlength⟩)

end Steps

-- Only the units of an empty text are a field without bytes, and no other such field follows.
def Place.rank : Place → Nat
  | .units _ _ => 1
  | _ => 0

theorem Place.rank_following (left : Nat) : (following left).rank = 0 := by
  cases left <;> rfl

theorem Reads.decreases {place next : Place} {bytes : Text} (h : Reads place bytes next) :
    next.rank < 2 * bytes.length + place.rank := by
  cases h with
  | count hlength hlt => simp [hlength, Place.rank_following]
  | realTag left => simp [Place.rank]
  | textTag left => simp [Place.rank]
  | real hlength => simp [hlength, Place.rank_following]
  | length hlength hlt => simp [hlength, Place.rank]
  | units hlength =>
      rw [Place.rank_following]
      exact Nat.zero_lt_succ _
  | operation hop hoperand => simp [Place.rank]
  | load hop hoperand => simp [Place.rank]
  | operand hlength => simp [hlength, Place.rank]

-- An error stands at a field that is refused, after fields that are read one after the other.
theorem exists_refused_of_resume {place : Place} {before data : Text} {e : DecodeError}
    (hbefore : Reached before place) (h : resume place ⟨before.length, data⟩ = .error e) :
    ∃ before' place' rest, before ++ data = before' ++ rest ∧ Reached before' place' ∧
      Refuses place' rest e.cause ∧ e.item = place'.item ∧
      e.offset = before'.length + e.cause.shift := by
  induction hsize : 2 * data.length + place.rank using Nat.strongRecOn
    generalizing place before data with
  | ind size ih =>
      rcases reads_or_refuses place data with ⟨rfl, rfl⟩ | ⟨cause, hrefuses⟩ |
        ⟨bytes, rest, next, rfl, hreads⟩
      · cases h
      · rw [hrefuses.resume_eq] at h
        cases h
        exact ⟨before, place, data, rfl, hbefore, hrefuses, rfl, rfl⟩
      · have hlt := hreads.decreases
        rw [hreads.resume_eq, ← List.length_append] at h
        rw [← List.append_assoc]
        refine ih _ ?_ (hbefore.field hreads) h rfl
        rw [← hsize, List.length_append]
        omega

theorem Reached.resume_eq {before : Text} {place : Place} (h : Reached before place)
    (rest : Text) :
    resume .count ⟨0, before ++ rest⟩ = resume place ⟨before.length, rest⟩ := by
  induction h generalizing rest with
  | start => rfl
  | field _ hreads ih => rw [List.append_assoc, ih, hreads.resume_eq, List.length_append]

-- Decoding fails exactly if a field is refused after all fields before it were read.
theorem decode_eq_error_iff {file : Text} {e : DecodeError} :
    decode file = .error e ↔
      ∃ before place rest, file = before ++ rest ∧ Reached before place ∧
        Refuses place rest e.cause ∧ e.item = place.item ∧
        e.offset = before.length + e.cause.shift := by
  have hresume : decode file = .error e ↔ resume .count ⟨0, file⟩ = .error e := by
    rw [resume_count]
    cases decode file with
    | ok b => simp [bind, Except.bind, pure, Except.pure]
    | error e' => simp [bind, Except.bind]
  rw [hresume]
  constructor
  · intro h
    exact exists_refused_of_resume .start h
  · rintro ⟨before, place, rest, rfl, hreached, hrefuses, hitem, hoffset⟩
    rw [hreached.resume_eq, hrefuses.resume_eq, ← hitem, ← hoffset]

-- A file takes the place of no program exactly if one of its fields is refused after all fields
-- before it were read. The error names that field and stands at its start, or four bytes behind it
-- if the field is a negative count.
theorem replace_error_at_field (file : Text) (old : Bytecode) (e : DecodeError) :
    replace file old = .error e old ↔
      ∃ before place rest, file = before ++ rest ∧ Reached before place ∧
        Refuses place rest e.cause ∧ e.item = place.item ∧
        e.offset = before.length + if e.cause = .negativeCount then 4 else 0 := by
  have hshift : e.cause.shift = if e.cause = .negativeCount then 4 else 0 := by
    cases e.cause <;> rfl
  rw [← hshift, ← decode_eq_error_iff, replace_eq]
  cases decode file <;> simp

theorem Place.item_following_ne (left : Nat) : (following left).item ≠ .constantCount := by
  cases left <;> nofun

theorem Reached.eq_nil_of_count {before : Text} {place : Place} (h : Reached before place)
    (hitem : place.item = .constantCount) : before = [] := by
  cases h with
  | start => rfl
  | field _ hreads =>
      -- no field is followed by the count
      cases hreads with
      | count => exact absurd hitem (Place.item_following_ne _)
      | real => exact absurd hitem (Place.item_following_ne _)
      | units => exact absurd hitem (Place.item_following_ne _)
      | _ => cases hitem

-- A negative count of constants is reported behind the count, not at its start.
theorem decode_error_behind_count :
    decode [255, 255, 255, 255] = .error ⟨4, .constantCount, .negativeCount⟩ ∧
      ∀ before place, Reached before place → place.item = .constantCount → before.length ≠ 4 := by
  refine ⟨by decide, fun before place hreached hitem => ?_⟩
  rw [hreached.eq_nil_of_count hitem]
  decide

end Bytecode

end Tuga
