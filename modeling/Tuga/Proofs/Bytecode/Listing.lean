import Tuga.Bytecode.Listing
import Tuga.Proofs.Bytecode.Lines
import Tuga.Proofs.Cbor.Reading

namespace Tuga

open Text

-- The number that a listing gives back: the negative zero turns positive and all NaNs become one.
def Real64.canonical (x : Real64) : Real64 :=
  if x = ⟨0x8000000000000000⟩ then ⟨0⟩ else if x.isNaN then ⟨0x7FF8000000000000⟩ else x

def Constant.canonical (c : Constant) : Constant :=
  { c with real := c.real.canonical }

theorem Real64.canonical_eq (x : Real64) :
    x.canonical = if Listing.isZero x then ⟨0⟩ else if x.isNaN then nan else x := by
  have hzero : Listing.isZero x = true ↔ x = ⟨0⟩ ∨ x = ⟨0x8000000000000000⟩ := by
    obtain ⟨bits⟩ := x
    have hlt := bits.toNat_lt
    rw [Listing.isZero, decide_eq_true_eq, magnitude, signBit, Real64.mk.injEq, Real64.mk.injEq,
      ← UInt64.toNat_inj, ← UInt64.toNat_inj]
    change bits.toNat % 0x8000000000000000 = 0 ↔ bits.toNat = 0 ∨ bits.toNat = 0x8000000000000000
    omega
  have hnan : nan = ⟨0x7FF8000000000000⟩ := by decide
  rw [canonical, hnan]
  by_cases h : Listing.isZero x = true
  · rw [if_pos h]
    rcases hzero.mp h with rfl | rfl <;> decide
  · rw [if_neg h, if_neg fun hx => h (hzero.mpr (.inr hx))]

namespace Listing

-- Counts and lengths that items can have.
structure Within (b : Bytecode) (properties : List (Text × Text)) : Prop where
  constants : b.constants.length ≤ Cbor.maxElements
  code : b.code.length ≤ Cbor.maxElements
  texts : ∀ c ∈ b.constants, c.text.length < 2 ^ 64
  entries : ∀ p ∈ properties, p.1.length < 2 ^ 64 ∧ p.2.length < 2 ^ 64
  properties : properties.length ≤ Cbor.maxElements

section Items

def constantItem (c : Constant) : Cbor :=
  .map (
    [(.unsigned 1, .unsigned c.kind.tag.toNat)] ++
    (if isZero c.real then []
      else [(.unsigned 2, .real (if c.real.isNaN then Real64.nan else c.real))]) ++
    (if c.text.isEmpty then [] else [(.unsigned 3, .text [c.text])]))

-- The properties in the order of their written keys.
def inKeyOrder (properties : List (Text × Text)) : List (Text × Text) :=
  properties.mergeSort fun a b => Cbor.keyBefore (Cbor.encodeText a.1) (Cbor.encodeText b.1)

def propertiesItem (properties : List (Text × Text)) : Cbor :=
  .map ((inKeyOrder properties).map fun p => (.text [p.1], .text [p.2]))

def item (b : Bytecode) (properties : List (Text × Text)) : Cbor :=
  .map (
    [(.unsigned 1, .unsigned 1),
      (.unsigned 2, .array (b.constants.map constantItem)),
      (.unsigned 3, .array (b.lines.map fun line => .text [line]))] ++
    (if properties.isEmpty then [] else [(.unsigned 4, propertiesItem properties)]))

end Items

section Written

open Cbor

theorem readsEntry_field {k n : Nat} {written : Text} {value : Cbor} (hn : n < 2 ^ 64)
    (h : Reads k written value) : ReadsEntry k (encodeNat n, written) (.unsigned n, value) :=
  ⟨(reads_nat hn).mono (Nat.zero_le k), h⟩

theorem reads_constant {c : Constant} (h : c.text.length < 2 ^ 64) :
    Reads 1 (encodeConstant c) (constantItem c) := by
  have htag : c.kind.tag.toNat < 2 ^ 64 := Nat.lt_trans c.kind.tag.toNat_lt (by decide)
  have hkind : ReadsEntry 0 (encodeNat 1, encodeNat c.kind.tag.toNat)
      (.unsigned 1, .unsigned c.kind.tag.toNat) :=
    readsEntry_field (by decide) (reads_nat htag)
  have hreal : ReadsEntry 0 (encodeNat 2, encodeReal c.real)
      (.unsigned 2, .real (if c.real.isNaN then Real64.nan else c.real)) :=
    readsEntry_field (by decide) (reads_real c.real)
  have htext : ReadsEntry 0 (encodeNat 3, encodeText c.text) (.unsigned 3, .text [c.text]) :=
    readsEntry_field (by decide) (reads_text h)
  apply reads_map
  · refine List.rel_append (List.rel_append (.cons hkind .nil) ?_) ?_
    · split
      · exact .nil
      · exact .cons hreal .nil
    · split
      · exact .nil
      · exact .cons htext .nil
  · split <;> split <;> simp [maxElements]

theorem reads_properties {properties : List (Text × Text)}
    (hcount : properties.length ≤ maxElements)
    (h : ∀ p ∈ properties, p.1.length < 2 ^ 64 ∧ p.2.length < 2 ^ 64) :
    Reads 1 (encodeProperties properties) (propertiesItem properties) := by
  have hsorted : encodeProperties properties =
      encodeMap ((inKeyOrder properties).map fun p => (encodeText p.1, encodeText p.2)) := by
    rw [encodeProperties, inKeyOrder, List.map_mergeSort (s := fun a b => keyBefore a.1 b.1)]
    intro a _ b _
    rfl
  rw [hsorted]
  apply reads_map
  · rw [List.forall₂_map_left_iff, List.forall₂_map_right_iff, List.forall₂_same]
    intro p hp
    have hlength := h p ((List.mergeSort_perm properties _).mem_iff.mp hp)
    exact ⟨reads_text hlength.1, reads_text hlength.2⟩
  · simpa [inKeyOrder] using hcount

-- A written listing is read as its item.
theorem reads_encode {b : Bytecode} {properties : List (Text × Text)} (h : Within b properties)
    (hcode : ∀ i ∈ b.code, i.Plain) : Reads 3 (encode b properties) (item b properties) := by
  have hversion : ReadsEntry 2 (encodeNat 1, encodeNat currentVersion.toNat)
      (.unsigned 1, .unsigned 1) :=
    readsEntry_field (by decide) ((reads_nat (n := 1) (by decide)).mono (by decide))
  have hconstants : ReadsEntry 2 (encodeNat 2, encodeArray (b.constants.map encodeConstant))
      (.unsigned 2, .array (b.constants.map constantItem)) := by
    refine readsEntry_field (by decide) (reads_array ?_ (by simpa using h.constants))
    rw [List.forall₂_map_left_iff, List.forall₂_map_right_iff, List.forall₂_same]
    exact fun c hc => reads_constant (h.texts c hc)
  have hlines : ReadsEntry 2 (encodeNat 3, encodeArray (b.lines.map encodeText))
      (.unsigned 3, .array (b.lines.map fun line => .text [line])) := by
    refine readsEntry_field (by decide)
      ((reads_array ?_ (by simpa [Bytecode.lines] using h.code)).mono (Nat.le_succ 1))
    rw [List.forall₂_map_left_iff, List.forall₂_map_right_iff, List.forall₂_same]
    intro line hline
    obtain ⟨i, hi, rfl⟩ := List.mem_map.mp hline
    exact reads_text (Instruction.length_render_lt (hcode i hi))
  have hproperties : ReadsEntry 2 (encodeNat 4, encodeProperties properties)
      (.unsigned 4, propertiesItem properties) :=
    readsEntry_field (by decide) ((reads_properties h.properties h.entries).mono (Nat.le_succ 1))
  unfold encode ofBytecode toBytes
  apply reads_map
  · refine List.rel_append (.cons hversion (.cons hconstants (.cons hlines .nil))) ?_
    split
    · exact .nil
    · exact .cons hproperties .nil
  · split <;> simp [maxElements]

end Written

section Fields

theorem fill_field {α : Type} {count n : Nat} {set : Nat → Cbor → α → Option α} {seen : List Nat}
    {value : Cbor} {rest : List (Cbor × Cbor)} {record : α} (hn : n ≠ 0) (hcount : n ≤ count)
    (hseen : n ∉ seen) :
    fill count set seen ((.unsigned n, value) :: rest) record =
      (set n value record).bind (fill count set (n :: seen) rest) := by
  have hfield : (n = 0 || decide (count < n) || seen.contains n) = false := by
    simp [hn, hcount, hseen]
  simp only [fill, fieldOf?]
  simp only [Option.bind_eq_bind, Option.bind_some, hfield]
  rfl

theorem fill_nil {α : Type} (count : Nat) (set : Nat → Cbor → α → Option α) (seen : List Nat)
    (record : α) : fill count set seen [] record = some record := by
  rw [fill]

theorem untag_eq_self {c : Cbor} (h : ∀ number content, c ≠ .tagged number content) :
    untag c = some c := by
  cases c with
  | tagged number content => exact absurd rfl (h number content)
  | _ => rfl

theorem toRecord?_map {α : Type} (count : Nat) (set : Nat → Cbor → α → Option α) (default : α)
    (entries : List (Cbor × Cbor)) :
    toRecord? count set default (.map entries) = fill count set [] entries default := by
  simp [toRecord?, untag_eq_self]

theorem toText?_text (old text : Text) :
    toText? old (.text [text]) = if text.isUtf8 then some text else none := by
  simp [toText?, untag_eq_self, joinPieces?]

theorem setConstant_kind (tag : UInt8) (c : Constant) :
    setConstant 1 (.unsigned tag.toNat) c = some { c with kind := ⟨tag⟩ } := by
  simp [setConstant, toByte?, untag_eq_self, tag.toNat_lt]

theorem setConstant_real (x : Real64) (c : Constant) :
    setConstant 2 (.real x) c = some { c with real := x } := by
  simp [setConstant, toReal?, untag_eq_self]

theorem setConstant_text (text : Text) (c : Constant) :
    setConstant 3 (.text [text]) c = if text.isUtf8 then some { c with text } else none := by
  simp only [setConstant, toText?_text]
  split <;> rfl

theorem fill_text {seen : List Nat} (hseen : 3 ∉ seen) (text : Text) {c : Constant}
    (hc : c.text = []) :
    fill 3 setConstant seen (if text.isEmpty then [] else [(.unsigned 3, .text [text])]) c =
      if text.isUtf8 then some { c with text } else none := by
  cases text with
  | nil =>
      obtain ⟨kind, real, _⟩ := c
      cases hc
      rw [if_pos List.isEmpty_nil, fill_nil, if_pos (by rfl)]
  | cons b text =>
      rw [if_neg (by simp), fill_field (by decide) (by decide) hseen, setConstant_text]
      split <;> rfl

-- A constant is read back up to its bits of zero and NaN, if its text is well-formed.
theorem toRecord?_constantItem (c : Constant) :
    toRecord? 3 setConstant { kind := ⟨0⟩ } (constantItem c) =
      if c.text.isUtf8 then some c.canonical else none := by
  obtain ⟨⟨tag⟩, real, text⟩ := c
  simp only [constantItem, toRecord?_map, List.cons_append, List.nil_append]
  rw [fill_field (by decide) (by decide) (by decide), setConstant_kind, Option.bind_some]
  by_cases hzero : isZero real = true
  · rw [if_pos hzero, List.nil_append, fill_text (by decide) text rfl]
    simp [Constant.canonical, Real64.canonical_eq, hzero]
  · rw [if_neg hzero, List.cons_append, List.nil_append,
      fill_field (by decide) (by decide) (by decide), setConstant_real]
    refine (fill_text (by decide) text rfl).trans ?_
    simp [Constant.canonical, Real64.canonical_eq, hzero]

theorem mapM_guard {α β : Type} (p : α → Bool) (f : α → β) (l : List α) :
    (l.mapM fun a => if p a then some (f a) else none) =
      if l.all p then some (l.map f) else none := by
  induction l with
  | nil => rfl
  | cons a l ih =>
      rw [List.mapM_cons, ih]
      by_cases ha : p a = true <;> by_cases hl : l.all p = true <;> simp [ha, hl]

theorem put_of_notMem {table : List (Text × Text)} {key : Text} (h : key ∉ table.map Prod.fst)
    (value : Text) : put table key value = table ++ [(key, value)] := by
  rw [put, List.filter_eq_self.mpr]
  intro p hp
  simpa using fun heq => h (List.mem_map.mpr ⟨p, hp, heq⟩)

-- Whether key and value of an entry are well-formed.
def entryIsUtf8 (p : Text × Text) : Bool := p.1.isUtf8 && p.2.isUtf8

theorem toTable?_text (table properties : List (Text × Text))
    (hkeys : ((table ++ properties).map Prod.fst).Nodup) (key value : Text) :
    toTable? key value table (properties.map fun p => (.text [p.1], .text [p.2])) =
      if properties.all entryIsUtf8 then some (table ++ properties) else none := by
  induction properties generalizing key value table with
  | nil => simp [toTable?]
  | cons p properties ih =>
      obtain ⟨k, v⟩ := p
      have hnew : k ∉ table.map Prod.fst := by
        rw [List.map_append, List.map_cons] at hkeys
        exact fun hmem => List.disjoint_of_nodup_append hkeys hmem List.mem_cons_self
      have happend : table ++ (k, v) :: properties = table ++ [(k, v)] ++ properties := by simp
      rw [happend] at hkeys ⊢
      have htail := ih _ hkeys k v
      have hentry : entryIsUtf8 (k, v) = (k.isUtf8 && v.isUtf8) := rfl
      rw [List.map_cons, toTable?, toText?_text, toText?_text, List.all_cons, hentry]
      by_cases hkey : k.isUtf8 = true
      · by_cases hvalue : v.isUtf8 = true
        · rw [hkey, hvalue, Bool.true_and, Bool.true_and]
          simp only [if_true, Option.bind_eq_bind, Option.bind_some, put_of_notMem hnew, htail]
        · simp [hkey, hvalue]
      · simp [hkey]

theorem perm_inKeyOrder (properties : List (Text × Text)) :
    (inKeyOrder properties).Perm properties :=
  List.mergeSort_perm properties _

theorem toProperties?_propertiesItem {properties : List (Text × Text)}
    (hkeys : (properties.map Prod.fst).Nodup) :
    toProperties? (propertiesItem properties) =
      if properties.all entryIsUtf8 then some (inKeyOrder properties) else none := by
  have hperm := perm_inKeyOrder properties
  have hkeys' : ((inKeyOrder properties).map Prod.fst).Nodup :=
    (hperm.map Prod.fst).nodup_iff.mpr hkeys
  have htable := toTable?_text [] (inKeyOrder properties) hkeys' [] []
  rw [hperm.all_eq] at htable
  simpa [toProperties?, propertiesItem, untag_eq_self] using htable

theorem setField_version (l : Listing) :
    setField 1 (.unsigned 1) l = some { l with version := 1 } := by
  simp [setField, toInt?, untag_eq_self]

theorem setField_constants (constants : List Constant) (l : Listing) :
    setField 2 (.array (constants.map constantItem)) l =
      if constants.all (·.text.isUtf8) then
        some { l with constants := constants.map Constant.canonical }
      else none := by
  have hitems : toItems? (.array (constants.map constantItem)) =
      some (constants.map constantItem) := by
    simp [toItems?, untag_eq_self]
  have hconstants : (constants.map constantItem).mapM (toRecord? 3 setConstant { kind := ⟨0⟩ }) =
      if constants.all (·.text.isUtf8) then some (constants.map Constant.canonical) else none := by
    rw [List.mapM_map, ← mapM_guard]
    congr 1
    funext c
    exact toRecord?_constantItem c
  simp only [setField, hitems, Option.bind_eq_bind, Option.bind_some, hconstants]
  split <;> rfl

theorem setField_code {lines : List Text} (h : lines.all Text.isUtf8 = true) (l : Listing) :
    setField 3 (.array (lines.map fun line => .text [line])) l =
      some { l with code := lines } := by
  have hitems : toItems? (.array (lines.map fun line => .text [line])) =
      some (lines.map fun line => .text [line]) := by
    simp [toItems?, untag_eq_self]
  have hlines : (lines.map fun line => Cbor.text [line]).mapM (toText? []) = some lines := by
    have hguard := mapM_guard Text.isUtf8 id lines
    rw [if_pos h, List.map_id] at hguard
    rw [List.mapM_map, ← hguard]
    congr 1
    funext line
    exact toText?_text [] line
  simp only [setField, hitems, Option.bind_eq_bind, Option.bind_some, hlines]
  rfl

theorem fill_properties {seen : List Nat} (hseen : 4 ∉ seen) {properties : List (Text × Text)}
    (hkeys : (properties.map Prod.fst).Nodup) {l : Listing} (hl : l.properties = []) :
    fill 4 setField seen
        (if properties.isEmpty then [] else [(.unsigned 4, propertiesItem properties)]) l =
      if properties.all entryIsUtf8 then
        some { l with properties := inKeyOrder properties }
      else none := by
  cases properties with
  | nil =>
      obtain ⟨version, constants, code, _⟩ := l
      cases hl
      rw [if_pos List.isEmpty_nil, fill_nil, if_pos (by rfl), inKeyOrder, List.mergeSort_nil]
  | cons p properties =>
      rw [if_neg (by simp), fill_field (by decide) (by decide) hseen, setField,
        toProperties?_propertiesItem hkeys]
      · split <;> rfl
      all_goals decide

end Fields

theorem decode_encode_eq {b : Bytecode} {properties : List (Text × Text)}
    (hcode : ∀ i ∈ b.code, i.Plain) (hkeys : (properties.map Prod.fst).Nodup)
    (h : Within b properties) :
    decode (encode b properties) =
      if b.constants.all (·.text.isUtf8) && properties.all entryIsUtf8 then
        some ⟨1, b.constants.map Constant.canonical, b.lines, inKeyOrder properties⟩
      else none := by
  have hlines : b.lines.all Text.isUtf8 = true := by
    rw [Bytecode.lines, List.all_map, List.all_eq_true]
    exact fun i hi => Instruction.isUtf8_render (hcode i hi)
  rw [decode, (reads_encode h hcode).decode_eq (by decide)]
  simp only [Option.bind_eq_bind, Option.bind_some, item, toRecord?_map, List.cons_append,
    List.nil_append]
  rw [fill_field (by decide) (by decide) (by decide), setField_version, Option.bind_some,
    fill_field (by decide) (by decide) (by decide), setField_constants]
  by_cases htexts : b.constants.all (·.text.isUtf8) = true
  · rw [if_pos htexts, Option.bind_some, fill_field (by decide) (by decide) (by decide),
      setField_code hlines, Option.bind_some, fill_properties (by decide) hkeys rfl, htexts,
      Bool.true_and]
  · simp [htexts]

theorem pool_canonical {constants : List Constant}
    (h : ∀ c ∈ constants, (∃ value, c = .ofReal value) ∨ ∃ value, c = .ofText value)
    (index : Nat) :
    pool index (constants.map Constant.canonical) = .ok (constants.map Constant.canonical) := by
  induction constants generalizing index with
  | nil => rfl
  | cons c constants ih =>
      rw [List.forall_mem_cons] at h
      rw [List.map_cons, pool, ih h.2]
      rcases h.1 with ⟨value, rfl⟩ | ⟨value, rfl⟩ <;> rfl

theorem toBytecode_canonical {b : Bytecode} (properties : List (Text × Text))
    (hconstants : ∀ c ∈ b.constants, (∃ value, c = .ofReal value) ∨ ∃ value, c = .ofText value)
    (hcode : ∀ i ∈ b.code, i.Plain) :
    toBytecode ⟨1, b.constants.map Constant.canonical, b.lines, properties⟩ =
      .ok ⟨b.constants.map Constant.canonical, b.code⟩ := by
  simp only [toBytecode, pool_canonical hconstants, Instruction.ofLines_lines hcode]
  rfl

-- A written listing cannot be read exactly if a text in it is ill-formed; otherwise it holds the
-- properties and the program, with one zero and one NaN.
theorem decode_encode_canonical (b : Bytecode) (properties : List (Text × Text))
    (hconstants : ∀ c ∈ b.constants, (∃ value, c = .ofReal value) ∨ ∃ value, c = .ofText value)
    (hcode : ∀ i ∈ b.code, i.Plain) (hkeys : (properties.map Prod.fst).Nodup)
    (hwithin : Within b properties) :
    (decode (encode b properties) = none ↔
      (∃ c ∈ b.constants, c.kind = .text ∧ c.text.isUtf8 = false) ∨
        ∃ p ∈ properties, p.1.isUtf8 = false ∨ p.2.isUtf8 = false) ∧
    ∀ l, decode (encode b properties) = some l →
      l.version = 1 ∧ l.properties.Perm properties ∧
        l.toBytecode = .ok { constants := b.constants.map Constant.canonical, code := b.code } := by
  have hkind : ∀ c ∈ b.constants, c.text.isUtf8 = false → c.kind = .text := by
    intro c hc htext
    rcases hconstants c hc with ⟨value, rfl⟩ | ⟨value, rfl⟩
    · cases htext
    · rfl
  rw [decode_encode_eq hcode hkeys hwithin]
  constructor
  · have hfalse : ∀ p, entryIsUtf8 p = false ↔ p.1.isUtf8 = false ∨ p.2.isUtf8 = false := by
      intro p
      rw [entryIsUtf8, Bool.and_eq_false_iff]
    rw [ite_eq_right_iff, imp_iff_not (by simp), Bool.not_eq_true, Bool.and_eq_false_iff,
      List.all_eq_false, List.all_eq_false]
    simp only [Bool.not_eq_true, hfalse]
    refine or_congr_left ⟨?_, ?_⟩
    · rintro ⟨c, hc, htext⟩
      exact ⟨c, hc, hkind c hc htext, htext⟩
    · rintro ⟨c, hc, -, htext⟩
      exact ⟨c, hc, htext⟩
  · intro l hl
    split at hl
    case isTrue =>
      cases hl
      exact ⟨rfl, perm_inKeyOrder properties, toBytecode_canonical _ hconstants hcode⟩
    case isFalse => cases hl

-- A negative zero, a NaN with bits of its own, a text and a negative operand, with two properties.
theorem decode_encode_negative_zero :
    ∃ l, decode (encode ⟨[.ofReal ⟨0x8000000000000000⟩, .ofReal ⟨0xFFF0000000000001⟩,
        .ofText [0xC3, 0xA9]], [⟨⟨0⟩, -2147483648⟩, ⟨⟨40⟩, 0⟩]⟩ [([98, 98], [1]), ([97], [])]) =
          some l ∧
      l.version = 1 ∧ l.properties.Perm [([98, 98], [1]), ([97], [])] ∧
      l.toBytecode = .ok ⟨[.ofReal ⟨0⟩, .ofReal ⟨0x7FF8000000000000⟩, .ofText [0xC3, 0xA9]],
        [⟨⟨0⟩, -2147483648⟩, ⟨⟨40⟩, 0⟩]⟩ := by
  have hconstants : ∀ c ∈ [Constant.ofReal ⟨0x8000000000000000⟩, .ofReal ⟨0xFFF0000000000001⟩,
      .ofText [0xC3, 0xA9]], (∃ value, c = .ofReal value) ∨ ∃ value, c = .ofText value := by
    simp only [List.forall_mem_cons]
    exact ⟨.inl ⟨_, rfl⟩, .inl ⟨_, rfl⟩, .inr ⟨_, rfl⟩, by simp⟩
  have hcode : ∀ i ∈ [(⟨⟨0⟩, -2147483648⟩ : Instruction), ⟨⟨40⟩, 0⟩], i.Plain := by
    simp only [List.forall_mem_cons, Instruction.Plain]
    decide
  obtain ⟨hnone, hsome⟩ := decode_encode_canonical ⟨_, [⟨⟨0⟩, -2147483648⟩, ⟨⟨40⟩, 0⟩]⟩
    [([98, 98], [1]), ([97], [])] hconstants hcode (by decide)
    ⟨by decide, by decide, by decide, by decide, by decide⟩
  obtain ⟨l, hl⟩ := Option.ne_none_iff_exists'.mp (mt hnone.mp (by decide))
  obtain ⟨hversion, hproperties, hprogram⟩ := hsome l hl
  exact ⟨l, hl, hversion, hproperties, hprogram.trans (by decide)⟩

end Listing

end Tuga
