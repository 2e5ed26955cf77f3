import Tuga.Codegen
import Tuga.Proofs.Bytecode.RoundTrip

namespace Tuga

namespace Constant

variable {c d : Constant} (f : Text → Text)

@[simp] theorem kind_mapText : (c.mapText f).kind = c.kind := by
  rw [mapText]
  split <;> rfl

@[simp] theorem real_mapText : (c.mapText f).real = c.real := by
  rw [mapText]
  split <;> rfl

theorem text_mapText (hc : c.kind = .text) : (c.mapText f).text = f c.text := by
  rw [mapText, if_pos hc]

theorem same_ofReal {value : Real64} (hc : c.same (ofReal value)) :
    c.kind = .real ∧ c.real = value := by
  simp only [same, Bool.and_eq_true, decide_eq_true_eq] at hc
  obtain ⟨hkind, hc⟩ := hc
  have hreal : c.kind = .real := hkind
  rw [hreal, if_pos rfl] at hc
  exact ⟨hreal, of_decide_eq_true hc⟩

theorem same_ofText {value : Text} (hc : c.same (ofText value)) :
    c.kind = .text ∧ c.text = value := by
  simp only [same, Bool.and_eq_true, decide_eq_true_eq] at hc
  obtain ⟨hkind, hc⟩ := hc
  have htext : c.kind = .text := hkind
  rw [htext, if_neg (by decide)] at hc
  exact ⟨htext, of_decide_eq_true hc⟩

theorem same_self (c : Constant) : c.same c = true := by
  simp [same]

end Constant

theorem prefix_pooled (pool : List Constant) (c : Constant) : pool <+: (pooled pool c).2 := by
  rw [pooled]
  split
  · exact List.prefix_refl pool
  · exact List.prefix_append pool [c]

theorem mem_pooled {pool : List Constant} {c d : Constant} (hd : d ∈ (pooled pool c).2) :
    d ∈ pool ∨ d = c := by
  rw [pooled] at hd
  split at hd
  · exact Or.inl hd
  · simpa using hd

-- The index leads to an entry that is the same value.
theorem getElem?_pooled (pool : List Constant) (c : Constant) :
    ∃ d, (pooled pool c).2[(pooled pool c).1]? = some d ∧ d.same c := by
  rw [pooled]
  split
  · rename_i i hi
    obtain ⟨hlt, hsame, -⟩ := List.findIdx?_eq_some_iff_getElem.mp hi
    exact ⟨pool[i], List.getElem?_eq_getElem hlt, hsame⟩
  · exact ⟨c, by simp, c.same_self⟩

theorem getElem?_of_extends {α : Type} {l l' : List α} {index : Nat} {a : α} (h : l <+: l')
    (ha : l[index]? = some a) : l'[index]? = some a := by
  obtain ⟨hlt, rfl⟩ := List.getElem?_eq_some_iff.mp ha
  exact List.prefix_iff_getElem?.mp h index hlt

theorem Bytecode.constant?_ofNat {b : Bytecode} {index : Nat} {c : Constant}
    (hlength : b.constants.length ≤ 0x80000000) (hc : b.constants[index]? = some c) :
    b.constant? (Int32.ofNat index) = some c := by
  obtain ⟨hlt, -⟩ := List.getElem?_eq_some_iff.mp hc
  have hindex : (Int32.ofNat index).toInt = index := Int32.toInt_ofNat_of_lt (by omega)
  have hpos : ¬Int32.ofNat index < 0 := by
    rw [Int32.lt_iff_toInt_lt, hindex, Int32.toInt_zero]
    omega
  rw [constant?, if_neg hpos, hindex, Int.toNat_natCast, hc]

-- A program has the constants of a pool at their indices, with texts read in some way.
def Bytecode.Holds (b : Bytecode) (read : Text → Text) (pool : List Constant) : Prop :=
  ∀ (index : Nat) (c : Constant), pool[index]? = some c →
    b.constant? (Int32.ofNat index) = some (c.mapText read)

namespace Bytecode.Holds

variable {b : Bytecode} {read : Text → Text} {pool pool' : List Constant}

theorem mono (h : b.Holds read pool') (hpool : pool <+: pool') : b.Holds read pool := by
  intro index c hc
  exact h index c (getElem?_of_extends hpool hc)

theorem of_length (hpool : b.constants = pool.map (·.mapText read))
    (hlength : pool.length ≤ 0x80000000) : b.Holds read pool := by
  intro index c hc
  refine constant?_ofNat ?_ ?_
  · rw [hpool, List.length_map]
    exact hlength
  · rw [hpool, List.getElem?_map, hc]
    rfl

end Bytecode.Holds

end Tuga
