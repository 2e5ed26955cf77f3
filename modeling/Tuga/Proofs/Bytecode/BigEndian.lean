import Mathlib.Data.List.Basic
import Mathlib.Tactic.Ring
import Tuga.Bytecode.File

namespace Tuga

namespace Text

@[simp] theorem length_bigEndian (width n : Nat) : (bigEndian width n).length = width := by
  simp [bigEndian]

theorem bigEndian_succ (width n : Nat) :
    bigEndian (width + 1) n = UInt8.ofNat (n / 256 ^ width) :: bigEndian width n := by
  simp only [bigEndian, List.range_succ_eq_map, List.map_cons, List.map_map]
  congr 1
  apply List.map_congr_left
  intro i hi
  have hindex : width + 1 - 1 - (i + 1) = width - 1 - i := by omega
  simp only [Function.comp_apply, Nat.succ_eq_add_one, hindex]

theorem foldl_ofBigEndian (acc : Nat) (bytes : Text) :
    bytes.foldl (fun n b => n * 256 + b.toNat) acc =
      acc * 256 ^ bytes.length + ofBigEndian bytes := by
  unfold ofBigEndian
  induction bytes generalizing acc with
  | nil => simp
  | cons b bytes ih =>
      rw [List.foldl_cons, ih, List.foldl_cons, ih (0 * 256 + b.toNat), List.length_cons]
      ring

theorem ofBigEndian_cons (b : UInt8) (bytes : Text) :
    ofBigEndian (b :: bytes) = b.toNat * 256 ^ bytes.length + ofBigEndian bytes := by
  rw [ofBigEndian, List.foldl_cons, foldl_ofBigEndian]
  simp

theorem ofBigEndian_lt (bytes : Text) : ofBigEndian bytes < 256 ^ bytes.length := by
  induction bytes with
  | nil => simp [ofBigEndian]
  | cons b bytes ih =>
      have hb : b.toNat + 1 ≤ 256 := b.toNat_lt
      have hmul := Nat.mul_le_mul_right (256 ^ bytes.length) hb
      rw [ofBigEndian_cons, List.length_cons, Nat.pow_succ']
      rw [Nat.add_mul, Nat.one_mul] at hmul
      omega

-- The bytes of a number stand for it, up to what does not fit.
theorem ofBigEndian_bigEndian (width n : Nat) :
    ofBigEndian (bigEndian width n) = n % 256 ^ width := by
  induction width with
  | zero => simp [bigEndian, ofBigEndian, Nat.mod_one]
  | succ width ih =>
      have hsplit : n % 256 ^ (width + 1) =
          n % 256 ^ width + 256 ^ width * (n / 256 ^ width % 256) := Nat.mod_mul
      rw [bigEndian_succ, ofBigEndian_cons, ih, length_bigEndian, UInt8.toNat_ofNat', hsplit,
        Nat.mul_comm, Nat.add_comm]

theorem ofBigEndian_bigEndian_of_lt {width n : Nat} (h : n < 256 ^ width) :
    ofBigEndian (bigEndian width n) = n := by
  rw [ofBigEndian_bigEndian, Nat.mod_eq_of_lt h]

theorem bigEndian_inj {width m n : Nat} (hm : m < 256 ^ width) (hn : n < 256 ^ width)
    (h : bigEndian width m = bigEndian width n) : m = n := by
  rw [← ofBigEndian_bigEndian_of_lt hm, h, ofBigEndian_bigEndian_of_lt hn]

theorem ofBigEndian_inj {s t : Text} (hlength : s.length = t.length)
    (h : ofBigEndian s = ofBigEndian t) : s = t := by
  induction s generalizing t with
  | nil => exact (List.length_eq_zero_iff.mp hlength.symm).symm
  | cons b s ih =>
      cases t with
      | nil => simp at hlength
      | cons c t =>
          have htail : s.length = t.length := by simpa using hlength
          have hs := ofBigEndian_lt s
          have ht := ofBigEndian_lt t
          rw [ofBigEndian_cons, ofBigEndian_cons, htail] at h
          rw [htail] at hs
          have hpos : 0 < 256 ^ t.length := Nat.pow_pos (by decide)
          have hhead : b.toNat = c.toNat := by
            have hdiv := congrArg (· / 256 ^ t.length) h
            simpa only [Nat.mul_comm _ (256 ^ t.length), Nat.mul_add_div hpos,
              Nat.div_eq_of_lt hs, Nat.div_eq_of_lt ht, Nat.add_zero] using hdiv
          rw [hhead] at h
          rw [UInt8.toNat_inj.mp hhead, ih htail (by omega)]

theorem bigEndian_ofBigEndian {width : Nat} {bytes : Text} (h : bytes.length = width) :
    bigEndian width (ofBigEndian bytes) = bytes := by
  apply ofBigEndian_inj (by simp [h])
  rw [ofBigEndian_bigEndian_of_lt]
  rw [← h]
  exact ofBigEndian_lt bytes

end Text

namespace Bytecode

open Text

-- The bytes of code units, two for each.
def unitBytes (us : List UInt16) : Text :=
  us.flatMap fun u => bigEndian 2 u.toNat

@[simp] theorem length_unitBytes (us : List UInt16) : (unitBytes us).length = 2 * us.length := by
  induction us with
  | nil => rfl
  | cons u us ih =>
      rw [unitBytes, List.flatMap_cons, List.length_append, length_bigEndian, ← unitBytes, ih]
      simp only [List.length_cons]
      omega

private theorem bigEndian_two (n : Nat) :
    bigEndian 2 n = [UInt8.ofNat (n / 256), UInt8.ofNat n] := by
  rw [bigEndian_succ, bigEndian_succ]
  simp [bigEndian]

theorem units_unitBytes (us : List UInt16) : units (unitBytes us) = us := by
  induction us with
  | nil => rfl
  | cons u us ih =>
      have hlt := u.toNat_lt
      rw [unitBytes, List.flatMap_cons, ← unitBytes, bigEndian_two]
      simp only [List.cons_append, List.nil_append, units, ih, UInt8.toNat_ofNat']
      have hu : u.toNat / 256 % 2 ^ 8 * 256 + u.toNat % 2 ^ 8 = u.toNat := by omega
      rw [hu, UInt16.ofNat_toNat]

theorem unitBytes_units {n : Nat} {bytes : Text} (h : bytes.length = 2 * n) :
    unitBytes (units bytes) = bytes ∧ (units bytes).length = n := by
  induction n generalizing bytes with
  | zero =>
      rw [List.length_eq_zero_iff.mp h]
      exact ⟨rfl, rfl⟩
  | succ n ih =>
      match bytes, h with
      | a :: b :: rest, h =>
          have ha := a.toNat_lt
          have hb := b.toNat_lt
          have hrest : rest.length = 2 * n := by
            simp only [List.length_cons] at h
            omega
          obtain ⟨hbytes, hlength⟩ := ih hrest
          simp only [units, unitBytes, List.flatMap_cons] at hbytes ⊢
          rw [hbytes, bigEndian_two, UInt16.toNat_ofNat', List.length_cons, hlength]
          refine ⟨?_, rfl⟩
          have hhigh : UInt8.ofNat ((a.toNat * 256 + b.toNat) % 2 ^ 16 / 256) = a := by
            rw [← UInt8.toNat_inj, UInt8.toNat_ofNat']
            omega
          have hlow : UInt8.ofNat ((a.toNat * 256 + b.toNat) % 2 ^ 16) = b := by
            rw [← UInt8.toNat_inj, UInt8.toNat_ofNat']
            omega
          rw [hhigh, hlow]
          rfl

end Bytecode

end Tuga
