/-!
# Words — unsigned machine integers

A threshold is written as a word of 64 bits, read at a width, and meant as a
signed integer. Bits are moved by fewer places than a word has; by more there
is no result, so whoever moves them has to say why the places are fewer.
-/

namespace TaintReplay

namespace Word

variable {n : UInt64} {places : UInt32} {v : Int64}

/-- The word with its bits moved up, by fewer places than it has. -/
def shiftUp (n : UInt64) (places : UInt32) (_ : places < 64) : UInt64 := n <<< places.toUInt64

/-- The word with its bits moved down, by fewer places than it has. -/
def shiftDown (n : UInt64) (places : UInt32) (_ : places < 64) : UInt64 := n >>> places.toUInt64

/-- The signed integer, of a word that reads as itself with a sign. -/
def signed? (n : UInt64) : Option Int64 := if 0 ≤ n.toInt64 then some n.toInt64 else none

/-- One bit counts more the further it is moved. -/
theorem one_shiftLeft_mono {a b : Nat} (h : a ≤ b) : 1 <<< a ≤ 1 <<< b := by
  rw [Nat.one_shiftLeft, Nat.one_shiftLeft]
  exact Nat.pow_le_pow_right (by decide) h

/-- One bit that is moved up is not lost. -/
theorem toNat_shiftUp_one (h : places < 64) : (shiftUp 1 places h).toNat = 1 <<< places.toNat := by
  have hplaces : places.toNat < 64 := UInt32.lt_iff_toNat_lt.1 h
  rw [shiftUp, UInt64.toNat_shiftLeft, UInt32.toNat_toUInt64, Nat.mod_eq_of_lt hplaces,
    UInt64.toNat_one, Nat.one_shiftLeft]
  exact Nat.mod_eq_of_lt (Nat.pow_lt_pow_right (by decide) hplaces)

/-- **Nothing is left of a word moved down** exactly if it fits in the places. -/
theorem shiftDown_eq_zero_iff (h : places < 64) :
    shiftDown n places h = 0 ↔ n.toNat < 1 <<< places.toNat := by
  have hplaces : places.toNat < 64 := UInt32.lt_iff_toNat_lt.1 h
  rw [shiftDown, ← UInt64.toNat_inj, UInt64.toNat_shiftRight, UInt32.toNat_toUInt64,
    Nat.mod_eq_of_lt hplaces, Nat.shiftRight_eq_div_pow, UInt64.toNat_zero, Nat.one_shiftLeft,
    Nat.div_eq_zero_iff_lt (Nat.two_pow_pos _)]

/-- Below the sign bit a word reads as itself. -/
theorem toInt_toInt64_of_lt (h : n.toNat < 1 <<< 63) : n.toInt64.toInt = n.toNat := by
  rw [← Int64.toInt_toBitVec, UInt64.toBitVec_toInt64, BitVec.toInt_eq_toNat_of_lt,
    UInt64.toNat_toBitVec]
  rw [UInt64.toNat_toBitVec]
  omega

/-- From there on it turns negative. -/
theorem nonneg_toInt64_iff : 0 ≤ n.toInt64 ↔ n.toNat < 1 <<< 63 := by
  rw [Int64.le_iff_toInt_le, Int64.toInt_zero, ← Int64.toInt_toBitVec, UInt64.toBitVec_toInt64,
    ← Int.not_lt, BitVec.toInt_neg_iff, UInt64.toNat_toBitVec]
  omega

/-- **A word is a signed integer** if it is below the sign bit, and then it is that integer. -/
theorem signed?_eq_some_iff : signed? n = some v ↔ n.toNat < 1 <<< 63 ∧ v.toInt = n.toNat := by
  rw [signed?]
  split
  · have hlt : n.toNat < 1 <<< 63 := nonneg_toInt64_iff.1 ‹_›
    rw [and_iff_right hlt, Option.some.injEq, ← toInt_toInt64_of_lt hlt, Int64.toInt_inj, eq_comm]
  · rename_i hneg
    exact iff_of_false nofun fun h => hneg (nonneg_toInt64_iff.2 h.1)

end Word

end TaintReplay
