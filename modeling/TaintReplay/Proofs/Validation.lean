import TaintReplay.Config.Basic
/-!
# Validation — what an accepted configuration promises

Validation is a row of checks, each of which lets the next one run. This file
turns an accepted configuration into the facts that the checks have
established. The one the checker lives on is `ofWord_of_validate`: the
threshold is an integer at its width, so that the question whether an operand
exceeds it can be asked at all.
-/

namespace TaintReplay

/-- Checks in a row pass if each does. -/
theorem checks_eq_ok_iff {x : Except ConfigFault Unit} {f : Unit → Except ConfigFault Unit} :
    (x >>= f) = .ok () ↔ x = .ok () ∧ f () = .ok () := by
  cases x with
  | error fault =>
    refine iff_of_false (fun h => ?_) fun h => ?_
    · cases h
    · cases h.1
  | ok u => exact ⟨fun h => ⟨rfl, h⟩, And.right⟩

theorem validateRange_eq_ok_iff {field hint : String} {value least greatest : Nat} :
    validateRange field value least greatest hint = .ok () ↔
      least ≤ value ∧ value ≤ greatest := by
  rw [validateRange]
  split
  · exact iff_of_true rfl ‹_›
  · refine iff_of_false (fun h => ?_) ‹_›
    cases h

/-! ## Two measures of a threshold

Validation holds a threshold against the greatest one of its width, which it finds by moving
one bit up; the query moves the threshold down and looks whether anything is left of it, and
then whether it is a signed integer. Both are brought to natural numbers here. -/

/-- The greatest threshold at a width: all bits set, and a signed reading. -/
theorem NetworkTaintConfig.toNat_greatestThreshold (width : UInt32) :
    (greatestThreshold width).toNat = min (1 <<< width.toNat - 1) (1 <<< 63 - 1) := by
  rw [greatestThreshold]
  split
  · rename_i hwide
    have hle : 63 ≤ width.toNat := UInt32.le_iff_toNat_le.1 hwide
    have hpow : 1 <<< 63 ≤ 1 <<< width.toNat := Word.one_shiftLeft_mono hle
    have hmax : Int64.maxValue.toUInt64.toNat = 1 <<< 63 - 1 := by decide
    omega
  · rename_i hnarrow
    have hlt : width.toNat < 63 := by
      rw [UInt32.le_iff_toNat_le] at hnarrow
      exact Nat.lt_of_not_le hnarrow
    have hpow : 1 <<< width.toNat ≤ 1 <<< 63 := Word.one_shiftLeft_mono (Nat.le_of_lt hlt)
    have hpos : 1 <<< 0 ≤ 1 <<< width.toNat := Word.one_shiftLeft_mono (Nat.zero_le _)
    rw [UInt64.toNat_sub_of_le _ _ (by rwa [UInt64.le_iff_toNat_le, Word.toNat_shiftUp_one]),
      Word.toNat_shiftUp_one, UInt64.toNat_one]
    omega

namespace Value

variable {n : UInt64} {width : UInt32}

/-- Nothing of a word lies beyond a width. At 64 bits that is so of every word, and no bit
is moved to see it. -/
theorem not_beyond_iff (h : width.toNat ≤ 64) :
    (¬ ∃ h : width < 64, Word.shiftDown n width h ≠ 0) ↔ n.toNat < 1 <<< width.toNat := by
  by_cases hlt : width < 64
  · simp only [hlt, exists_true_left, ne_eq, Classical.not_not, Word.shiftDown_eq_zero_iff]
  · have hwidth : width.toNat = 64 := by
      rw [UInt32.lt_iff_toNat_lt] at hlt
      exact Nat.le_antisymm h (Nat.le_of_not_lt hlt)
    rw [hwidth]
    exact iff_of_true (fun ⟨hlt', _⟩ => hlt hlt') n.toNat_lt

/-- **A word is an integer at a width** if the width is that of a machine integer, the word
fits it, and it is below the sign bit. -/
theorem exists_ofWord_iff : (∃ T, ofWord n width = .number (.int T)) ↔
    (1 ≤ width.toNat ∧ width.toNat ≤ 64) ∧ n.toNat < 1 <<< width.toNat ∧ n.toNat < 1 <<< 63 := by
  have hwidth : ¬ (width = 0 ∨ 64 < width) ↔ 1 ≤ width.toNat ∧ width.toNat ≤ 64 := by
    rw [← UInt32.toNat_inj, UInt32.lt_iff_toNat_lt, UInt32.toNat_zero]
    simp only [UInt32.reduceToNat]
    omega
  have hsigned : (∃ T, Word.signed? n = some T) ↔ n.toNat < 1 <<< 63 := by
    simp only [Word.signed?_eq_some_iff]
    exact ⟨fun ⟨_, h, _⟩ => h, fun h => ⟨_, h, Word.toInt_toInt64_of_lt h⟩⟩
  rw [← hwidth, ← hsigned, ofWord]
  split
  · rename_i hbad
    exact iff_of_false nofun fun h => h.1 hbad
  · rename_i hgood
    rw [and_iff_right hgood, ← not_beyond_iff (hwidth.1 hgood).2]
    split
    · rename_i hbeyond
      exact iff_of_false nofun fun h => h.1 hbeyond
    · rename_i hwithin
      rw [and_iff_right hwithin]
      cases Word.signed? n <;> simp

/-- **The two measures agree**: a word is an integer at a width exactly if it is at most the
greatest threshold there. -/
theorem exists_ofWord_iff_le : (∃ T, ofWord n width = .number (.int T)) ↔
    (1 ≤ width.toNat ∧ width.toNat ≤ 64) ∧
      n.toNat ≤ (NetworkTaintConfig.greatestThreshold width).toNat := by
  have hpos : 1 <<< 0 ≤ 1 <<< width.toNat := Word.one_shiftLeft_mono (Nat.zero_le _)
  rw [exists_ofWord_iff, NetworkTaintConfig.toNat_greatestThreshold, Nat.le_min]
  omega

end Value

namespace NetworkTaintConfig

variable {c : NetworkTaintConfig}

/-- **An accepted threshold is an integer at its width.** -/
theorem ofWord_of_validate (h : c.validate = .ok ()) :
    ∃ T, Value.ofWord c.threshold c.width = .number (.int T) := by
  simp only [validate, checks_eq_ok_iff, validateRange_eq_ok_iff] at h
  obtain ⟨-, -, hwidth, -, hgreatest⟩ := h
  exact Value.exists_ofWord_iff_le.2 ⟨hwidth, hgreatest⟩

end NetworkTaintConfig

namespace Config

variable {c : Config}

theorem networkTaint_of_validate (h : c.validate = .ok ()) : c.networkTaint.validate = .ok () := by
  simp only [validate, checks_eq_ok_iff] at h
  exact h.2.2.1

end Config

end TaintReplay
