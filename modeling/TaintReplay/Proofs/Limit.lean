import TaintReplay.Proofs.Threshold
import TaintReplay.Proofs.Validation
/-!
# Limits — the threshold a configuration may set

A threshold is measured twice. Validation holds it against the greatest one of its width,
and the query makes an integer of it at that width. This file shows that the two measure the
same: a threshold is accepted exactly if it is positive and the integer made of it is the
threshold itself (`validate_agrees_ofWord`). Were it otherwise, an accepted configuration
could silently find nothing.

What an accepted threshold can find is then read off a symbol that no branch mentions
(`exceeds_iff_of_unmentioned`): it may be any integer, so the query is answered yes as long
as there is an integer above the threshold.
-/

namespace TaintReplay

namespace PathState

variable {budget : Nat} {us : List Update} {s : Symbol} {θ : Threshold}

/-- No condition is made on a symbol that no branch mentions. -/
theorem symbol_ne_of_unmentioned (hs : ∀ t taken, .assume t taken ∈ us → s ∉ t.symbols)
    {c : Condition} (hc : c ∈ conditionsOf us) : c.symbol ≠ s := by
  obtain ⟨t, taken, hu, hr⟩ := mem_conditionsOf_iff.1 hc
  intro he
  refine hs t taken hu ?_
  rw [Term.symbols_of_condition hr, he]
  exact List.mem_singleton_self s

/-- **A symbol that no branch mentions is not blurred.** -/
theorem not_blurred_of_unmentioned (hlive : (after budget us).feasibility ≠ .infeasible)
    (hs : ∀ t taken, .assume t taken ∈ us → s ∉ t.symbols) :
    (after budget us).constraints.isBlurred s = false :=
  not_blurred_of_read hlive (fun t taken hu hmem => absurd hmem (hs t taken hu))
    fun _ hc => symbol_ne_of_unmentioned hs (List.mem_of_mem_drop hc)

/-- **A symbol that no branch mentions may be any integer**: it exceeds a threshold as long
as there is an integer above it. -/
theorem exceeds_iff_of_unmentioned (hlive : (after budget us).feasibility ≠ .infeasible)
    (hs : ∀ t taken, .assume t taken ∈ us → s ∉ t.symbols) :
    (after budget us).exceeds θ (.number (.symbol s)) = true ↔
      ∃ T, Value.ofWord θ.limit θ.width = .number (.int T) ∧ T < Int64.maxValue := by
  rw [exceeds_iff]
  constructor
  · rintro ⟨-, -, T, hw, ⟨v, hv, -⟩ | hmask⟩
    · have hlim := Value.toInt_of_ofWord_int hw
      have hmax := Int64.le_iff_toInt_le.1 (Int64.le_maxValue v)
      exact ⟨T, hw, Int64.lt_iff_toInt_lt.2 (by omega)⟩
    · obtain ⟨v, hv⟩ := hmask.inhabited
      exact absurd rfl (symbol_ne_of_unmentioned hs (hmask.excluded v hv))
  · rintro ⟨T, hw, hT⟩
    refine ⟨hlive, not_blurred_of_unmentioned hlive hs, T, hw, Or.inl ⟨Int64.maxValue, ?_, ?_⟩⟩
    · have hlim := Value.toInt_of_ofWord_int hw
      rw [Int64.lt_iff_toInt_lt] at hT
      omega
    · intro t taken hu hmem
      exact absurd hmem (hs t taken hu)

end PathState

namespace NetworkTaintConfig

open PathState (after)

/-- **Validation accepts what the query can represent.** The threshold of a configuration
with valid names is accepted exactly if it is positive and is an integer at its width. Then
a symbol that no branch mentions is answered yes, on a path that can be run, exactly if
there is an integer above the threshold. -/
theorem validate_agrees_ofWord (c : NetworkTaintConfig) :
    (c.validate = .ok () ↔
        (validateNames "taint_sources" c.sources = .ok () ∧
          validateNames "copy_sinks" c.copySinks = .ok ()) ∧
        1 ≤ c.threshold ∧
          ∃ T, Value.ofWord c.threshold c.width = .number (.int T) ∧
            T.toInt = c.threshold.toNat) ∧
      (c.validate = .ok () → ∀ (budget : Nat) (us : List Update) (s : Symbol),
        (after budget us).feasibility ≠ .infeasible →
        (∀ t taken, .assume t taken ∈ us → s ∉ t.symbols) →
        ((after budget us).exceeds c.checker.threshold (.number (.symbol s)) = true ↔
          (c.threshold.toNat : Int) < Int64.maxValue.toInt)) := by
  have hinteger : (∃ T, Value.ofWord c.threshold c.width = .number (.int T) ∧
        T.toInt = c.threshold.toNat) ↔
      (1 ≤ c.width.toNat ∧ c.width.toNat ≤ 64) ∧
        c.threshold.toNat ≤ (greatestThreshold c.width).toNat := by
    rw [← Value.exists_ofWord_iff_le]
    exact exists_congr fun T => and_iff_left_of_imp Value.toInt_of_ofWord_int
  constructor
  · have hpos : 1 ≤ c.threshold ↔ 1 ≤ c.threshold.toNat := UInt64.le_iff_toNat_le
    simp only [validate, checks_eq_ok_iff, validateRange_eq_ok_iff, hinteger, hpos]
    tauto
  · intro hvalid budget us s hlive hs
    obtain ⟨T, hw⟩ := ofWord_of_validate hvalid
    have hT := Value.toInt_of_ofWord_int hw
    rw [PathState.exceeds_iff_of_unmentioned hlive hs, ← hT, ← Int64.lt_iff_toInt_lt]
    constructor
    · rintro ⟨T', hw', hlt⟩
      cases hw.symm.trans hw'
      exact hlt
    · exact fun hlt => ⟨T, hw, hlt⟩

/-- Branches on one symbol, up to the budget and past it, and one on two symbols. -/
def crowdedRun : List Update :=
  [ .assume (.compare (.symbol ⟨1⟩) .lt (.int 9)) true, .taint ⟨0⟩
  , .assume (.compare (.int 4) .eq (.symbol ⟨1⟩)) false
  , .assume (.compare (.symbol ⟨1⟩) .le (.symbol ⟨2⟩)) true ]

/-- The greatest threshold but one, at a width that just holds it. -/
theorem agrees_crowdedRun :
    let c : NetworkTaintConfig := { threshold := 9223372036854775806, width := 63 }
    c.validate = .ok () ∧ (after 1 crowdedRun).feasibility ≠ .infeasible ∧
      (∀ t taken, .assume t taken ∈ crowdedRun → ⟨0⟩ ∉ t.symbols) ∧
      (after 1 crowdedRun).exceeds c.checker.threshold (.number (.symbol ⟨0⟩)) = true := by
  intro c
  have hvalid : c.validate = .ok () := by decide
  have hlive : (after 1 crowdedRun).feasibility ≠ .infeasible := by decide
  have hs : ∀ t taken, .assume t taken ∈ crowdedRun → (⟨0⟩ : Symbol) ∉ t.symbols := by
    intro t taken hu
    simp only [crowdedRun, List.mem_cons, List.not_mem_nil, Update.assume.injEq, reduceCtorEq,
      or_false, false_or] at hu
    rcases hu with ⟨rfl, -⟩ | ⟨rfl, -⟩ | ⟨rfl, -⟩ <;> decide
  exact ⟨hvalid, hlive, hs,
    ((validate_agrees_ofWord c).2 hvalid 1 crowdedRun ⟨0⟩ hlive hs).2 (by decide)⟩

end NetworkTaintConfig

end TaintReplay
