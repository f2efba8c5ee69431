import TaintReplay.Proofs.Consistency
import TaintReplay.Proofs.Threshold
/-!
# Feasibility — which runs of branches can be run

A state is found infeasible at one branch of a run and stays so, and which branch
that is depends on the order. Whether there is one does not: a path can be run
exactly if constants decide no branch against it, the recorded conditions are
consistent, and none of those past the budget is contradicted by them
(`live_after_iff`, by the predicate `Runnable`). Where all conditions fit the
budget that does not mention the order at all, and neither does the record that is
left (`after_perm`).
-/

namespace TaintReplay

open Constraints (ofList)

/-- **An update that is not opposed by a record**: constants do not decide the
branch the other way, and the condition it makes is not contradicted. -/
def Update.Unopposed (k : Constraints) (u : Update) : Prop :=
  (∀ t taken, u = .assume t taken → t.reading taken ≠ .decided false) ∧
    ∀ c, u.condition? = some c → k.contradicts c = false

theorem Update.unopposed_assume_iff {k : Constraints} {t : Term} {taken : Bool} :
    (assume t taken).Unopposed k ↔ t.reading taken ≠ .decided false ∧
      ∀ c, t.reading taken = .condition c → k.contradicts c = false := by
  simp [Unopposed, condition?_assume_eq_some_iff]

theorem Update.unopposed_taint {k : Constraints} (s : Symbol) : (taint s).Unopposed k := by
  simp [Unopposed, condition?, entry?]

theorem conditionsOf_concat (us : List Update) (u : Update) :
    conditionsOf (us ++ [u]) = conditionsOf us ++ u.condition?.toList := by
  rw [conditionsOf, List.filterMap_append, conditionsOf]
  cases h : u.condition? <;> simp [h]

/-- **What it takes for a path to be run.** Constants decide no branch against it,
and its conditions come to no contradiction under the budget. -/
structure Runnable (budget : Nat) (us : List Update) : Prop where
  decided : ∀ t taken, .assume t taken ∈ us → t.reading taken ≠ .decided false
  accepted : Constraints.Accepted budget (conditionsOf us)

namespace Runnable

variable {budget : Nat} {us vs : List Update}

theorem nil (budget : Nat) : Runnable budget [] where
  decided _ _ h := absurd h List.not_mem_nil
  accepted := .nil budget

/-- A path that can be run goes on as long as nothing opposes the next update. -/
theorem concat_iff {u : Update} : Runnable budget (us ++ [u]) ↔
    Runnable budget us ∧ u.Unopposed (ofList ((conditionsOf us).take budget)) := by
  have haccepted : Constraints.Accepted budget (conditionsOf (us ++ [u])) ↔
      Constraints.Accepted budget (conditionsOf us) ∧ ∀ c, u.condition? = some c →
        (ofList ((conditionsOf us).take budget)).contradicts c = false := by
    rw [conditionsOf_concat]
    cases u.condition? with
    | none => simp
    | some c => simp [Constraints.Accepted.concat_iff]
  constructor
  · rintro ⟨hdecided, hacc⟩
    obtain ⟨hold, hnew⟩ := haccepted.1 hacc
    refine ⟨⟨fun t taken hm => hdecided t taken (List.mem_append_left _ hm), hold⟩, ?_, hnew⟩
    rintro t taken rfl
    exact hdecided t taken (by simp)
  · rintro ⟨⟨hdecided, hold⟩, hlast, hnew⟩
    refine ⟨fun t taken hm => ?_, haccepted.2 ⟨hold, hnew⟩⟩
    rcases List.mem_append.1 hm with hm | hm
    · exact hdecided t taken hm
    · exact hlast t taken (List.mem_singleton.1 hm).symm

end Runnable

namespace PathState

variable {st : PathState} {budget : Nat} {us vs : List Update}

/-- An update keeps a path that can be run from being run exactly if it is
opposed. -/
theorem live_update_iff {u : Update} : (st.update u).feasibility ≠ .infeasible ↔
    st.feasibility ≠ .infeasible ∧ u.Unopposed st.constraints := by
  by_cases hlive : st.feasibility = .infeasible
  · exact iff_of_false (fun h => h (update_of_infeasible hlive u)) fun h => h.1 hlive
  · rw [and_iff_right hlive]
    cases u with
    | taint s =>
      exact iff_of_true hlive (Update.unopposed_taint s)
    | assume t taken =>
      rw [update, Update.unopposed_assume_iff]
      cases hr : t.reading taken with
      | decided outcome =>
        rw [assume_of_decided hlive hr]
        cases outcome <;> simp [decided]
      | condition c =>
        rw [assume_of_condition hlive hr]
        simp [assumeCondition, Constraints.check_eq_infeasible_iff]
      | vague =>
        rw [assume_of_vague hlive hr]
        simp [cloud]

/-- The record of a path that can be run, but for the budget and the blurred
symbols, is that of its first conditions. -/
theorem constraints_eq_ofList (hlive : (after budget us).feasibility ≠ .infeasible) :
    (after budget us).constraints =
      { ofList ((conditionsOf us).take budget) with
        budget, blurred := (after budget us).constraints.blurred } := by
  conv_lhs => rw [constraints_after hlive, Constraints.after_eq_recorded, Constraints.recorded_eq,
    conditions_entries, ← constraints_after hlive]

/-- **Whether a path can be run** does not depend on where it was found out. -/
theorem live_after_iff : (after budget us).feasibility ≠ .infeasible ↔ Runnable budget us := by
  induction us using List.reverseRecOn with
  | nil => exact iff_of_true (by simp [after, start]) (.nil budget)
  | append_singleton us u ih =>
    rw [after_concat, live_update_iff, Runnable.concat_iff, ih]
    refine and_congr_right fun hrun => ?_
    rw [constraints_eq_ofList (ih.2 hrun)]
    rfl

/-- **As long as a path can be run, no contradiction is in its record.** -/
theorem consistent_after (hlive : (after budget us).feasibility ≠ .infeasible) :
    (after budget us).constraints.Consistent := by
  have hcons := (live_after_iff.1 hlive).accepted.consistent
  rw [constraints_eq_ofList hlive]
  exact ⟨hcons.inhabited, hcons.spared⟩

/-- What a run that can be taken excludes are the integers of its recorded `!=`. -/
theorem excludes_after (hlive : (after budget us).feasibility ≠ .infeasible) {s : Symbol}
    {v : Int64} : (after budget us).constraints.excludes s v = true ↔
      ⟨s, .neq, v⟩ ∈ (conditionsOf us).take budget := by
  rw [constraints_after hlive, Constraints.excludes_after, conditions_entries]

/-- And it has recorded as many conditions as it made, up to the budget. -/
theorem count_after (hlive : (after budget us).feasibility ≠ .infeasible) :
    (after budget us).constraints.count = min budget (conditionsOf us).length := by
  rw [constraints_after hlive, Constraints.count_after, conditions_entries]

/-- **A path that can be run is at odds with nothing it has recorded.** No symbol is left an
empty interval. Where a symbol is left a single integer, none of the recorded `!=` is against
that integer, in the record or among the conditions that were made, and the symbol may still
be it. Nor are there more conditions in the record than the budget allows. -/
theorem unspent_after (hlive : (after budget us).feasibility ≠ .infeasible) :
    (∀ s, ((after budget us).constraints.interval s).isEmpty = false ∧
        ∀ v, ((after budget us).constraints.interval s).point? = some v →
          (after budget us).constraints.excludes s v = false ∧
            ⟨s, .neq, v⟩ ∉ (conditionsOf us).take budget ∧
            (after budget us).constraints.check ⟨s, .eq, v⟩ ≠ .infeasible) ∧
      (after budget us).constraints.count ≤ budget := by
  have hcons := consistent_after hlive
  refine ⟨fun s => ⟨hcons.inhabited s, fun v hv => ?_⟩, ?_⟩
  · have hspared := hcons.spared s v hv
    have hallowed : (after budget us).constraints.allows s v = true :=
      Constraints.allows_iff.2 ⟨(Interval.contains_of_point? hv).2 rfl, hspared⟩
    refine ⟨hspared, ?_, ?_⟩
    · rwa [← excludes_after hlive, Bool.not_eq_true]
    · rw [ne_eq, Constraints.check_eq_infeasible_iff, Bool.not_eq_true]
      exact Constraints.contradicts_eq_false hallowed
        (by simp [Condition.holds, Comparison.holds])
  · rw [count_after hlive]
    exact Nat.min_le_left ..

/-- Ends that meet beside an excluded integer, a vague branch, and a bound and a `!=` that
come too late. -/
def tightRun : List Update :=
  [ .assume (.compare (.symbol ⟨0⟩) .neq (.int 4)) true
  , .assume (.compare (.int 5) .gt (.symbol ⟨0⟩)) false
  , .assume (.compare (.symbol ⟨0⟩) .eq (.symbol ⟨1⟩)) true
  , .taint ⟨0⟩
  , .assume (.compare (.symbol ⟨0⟩) .le (.int 5)) true
  , .assume (.compare (.symbol ⟨1⟩) .lt (.int 0)) true
  , .assume (.symbol ⟨0⟩) true ]

theorem unspent_tightRun :
    (after 3 tightRun).feasibility ≠ .infeasible ∧
      ((after 3 tightRun).constraints.interval ⟨0⟩).point? = some 5 ∧
      ⟨⟨0⟩, .neq, 5⟩ ∉ (conditionsOf tightRun).take 3 ∧
      (after 3 tightRun).constraints.check ⟨⟨0⟩, .eq, 5⟩ ≠ .infeasible ∧
      (after 3 tightRun).constraints.count ≤ 3 := by
  have hlive : (after 3 tightRun).feasibility ≠ .infeasible := by decide
  have hpoint : ((after 3 tightRun).constraints.interval ⟨0⟩).point? = some 5 := by decide
  obtain ⟨hsymbols, hcount⟩ := unspent_after hlive
  obtain ⟨-, hmade, hcheck⟩ := (hsymbols ⟨0⟩).2 5 hpoint
  exact ⟨hlive, hpoint, hmade, hcheck, hcount⟩

end PathState

/-! ## The order of the branches -/

/-- Where all conditions are recorded, the record does not tell the order of the
entries. -/
theorem Constraints.after_perm {budget : Nat} {es fs : List Entry} (h : es.Perm fs)
    (hfit : (conditions es).length ≤ budget) : after budget es = after budget fs := by
  have hconditions : (conditions es).Perm (conditions fs) := h.filterMap _
  have hfit' : (conditions fs).length ≤ budget := hconditions.length_eq ▸ hfit
  have hblurred : (after budget es).blurred = (after budget fs).blurred := by
    refine Std.ExtTreeSet.ext_contains fun s => Bool.eq_iff_iff.2 ?_
    change isBlurred _ s = true ↔ isBlurred _ s = true
    rw [isBlurred_after_iff, isBlurred_after_iff, List.drop_eq_nil_of_le hfit,
      List.drop_eq_nil_of_le hfit']
    simp only [h.mem_iff]
  rw [after_eq_recorded, after_eq_recorded budget fs, recorded_eq, recorded_eq,
    List.take_of_length_le hfit, List.take_of_length_le hfit', ofList_perm hconditions, hblurred]

theorem Runnable.of_perm {budget : Nat} {us vs : List Update} (hrun : Runnable budget us)
    (h : us.Perm vs) (hfit : (conditionsOf us).length ≤ budget) : Runnable budget vs where
  decided t taken hm := hrun.decided t taken (h.mem_iff.2 hm)
  accepted := by
    have hconditions : (conditionsOf us).Perm (conditionsOf vs) := h.filterMap _
    have hcons := (Constraints.Accepted.iff_of_length_le hfit).1 hrun.accepted
    rw [Constraints.ofList_perm hconditions] at hcons
    rw [hconditions.length_eq] at hfit
    exact (Constraints.Accepted.iff_of_length_le hfit).2 hcons

namespace PathState

variable {budget : Nat} {us vs : List Update}

/-- **The order of the branches does not matter** while all their conditions fit
the budget. Either both orders make a path that can be run or neither does; and if
they do, the same is recorded in the end, and the same operands may exceed a
threshold. -/
theorem agree_of_perm (h : us.Perm vs) (hfit : (conditionsOf us).length ≤ budget) :
    ((after budget us).feasibility = .infeasible ↔
        (after budget vs).feasibility = .infeasible) ∧
      ((after budget us).feasibility ≠ .infeasible →
        (after budget us).constraints = (after budget vs).constraints ∧
          ∀ θ v, (after budget us).exceeds θ v = (after budget vs).exceeds θ v) := by
  have hfit' : (conditionsOf vs).length ≤ budget :=
    (h.filterMap Update.condition?).length_eq ▸ hfit
  have hfeasible : (after budget us).feasibility = .infeasible ↔
      (after budget vs).feasibility = .infeasible := by
    have hrunnable : Runnable budget us ↔ Runnable budget vs :=
      ⟨fun hrun => hrun.of_perm h hfit, fun hrun => hrun.of_perm h.symm hfit'⟩
    exact not_iff_not.1 (live_after_iff.trans (hrunnable.trans live_after_iff.symm))
  refine ⟨hfeasible, fun hlive => ?_⟩
  have hrecord : (after budget us).constraints = (after budget vs).constraints := by
    rw [constraints_after hlive, constraints_after (mt hfeasible.2 hlive)]
    exact Constraints.after_perm (h.filterMap _) (by rwa [conditions_entries])
  exact ⟨hrecord, fun θ v => exceeds_congr hrecord hfeasible⟩

/-- A run in which an excluded integer, a bound on either side, a vague branch and
a taint meet. -/
def mixedRun : List Update :=
  [ .assume (.compare (.symbol ⟨0⟩) .neq (.int 9000)) true
  , .assume (.compare (.symbol ⟨1⟩) .lt (.symbol ⟨2⟩)) true
  , .assume (.compare (.int 9000) .lt (.symbol ⟨0⟩)) false
  , .taint ⟨0⟩
  , .assume (.compare (.symbol ⟨0⟩) .ge (.int 8999)) true ]

theorem agree_mixedRun :
    mixedRun.Perm mixedRun.reverse ∧ (conditionsOf mixedRun).length ≤ 3 ∧
      (after 3 mixedRun.reverse).feasibility ≠ .infeasible ∧
      (after 3 mixedRun.reverse).constraints = (after 3 mixedRun).constraints ∧
      (after 3 mixedRun.reverse).exceeds ⟨8998, 32⟩ (.number (.symbol ⟨0⟩)) = true ∧
      (after 3 mixedRun.reverse).exceeds ⟨8999, 32⟩ (.number (.symbol ⟨0⟩)) = false := by
  have hperm : mixedRun.Perm mixedRun.reverse := (List.reverse_perm mixedRun).symm
  have hfit : (conditionsOf mixedRun).length ≤ 3 := by decide
  have hlive : (after 3 mixedRun).feasibility ≠ .infeasible := by decide
  obtain ⟨hinfeasible, hagree⟩ := agree_of_perm hperm hfit
  obtain ⟨hrecord, hexceeds⟩ := hagree hlive
  refine ⟨hperm, hfit, mt hinfeasible.2 hlive, hrecord.symm, ?_, ?_⟩
  · -- the greatest integer left is 8999, whichever end the excluded one comes at
    rw [← hexceeds]
    decide
  · rw [← hexceeds]
    decide

/-! ## The budget -/

variable {m m' : Nat}

/-- **A greater budget contradicts no less.** -/
theorem infeasible_of_le (hle : m ≤ m') (h : (after m us).feasibility = .infeasible) :
    (after m' us).feasibility = .infeasible := by
  by_contra hlive
  have hrun := live_after_iff.1 hlive
  exact live_after_iff.2 ⟨hrun.decided, hrun.accepted.of_le hle⟩ h

/-- And it blurs no more. -/
theorem not_blurred_of_le (hle : m ≤ m') (hlive : (after m us).feasibility ≠ .infeasible)
    (hlive' : (after m' us).feasibility ≠ .infeasible) {s : Symbol}
    (h : (after m us).constraints.isBlurred s = false) :
    (after m' us).constraints.isBlurred s = false := by
  rw [Bool.eq_false_iff, ne_eq, constraints_after hlive', Constraints.isBlurred_after_iff]
  rw [Bool.eq_false_iff, ne_eq, constraints_after hlive, Constraints.isBlurred_after_iff] at h
  refine mt (Or.imp_right ?_) h
  rintro ⟨c, hc, hs⟩
  exact ⟨c, List.drop_subset_drop_left _ hle hc, hs⟩

/-- **So it answers yes no less**, as long as the path can be run: the symbols it
asks about have every condition recorded under either budget. -/
theorem exceeds_of_le (hle : m ≤ m') (hlive' : (after m' us).feasibility ≠ .infeasible)
    {θ : Threshold} {v : Value} (h : (after m us).exceeds θ v = true) :
    (after m' us).exceeds θ v = true := by
  obtain ⟨T, hw, hlive, ⟨n, rfl, hn⟩ | ⟨s, rfl, -⟩⟩ := exceeds_eq_true_iff.1 h
  · exact exceeds_int_iff.2 ⟨T, hw, hlive', hn⟩
  · obtain ⟨-, hblurred, hleft⟩ := (exceeds_iff m us s θ).1 h
    exact (exceeds_iff m' us s θ).2
      ⟨hlive', not_blurred_of_le hle hlive hlive' hblurred, hleft⟩

end PathState

end TaintReplay
