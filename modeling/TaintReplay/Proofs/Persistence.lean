import TaintReplay.Proofs.Feasibility
/-!
# Persistence — what is bounded stays bounded

Whether an operand may exceed a threshold is answered no for one of these reasons: the
path cannot be run, the operand or the threshold is no number to compare, the symbol is
blurred, or the record contradicts that the symbol is greater. The first three stay by
themselves. The last one stays because a record without a contradiction does not give up
what it contradicts when it grows (`contradicts_record`), and a record in which there is a
contradiction belongs to a path that cannot be run (`consistent_after`).

So an answer of yes is handed back from a state to the one before (`exceeds_of_update`),
and an answer of no is final (`exceeds_eq_false_of_earlier`).
-/

namespace TaintReplay

namespace Constraints

variable {k : Constraints} {c d : Condition} {s : Symbol} {e : Entry}

/-- **What is contradicted stays so**, as long as what is recorded is not contradicted
itself. -/
theorem contradicts_record (hcons : (k.record c).Consistent) (hd : k.contradicts d = true) :
    (k.record c).contradicts d = true := by
  by_contra hquiet
  -- both could be recorded then, in either order, and so could the second one alone
  have hboth : ((k.record c).record d).Consistent :=
    consistent_record_iff.2 ⟨hcons, Bool.eq_false_iff.2 hquiet⟩
  rw [record_comm] at hboth
  have hnot := (consistent_record_iff.1 hboth.of_record).2
  rw [hd] at hnot
  cases hnot

/-- So it does whatever is entered: past the budget and for want of a condition, entries
only blur. -/
theorem contradicts_enter (hcons : (k.enter e).Consistent) (hd : k.contradicts d = true) :
    (k.enter e).contradicts d = true := by
  cases e with
  | blur ss => exact hd
  | condition c =>
    rw [enter] at hcons ⊢
    rcases Nat.lt_or_ge k.count k.budget with hlt | hge
    · rw [add_of_lt hlt] at hcons ⊢
      exact contradicts_record hcons hd
    · rw [add_of_le hge]
      exact hd

/-- **A blurred symbol stays blurred.** -/
theorem isBlurred_enter (h : k.isBlurred s = true) : (k.enter e).isBlurred s = true := by
  cases e with
  | blur ss => exact isBlurred_blur.2 (Or.inl h)
  | condition c => exact isBlurred_add.2 (Or.inl h)

/-- **What is found feasible was so before the last entry.** -/
theorem check_eq_feasible_of_enter (hcons : (k.enter e).Consistent)
    (h : (k.enter e).check d = .feasible) : k.check d = .feasible := by
  obtain ⟨hquiet, hclear⟩ := check_eq_feasible_iff.1 h
  refine check_eq_feasible_iff.2 ⟨?_, ?_⟩
  · rw [Bool.eq_false_iff] at hquiet ⊢
    exact mt (contradicts_enter hcons) hquiet
  · rw [Bool.eq_false_iff] at hclear ⊢
    exact mt isBlurred_enter hclear

end Constraints

namespace PathState

variable {st : PathState} {u : Update} {θ : Threshold} {v : Value}
variable {budget : Nat} {us vs : List Update}

/-- **One update back**: what may exceed the threshold after an update may exceed it
before, if the path cannot be run with a contradiction in its record. -/
theorem exceeds_of_update
    (hcons : (st.update u).feasibility ≠ .infeasible → (st.update u).constraints.Consistent)
    (h : (st.update u).exceeds θ v = true) : st.exceeds θ v = true := by
  obtain ⟨T, hw, hlive', hyes⟩ := exceeds_eq_true_iff.1 h
  have hlive : st.feasibility ≠ .infeasible := fun hv => hlive' (update_of_infeasible hv u)
  refine exceeds_eq_true_iff.2 ⟨T, hw, hlive, hyes.imp_right ?_⟩
  rintro ⟨s, rfl, hs⟩
  refine ⟨s, rfl, ?_⟩
  -- only a symbol is looked up in the record, and there the update left at most an entry
  have hrecord := hcons hlive'
  rw [constraints_update hlive] at hs hrecord
  cases he : u.entry? with
  | none =>
    rw [he] at hs
    exact hs
  | some e =>
    rw [he] at hs hrecord
    exact Constraints.check_eq_feasible_of_enter hrecord hs

/-- **And any number of updates back.** -/
theorem exceeds_of_append (h : (after budget (us ++ vs)).exceeds θ v = true) :
    (after budget us).exceeds θ v = true := by
  induction vs using List.reverseRecOn with
  | nil => simpa using h
  | append_singleton vs u ih =>
    rw [← List.append_assoc, after_concat] at h
    refine ih (exceeds_of_update (fun hlive => ?_) h)
    rw [← after_concat] at hlive ⊢
    exact consistent_after hlive

/-- **Once bounded, always bounded.** An operand that may not exceed the threshold in a
state of a path may not exceed it in any later one, whatever is assumed and tainted in
between. -/
theorem exceeds_eq_false_of_earlier (budget : Nat) (us vs : List Update) (θ : Threshold)
    (v : Value) (h : (after budget us).exceeds θ v = false) :
    (vs.foldl update (after budget us)).exceeds θ v = false := by
  have hlater : vs.foldl update (after budget us) = after budget (us ++ vs) := by
    rw [after, after, List.foldl_append]
  rw [hlater, Bool.eq_false_iff]
  intro hyes
  rw [exceeds_of_append hyes] at h
  cases h

/-- A run that leaves a symbol one integer above the default threshold and excludes it. -/
def cappedRun : List Update :=
  [ .assume (.compare (.symbol ⟨0⟩) .le (.int 5001)) true
  , .assume (.compare (.int 5001) .eq (.symbol ⟨0⟩)) false ]

/-- What may come after it: a taint, a bound that is recorded, a vague branch on other
symbols, and for a budget of three a condition that comes too late. -/
def laterRun : List Update :=
  [ .taint ⟨0⟩
  , .assume (.compare (.symbol ⟨0⟩) .ge (.int 4000)) true
  , .assume (.compare (.symbol ⟨1⟩) .lt (.symbol ⟨2⟩)) false
  , .assume (.symbol ⟨1⟩) true ]

theorem exceeds_laterRun :
    (after 3 cappedRun).exceeds ⟨5000, 32⟩ (.number (.symbol ⟨0⟩)) = false ∧
      (laterRun.foldl update (after 3 cappedRun)).exceeds ⟨5000, 32⟩
        (.number (.symbol ⟨0⟩)) = false :=
  ⟨by decide, exceeds_eq_false_of_earlier 3 cappedRun laterRun ⟨5000, 32⟩ _ (by decide)⟩

end PathState

end TaintReplay
