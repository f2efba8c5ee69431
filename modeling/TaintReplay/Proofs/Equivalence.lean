import TaintReplay.Proofs.Branch
/-!
# Equivalent branches — spellings that a state does not tell apart

One branch can be written in several ways: as a test that holds or as its negation that
does not, with the operands exchanged, as a bare symbol or as its test against zero, as a
test of two constants or as its outcome. A state looks at each of these shapes on its own.
What it does depends on the reading of the branch and, where that is vague, on which
symbols are mentioned (`assume_congr`); and the spellings are read alike
(`reading_negate`, `reading_swap`, `reading_symbol`, `reading_of_compare`). So the states
they lead to are equal, taint, record and verdict alike (`assume_equivalent`).
-/

namespace TaintReplay

namespace Term

variable {lhs rhs t : Term} {op : Comparison}

/-- **A test that fails is its negation that holds**, and the other way round. -/
theorem reading_negate (lhs : Term) (op : Comparison) (rhs : Term) (taken : Bool) :
    (compare lhs op rhs).reading (!taken) = (compare lhs op.negate rhs).reading taken := by
  cases taken <;> simp [reading]

/-- **The operands of a test may be exchanged.** -/
theorem reading_swap (lhs : Term) (op : Comparison) (rhs : Term) (taken : Bool) :
    (compare lhs op rhs).reading taken = (compare rhs op.swap lhs).reading taken := by
  have hop : (if taken then op.swap else op.swap.negate) =
      (if taken then op else op.negate).swap := by
    cases taken <;> simp [Comparison.negate_swap]
  rw [reading, reading, hop]
  -- whichever operand is the constant, exchanging them twice changes nothing
  cases lhs <;> cases rhs <;> simp [readComparison]

/-- **A bare symbol is its test against zero.** -/
theorem reading_symbol (s : Symbol) (taken : Bool) :
    (symbol s).reading taken = (compare (symbol s) .neq (int 0)).reading taken := rfl

/-- The outcome of a test of two constants is read as the test is. -/
theorem reading_outcome (op : Comparison) (a b : Int64) (taken : Bool) :
    (int (if op.holds a b then 1 else 0)).reading taken =
      (compare (int a) op (int b)).reading taken := by
  have hone : decide ((if op.holds a b then 1 else 0 : Int64) ≠ 0) = op.holds a b := by
    cases op.holds a b <;> decide
  simp only [reading, readComparison, hone, Reading.decided.injEq]
  cases taken <;> simp

/-- **What a comparison comes to is read as the comparison is**, where it comes to a number,
and mentions the same symbols. -/
theorem reading_of_compare (h : (Value.compare op lhs rhs).number? = some t) (taken : Bool) :
    t.reading taken = (compare lhs op rhs).reading taken ∧
      t.symbols = (compare lhs op rhs).symbols := by
  unfold Value.compare at h
  split at h
  · rename_i a b
    obtain rfl := Option.some.inj h
    exact ⟨reading_outcome op a b taken, rfl⟩
  · -- with a symbol among the operands it is kept as it is
    split at h
    · obtain rfl := Option.some.inj h
      exact ⟨rfl, rfl⟩
    · cases h

end Term

/-- Which symbols are blurred depends on which are listed, not on their order. -/
theorem Constraints.blur_congr {ss ss' : List Symbol} (k : Constraints)
    (h : ∀ s, s ∈ ss ↔ s ∈ ss') : k.blur ss = k.blur ss' := by
  have hblurred : k.blurred.insertMany ss = k.blurred.insertMany ss' := by
    refine Std.ExtTreeSet.ext_contains fun s => Bool.eq_iff_iff.2 ?_
    change (k.blur ss).isBlurred s = true ↔ (k.blur ss').isBlurred s = true
    rw [isBlurred_blur, isBlurred_blur, h]
  rw [blur, blur, hblurred]

namespace PathState

/-- **Branches that are read alike are assumed alike**, if they mention the same symbols. -/
theorem assume_congr {t t' : Term} {taken taken' : Bool} (st : PathState)
    (hread : t.reading taken = t'.reading taken')
    (hsymbols : ∀ s, s ∈ t.symbols ↔ s ∈ t'.symbols) :
    st.assume t taken = st.assume t' taken' := by
  by_cases hlive : st.feasibility = .infeasible
  · rw [assume_of_infeasible hlive, assume_of_infeasible hlive]
  · cases hr : t.reading taken with
    | decided outcome =>
      rw [assume_of_decided hlive hr, assume_of_decided hlive (hread ▸ hr)]
    | condition c =>
      rw [assume_of_condition hlive hr, assume_of_condition hlive (hread ▸ hr)]
    | vague =>
      rw [assume_of_vague hlive hr, assume_of_vague hlive (hread ▸ hr), cloud, cloud,
        Constraints.blur_congr _ hsymbols]

/-- **Equivalent branches are assumed alike**, in any state: a test that failed and its
negation that held, a test and the same with its operands exchanged, a symbol and its test
against zero, and what a comparison comes to and the comparison. -/
theorem assume_equivalent (st : PathState) (lhs rhs : Term) (op : Comparison) (s : Symbol)
    (taken : Bool) :
    st.assume (.compare lhs op rhs) false = st.assume (.compare lhs op.negate rhs) true ∧
      st.assume (.compare lhs op rhs) taken = st.assume (.compare rhs op.swap lhs) taken ∧
      st.assume (.symbol s) taken = st.assume (.compare (.symbol s) .neq (.int 0)) taken ∧
      ∀ t, (Value.compare op lhs rhs).number? = some t →
        st.assume t taken = st.assume (.compare lhs op rhs) taken := by
  refine ⟨?_, ?_, ?_, fun t ht => ?_⟩
  · exact st.assume_congr (Term.reading_negate lhs op rhs true) fun _ => Iff.rfl
  · refine st.assume_congr (Term.reading_swap lhs op rhs taken) fun r => ?_
    simp [Term.symbols, or_comm]
  · refine st.assume_congr (Term.reading_symbol s taken) fun r => ?_
    simp [Term.symbols]
  · obtain ⟨hread, hsymbols⟩ := Term.reading_of_compare ht taken
    exact st.assume_congr hread fun r => by rw [hsymbols]

/-- The outcome of a test of two constants, and the test itself, against a branch that was
not taken. -/
theorem assume_equivalent_outcome :
    (Value.compare .lt (.int 3) (.int 2)).number? = some (.int 0) ∧
      (start 2).assume (.int 0) false =
        (start 2).assume (.compare (.int 3) .lt (.int 2)) false :=
  have hzero : (Value.compare .lt (.int 3) (.int 2)).number? = some (.int 0) := by decide
  ⟨hzero, (assume_equivalent (start 2) (.int 3) (.int 2) .lt ⟨0⟩ false).2.2.2 _ hzero⟩

end PathState

end TaintReplay
