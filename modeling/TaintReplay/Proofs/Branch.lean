import TaintReplay.State.Path
import TaintReplay.Proofs.Constraints
/-!
# Branches — what a state reads off one

A branch is a term and the way it went. Of the many shapes a term may have, a
state knows three readings: the branch is decided by constants, it is a
condition on one symbol, or it is vague. `Term.reading` computes the reading,
`isTrue_iff_of_decided` and `isTrue_iff_of_condition` say that it means what
the branch means, and the three equations of `PathState.assume` say what the
state does with it. Every later fact on assumptions is proved over the three
readings and never over the shapes.
-/

namespace TaintReplay

/-- What a branch says of a path. -/
inductive Reading where
  /-- Constants decide it. -/
  | decided (outcome : Bool)
  /-- It is a condition on a symbol. -/
  | condition (c : Condition)
  /-- Nothing that can be recorded. -/
  | vague

namespace Term

variable {t : Term} {taken outcome : Bool} {c : Condition} {s : Symbol} {σ : Valuation}

/-- The reading of a comparison known to hold. -/
def readComparison (lhs : Term) (op : Comparison) (rhs : Term) : Reading :=
  match lhs, rhs with
  | symbol s, int v => .condition ⟨s, op, v⟩
  | int v, symbol s => .condition ⟨s, op.swap, v⟩
  | int a, int b => .decided (op.holds a b)
  | _, _ => .vague

/-- The reading of a branch on a term. -/
def reading (t : Term) (taken : Bool) : Reading :=
  match t with
  | int v => .decided (decide (v ≠ 0) == taken)
  | symbol s => .condition ⟨s, if taken then .neq else .eq, 0⟩
  | compare lhs op rhs => readComparison lhs (if taken then op else op.negate) rhs

/-- The symbol a term tests against a constant: itself, or the symbol it
compares with a constant on either side. -/
def subject? : Term → Option Symbol
  | symbol s => some s
  | compare (symbol s) _ (int _) => some s
  | compare (int _) _ (symbol s) => some s
  | _ => none

/-- The operator that is assumed holds exactly if the branch went as given. -/
theorem holds_assumed {op : Comparison} {a b : Int64} :
    (if taken then op else op.negate).holds a b = true ↔ op.holds a b = taken := by
  cases taken <;> simp

/-- **A decided branch went as given, or cannot have.** -/
theorem isTrue_iff_of_decided (h : t.reading taken = .decided outcome) (σ : Valuation) :
    t.isTrue σ = taken ↔ outcome = true := by
  cases t with
  | int v =>
    cases h
    rw [beq_iff_eq]
    rfl
  | symbol s => cases h
  | compare lhs op rhs =>
    simp only [reading, readComparison] at h
    split at h <;> cases h
    rw [isTrue_compare, holds_assumed]
    rfl

theorem isTrue_iff : t.isTrue σ = true ↔ t.eval σ ≠ 0 := decide_eq_true_iff

/-- **A branch that reads as a condition went as given exactly where the
condition holds.** -/
theorem isTrue_iff_of_condition (h : t.reading taken = .condition c) (σ : Valuation) :
    t.isTrue σ = taken ↔ c.holds (σ c.symbol) = true := by
  cases t with
  | int v => cases h
  | symbol s =>
    cases h
    cases taken with
    | false =>
      rw [← Bool.not_eq_true, isTrue_iff, not_not]
      simp [eval, Condition.holds, Comparison.holds]
    | true =>
      rw [isTrue_iff]
      simp [eval, Condition.holds, Comparison.holds]
  | compare lhs op rhs =>
    simp only [reading, readComparison] at h
    split at h <;> cases h <;> rw [isTrue_compare, Condition.holds]
    · exact holds_assumed.symm
    · rw [Comparison.holds_swap]
      exact holds_assumed.symm

/-- Constants mention no symbol. -/
theorem symbols_of_decided (h : t.reading taken = .decided outcome) : t.symbols = [] := by
  cases t with
  | int v => rfl
  | symbol s => cases h
  | compare lhs op rhs =>
    simp only [reading, readComparison] at h
    split at h <;> cases h
    rfl

/-- A condition is on the only symbol its branch mentions. -/
theorem symbols_of_condition (h : t.reading taken = .condition c) : t.symbols = [c.symbol] := by
  cases t with
  | int v => cases h
  | symbol s =>
    cases h
    rfl
  | compare lhs op rhs =>
    simp only [reading, readComparison] at h
    split at h <;> cases h <;> rfl

/-- **The terms that read as conditions are those with a subject**, whichever
way the branch went. -/
theorem subject?_eq_some_iff (taken : Bool) :
    t.subject? = some s ↔ ∃ c, t.reading taken = .condition c ∧ c.symbol = s := by
  cases t with
  | int v => simp [subject?, reading]
  | symbol r => simp [subject?, reading]
  | compare lhs op rhs => cases lhs <;> cases rhs <;> simp [subject?, reading, readComparison]

end Term

namespace PathState

variable {st : PathState} {t : Term} {taken outcome : Bool} {c : Condition}

/-- The state after a branch that says something of its symbols which cannot
be recorded. -/
def cloud (st : PathState) (symbols : List Symbol) : PathState :=
  { st with constraints := st.constraints.blur symbols, feasibility := .unknown }

/-- **Nothing is assumed on a path that cannot be run.** -/
theorem assume_of_infeasible (h : st.feasibility = .infeasible) : st.assume t taken = st :=
  if_pos h

theorem assume_of_decided (hlive : st.feasibility ≠ .infeasible)
    (h : t.reading taken = .decided outcome) : st.assume t taken = st.decided outcome := by
  unfold assume
  rw [if_neg hlive]
  cases t with
  | int v =>
    cases h
    rfl
  | symbol s => cases h
  | compare lhs op rhs =>
    simp only [Term.reading, Term.readComparison] at h
    split at h <;> cases h
    rfl

theorem assume_of_condition (hlive : st.feasibility ≠ .infeasible)
    (h : t.reading taken = .condition c) : st.assume t taken = st.assumeCondition c := by
  unfold assume
  rw [if_neg hlive]
  cases t with
  | int v => cases h
  | symbol s =>
    cases h
    rfl
  | compare lhs op rhs =>
    simp only [Term.reading, Term.readComparison] at h
    split at h <;> cases h <;> rfl

theorem assume_of_vague (hlive : st.feasibility ≠ .infeasible)
    (h : t.reading taken = .vague) : st.assume t taken = st.cloud t.symbols := by
  unfold assume
  rw [if_neg hlive]
  cases t with
  | int v => cases h
  | symbol s => cases h
  | compare lhs op rhs => cases lhs <;> cases rhs <;> cases h <;> rfl

end PathState

end TaintReplay
