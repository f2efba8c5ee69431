import TaintReplay.Value
import TaintReplay.State.Constraints

/-!
# Path states — taint, constraints, and whether the path can be run

A state is a value: marking a symbol or assuming the outcome of a branch
gives another state. Taint and constraints never look at each other.

Of a branch, what can be recorded is a symbol against a constant, the
constant on either side; a bare symbol counts as its test against zero, and
two constants decide the branch at once. Any other condition blurs the
symbols it mentions. Nothing is assumed on a path that cannot be run.
-/

namespace TaintReplay

/-- What is known at a point of a path. -/
structure PathState where
  tainted : Std.ExtTreeSet Symbol := ∅
  constraints : Constraints := {}
  /-- The verdict on the last assumption. -/
  feasibility : Verdict := .feasible

namespace PathState

/-- The state at the start of a path. -/
def start (budget : Nat) : PathState := { constraints := .withBudget budget }

/-- Whether a value mentions a tainted symbol. -/
def isTainted (st : PathState) (v : Value) : Bool :=
  v.symbols.any st.tainted.contains

/-- The state with the symbol tainted. -/
def taint (st : PathState) (s : Symbol) : PathState :=
  { st with tainted := st.tainted.insert s }

/-- The state with the symbol marked: tainted, and left as it is if it was
tainted before. -/
def mark (st : PathState) (s : Symbol) : PathState :=
  if st.isTainted (.number (.symbol s)) then st else st.taint s

theorem isTainted_symbol (st : PathState) (s : Symbol) :
    st.isTainted (.number (.symbol s)) = st.tainted.contains s := by
  simp [isTainted, Value.symbols, Term.symbols]

/-- A symbol cannot be tainted twice, so looking first makes no difference. -/
theorem mark_eq_taint (st : PathState) (s : Symbol) : st.mark s = st.taint s := by
  rw [mark, isTainted_symbol]
  split
  · rename_i hs
    have hinsert : st.tainted.insert s = st.tainted := by
      refine Std.ExtTreeSet.ext_contains fun r => ?_
      rw [Std.ExtTreeSet.contains_insert, Bool.or_eq_right_iff_imp, beq_iff_eq]
      intro hcmp
      rwa [← Std.LawfulEqCmp.eq_of_compare hcmp]
    rw [taint, hinsert]
  · rfl

/-- The state with a condition recorded, and the verdict on it. -/
def assumeCondition (st : PathState) (c : Condition) : PathState :=
  { st with
    constraints := st.constraints.add c
    feasibility := st.constraints.check c }

/-- The state with a branch decided by constants. -/
def decided (st : PathState) (outcome : Bool) : PathState :=
  { st with feasibility := if outcome then .feasible else .infeasible }

/-- The state after a comparison is known to hold. -/
def assumeComparison (st : PathState) (lhs : Term) (op : Comparison) (rhs : Term) : PathState :=
  match lhs, rhs with
  | .symbol s, .int v => st.assumeCondition ⟨s, op, v⟩
  | .int v, .symbol s => st.assumeCondition ⟨s, op.swap, v⟩
  | .int a, .int b => st.decided (op.holds a b)
  | _, _ =>
    { st with
      constraints := st.constraints.blur (lhs.symbols ++ rhs.symbols)
      feasibility := .unknown }

/-- The state after a branch on the term went the given way. -/
def assume (st : PathState) (t : Term) (taken : Bool) : PathState :=
  if st.feasibility = .infeasible then st
  else
    match t with
    | .int v => st.decided (decide (v ≠ 0) == taken)
    | .symbol s => st.assumeCondition ⟨s, if taken then .neq else .eq, 0⟩
    | .compare lhs op rhs => st.assumeComparison lhs (if taken then op else op.negate) rhs

end PathState

end TaintReplay
