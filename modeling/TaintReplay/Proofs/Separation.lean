import TaintReplay.Proofs.Comparison
import TaintReplay.Proofs.Detection
/-!
# Separation — taint on one side, constraints on the other

A replay writes its state from two sides: calls to sources taint, branches
constrain. Neither side disturbs the other. Once a path has been replayed up to
a step, its taint is what the sources in front of that step have returned, and
all else in the state is what the branches in front of it come to on their own
(`PathState.ofBranches`). What the checker asked meanwhile, at sinks that it did
not report, is in neither.
-/

namespace TaintReplay

variable {config : Config} {a : Analyzer} {ch? : Option NetworkTaint} {steps : List Step}
variable {budget k : Nat}

/-- The state that the branches of some steps make on their own. -/
def PathState.ofBranches (budget : Nat) (steps : List Step) : PathState :=
  steps.foldl (fun st x =>
    match x.event with
    | .branch t taken => st.assume t taken
    | _ => st) (.start budget)

/-- It is the state of a replay in which no checker takes part. -/
theorem PathState.ofBranches_eq (budget : Nat) (steps : List Step) :
    ofBranches budget steps = after budget (updates none steps) := by
  rw [after, updates, List.foldl_filterMap, ofBranches]
  congr 1
  funext st x
  cases x.event <;> rfl

/-- The first steps of a path. -/
def Path.upTo (p : Path) (k : Nat) : Path := { p with steps := p.steps.take k }

/-- The state in front of a step does not depend on the steps from there on. -/
theorem stateBefore_take {i : Nat} (hi : i ≤ k) :
    stateBefore ch? budget (steps.take k) i = stateBefore ch? budget steps i := by
  rw [stateBefore, List.take_take, Nat.min_eq_left hi, ← stateBefore]

/-- So what a path that ends there passes, the whole path passes. -/
theorem Passed.of_take (h : Passed ch? budget (steps.take k) (steps.take k).length) :
    Passed ch? budget steps k := by
  intro i hi x hx
  have hx' : (steps.take k)[i]? = some x := by rw [List.getElem?_take_of_lt hi, hx]
  have hstep := h i (List.getElem?_eq_some_iff.1 hx').1 x hx'
  rwa [stateBefore_take (Nat.le_of_lt hi), stateBefore_take hi] at hstep

namespace Analyzer

/-- **Taint is exact, and apart from the constraints.** If the replay of a path gets
past its first steps, the symbols then tainted are those that sources returned at
these steps, so that none is lost on the way; and the constraints, like the
verdict on the last branch, are those of the branches alone. -/
theorem separate_of_completed (h : ofConfig config = .ok a)
    (henabled : config.isEnabled NetworkTaint.name = true) (p : Path)
    (hrun : (a.replay (p.upTo k)).ending = .completed) :
    (∀ s, (a.reached p k).tainted.contains s = true ↔
        ∃ y ∈ p.steps.take k, config.networkTaint.SourceOf s y.event) ∧
      (∀ j ≤ k, ∀ s, (a.reached p j).tainted.contains s = true →
        (a.reached p k).tainted.contains s = true) ∧
      (a.reached p k).constraints =
        (PathState.ofBranches config.replay.budget (p.steps.take k)).constraints ∧
      (a.reached p k).feasibility =
        (PathState.ofBranches config.replay.budget (p.steps.take k)).feasibility := by
  obtain ⟨-, rfl, hserves⟩ := serves_of_ofConfig h
  rw [Config.checker?, if_pos henabled] at hserves
  have hcourse := Registry.course_of_serves hserves a.config.replay.budget (p.upTo k)
  obtain ⟨-, hall⟩ := hcourse.passed_of_completed hrun
  have hpassed : Passed _ a.config.replay.budget p.steps k := hall.of_take
  have htaint : ∀ j ≤ k, ∀ s, (a.reached p j).tainted.contains s = true ↔
      ∃ y ∈ p.steps.take j, a.config.networkTaint.SourceOf s y.event := by
    intro j hj s
    rw [reached_of_passed hserves (hpassed.mono hj)]
    exact PathState.tainted_after.trans taint_mem_updates
  refine ⟨htaint k (Nat.le_refl k), fun j hj s hs => ?_, ?_⟩
  · obtain ⟨y, hy, hsource⟩ := (htaint j hj s).1 hs
    exact (htaint k (Nat.le_refl k) s).2 ⟨y, List.take_subset_take_left p.steps hj hy, hsource⟩
  · rw [reached_of_passed hserves hpassed, PathState.ofBranches_eq]
    exact stateBefore_agree none _ _ _ k

/-- Symbols that were read are tainted, one behind a pointer among them; one that was only
compared with is not. -/
theorem separate_threeLengths :
    (standard.replay (threeLengths.upTo 8)).ending = .completed ∧
      (∀ s ∈ [⟨0⟩, ⟨1⟩, ⟨3⟩], (standard.reached threeLengths 8).tainted.contains s = true) ∧
      (standard.reached threeLengths 8).tainted.contains ⟨2⟩ = false ∧
      (standard.reached threeLengths 8).constraints.interval ⟨0⟩ = .atMost 4000 ∧
      (standard.reached threeLengths 8).feasibility = .feasible := by
  have hrun : (standard.replay (threeLengths.upTo 8)).ending = .completed := by decide
  obtain ⟨htaint, -, hconstraints, hfeasibility⟩ :=
    separate_of_completed ofConfig_default (by decide) threeLengths hrun
  refine ⟨hrun, fun s hs => (htaint s).2 ?_, ?_, ?_, ?_⟩
  · revert s
    decide
  · rw [Bool.eq_false_iff, ne_eq, htaint]
    decide
  · rw [hconstraints]
    decide
  · rw [hfeasibility]
    decide

end Analyzer

end TaintReplay
