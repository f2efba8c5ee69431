import TaintReplay.Proofs.Detection
/-!
# Totals — one alarm for each path with an error

An outcome accounts for its path: it has one alarm if the path ended with an error
node, and none otherwise, and the alarm stands at the step the replay ended with
(`Outcome.Accounts`). A report is nothing but such outcomes put in a row, so its
totals balance (`Report.Balances`): it has as many alarms as paths with errors, in
the order of the paths, and each is at a sink of either kind.
-/

namespace TaintReplay

variable {config : Config} {a : Analyzer} {p : Path} {o : Outcome} {os : List Outcome}
variable {ch? : Option NetworkTaint} {budget : ℕ}

/-! ## Outcomes -/

/-- **What an outcome says of its path.** An error node goes with one alarm, at the
point of the last step replayed and under the tag of its sink; any other ending goes
with none; and a path is completed when all its steps are replayed. -/
structure Outcome.Accounts (o : Outcome) (p : Path) : Prop where
  pathId : o.pathId = p.id
  errorNode : o.ending = .errorNode → ∃ alarm k x, o.alarms = [alarm] ∧ o.steps = k + 1 ∧
    p.steps[k]? = some x ∧ alarm.node.point = x.point ∧ alarm.finding.point = x.point ∧
      alarm.node.tag = alarm.finding.sink.tag
  quiet : o.ending ≠ .errorNode → o.alarms = []
  completed : o.ending = .completed → o.steps = p.steps.length

theorem Course.accounts (h : Course ch? budget p o) : o.Accounts p := by
  cases h with
  | completed =>
    exact ⟨rfl, nofun, fun _ => rfl, fun _ => rfl⟩
  | infeasible =>
    exact ⟨rfl, nofun, fun _ => rfl, nofun⟩
  | errorNode hx =>
    exact ⟨rfl, fun _ => ⟨_, _, _, rfl, rfl, hx, rfl, rfl, rfl⟩, fun hend => absurd rfl hend, nofun⟩

theorem Outcome.Accounts.length_alarms (h : o.Accounts p) :
    o.alarms.length = if o.ending = .errorNode then 1 else 0 := by
  split
  · obtain ⟨alarm, -, -, halarms, -⟩ := h.errorNode ‹_›
    rw [halarms]
    rfl
  · rw [h.quiet ‹_›]
    rfl

/-! ## Reports -/

namespace Report

theorem ofOutcomes_cons_alarms (o : Outcome) (os : List Outcome) :
    (ofOutcomes (o :: os)).alarms = o.alarms.map (PathAlarm.mk o.pathId) ++ (ofOutcomes os).alarms := by
  simp only [ofOutcomes, List.flatMap_cons]

/-- **There are as many alarms as paths with errors.** -/
theorem length_alarms_ofOutcomes
    (h : ∀ o ∈ os, o.alarms.length = if o.ending = .errorNode then 1 else 0) :
    (ofOutcomes os).alarms.length = (ofOutcomes os).withErrors := by
  induction os with
  | nil => rfl
  | cons o os ih =>
    obtain ⟨ho, hos⟩ := List.forall_mem_cons.1 h
    rw [ofOutcomes_cons_alarms, List.length_append, List.length_map, ho, ih hos]
    simp only [ofOutcomes, List.countP_cons, decide_eq_true_eq]
    exact Nat.add_comm _ _

/-- Every alarm is at a sink of one of the two kinds. -/
theorem countOf_add_countOf (r : Report) :
    r.countOf .copySize + r.countOf .arrayIndex = r.alarms.length := by
  have hother : ∀ s : Sink, s = .arrayIndex ↔ s ≠ .copySize := by
    intro s
    cases s <;> simp
  rw [List.length_eq_countP_add_countP fun alarm : PathAlarm =>
    decide (alarm.alarm.finding.sink = .copySize)]
  simp [countOf, hother]

/-- No path is counted twice. -/
theorem infeasible_add_withErrors_le (os : List Outcome) :
    (ofOutcomes os).infeasible + (ofOutcomes os).withErrors ≤ (ofOutcomes os).explored := by
  induction os with
  | nil => exact Nat.le_refl 0
  | cons o os ih =>
    simp only [ofOutcomes, List.countP_cons, List.length_cons] at ih ⊢
    cases o.ending <;> simp <;> omega

/-- **The alarms come in the order of the paths**, none of which has two. -/
theorem pathIds_sublist (h : ∀ o ∈ os, o.alarms.length ≤ 1) :
    ((ofOutcomes os).alarms.map PathAlarm.pathId).Sublist (os.map Outcome.pathId) := by
  induction os with
  | nil => exact List.Sublist.slnil
  | cons o os ih =>
    obtain ⟨ho, hos⟩ := List.forall_mem_cons.1 h
    rw [ofOutcomes_cons_alarms, List.map_append, List.map_cons, List.map_map]
    match halarms : o.alarms with
    | [] => exact (ih hos).cons o.pathId
    | [_] => exact (ih hos).cons_cons o.pathId
    | _ :: _ :: _ => simp [halarms] at ho

end Report

/-! ## Traces whose paths can be told apart -/

theorem firstRepeated_eq_none_iff {α : Type} [BEq α] [LawfulBEq α] {seen xs : List α} :
    firstRepeated seen xs = none ↔ xs.Nodup ∧ ∀ x ∈ xs, x ∉ seen := by
  induction xs generalizing seen with
  | nil => simp [firstRepeated]
  | cons x xs ih =>
    rw [firstRepeated, List.nodup_cons, List.forall_mem_cons]
    by_cases hx : x ∈ seen
    · simp [hx]
    · simp only [List.contains_iff_mem, hx, if_false, ih, List.mem_cons, not_or, not_false_eq_true,
        true_and]
      constructor
      · rintro ⟨hnodup, hnew⟩
        exact ⟨⟨fun hmem => (hnew x hmem).1 rfl, hnodup⟩, fun y hy => (hnew y hy).2⟩
      · rintro ⟨⟨hnot, hnodup⟩, hnew⟩
        exact ⟨hnodup, fun y hy => ⟨fun heq => hnot (heq ▸ hy), hnew y hy⟩⟩

/-- A trace is accepted if no two paths have one identifier. -/
theorem Trace.distinct_eq_ok_iff {t : Trace} :
    t.distinct = .ok t ↔ (t.paths.map Path.id).Nodup := by
  have hnodup : t.repeated? = none ↔ (t.paths.map Path.id).Nodup := by
    rw [repeated?, firstRepeated_eq_none_iff]
    simp
  rw [← hnodup, distinct]
  cases t.repeated? <;> simp

/-! ## Whole traces -/

/-- **A report whose totals balance**: each path with an error has its alarm, each
alarm its kind of sink, and each path at most one of the endings counted. The alarms
are in the order of the paths, so that they tell them apart if the trace does. -/
structure Report.Balances (r : Report) (t : Trace) : Prop where
  errors : r.alarms.length = r.withErrors
  sinks : r.withErrors = r.countOf .copySize + r.countOf .arrayIndex
  explored : r.explored = t.paths.length
  endings : r.infeasible + r.withErrors ≤ r.explored
  ordered : (r.alarms.map PathAlarm.pathId).Sublist (t.paths.map Path.id)
  apart : t.distinct = .ok t → (r.alarms.map PathAlarm.pathId).Nodup

/-- The report on outcomes that account for the paths of a trace. -/
theorem Report.balances_ofOutcomes {f : Path → Outcome} (h : ∀ p, (f p).Accounts p) (t : Trace) :
    (ofOutcomes (t.paths.map f)).Balances t := by
  have hone : ∀ o ∈ t.paths.map f, o.alarms.length = if o.ending = .errorNode then 1 else 0 := by
    intro o ho
    obtain ⟨p, -, rfl⟩ := List.mem_map.1 ho
    exact (h p).length_alarms
  have hids : (t.paths.map f).map Outcome.pathId = t.paths.map Path.id := by
    rw [List.map_map]
    exact List.map_congr_left fun p _ => (h p).pathId
  have herrors := length_alarms_ofOutcomes hone
  have hordered : ((ofOutcomes (t.paths.map f)).alarms.map PathAlarm.pathId).Sublist
      (t.paths.map Path.id) := by
    rw [← hids]
    refine pathIds_sublist fun o ho => ?_
    rw [hone o ho]
    split <;> omega
  exact ⟨herrors, by rw [countOf_add_countOf, herrors], List.length_map f,
    infeasible_add_withErrors_le _, hordered,
    fun hdistinct => hordered.nodup (Trace.distinct_eq_ok_iff.1 hdistinct)⟩

namespace Analyzer

/-- **Every path with an error is reported once, and the totals balance.** -/
theorem balances_of_ofConfig (h : ofConfig config = .ok a) (t : Trace) :
    (∀ p ∈ t.paths, (a.replay p).Accounts p) ∧ (a.analyze t).Balances t := by
  obtain ⟨-, -, hserves⟩ := serves_of_ofConfig h
  have haccounts : ∀ p, (a.replay p).Accounts p := fun p =>
    (Registry.course_of_serves hserves a.config.replay.budget p).accounts
  exact ⟨fun p _ => haccounts p, Report.balances_ofOutcomes haccounts t⟩

/-- A trace with a path for each ending, and one for each kind of sink. -/
def fourPaths : Trace where
  paths :=
    [ threeLengths
    , { id := 1
        steps :=
          [ ⟨⟨"receive", 1, 1⟩, .branch (.symbol ⟨0⟩) true⟩
          , ⟨⟨"receive", 2, 1⟩, .branch (.compare (.int 0) .eq (.symbol ⟨0⟩)) true⟩ ] }
    , checkedTooLate
    , { threeLengths with id := 2, steps := threeLengths.steps.take 8 } ]

theorem balances_fourPaths :
    fourPaths.distinct = .ok fourPaths ∧ ofConfig {} = .ok standard ∧
      (∀ p ∈ fourPaths.paths, (standard.replay p).Accounts p) ∧
      (standard.analyze fourPaths).explored = 4 ∧ (standard.analyze fourPaths).infeasible = 1 ∧
      (standard.analyze fourPaths).withErrors = 2 ∧
      (standard.analyze fourPaths).alarms.length = 2 ∧
      (standard.analyze fourPaths).countOf .copySize = 1 ∧
      (standard.analyze fourPaths).countOf .arrayIndex = 1 ∧
      (standard.analyze fourPaths).Balances fourPaths := by
  have herrors : (standard.analyze fourPaths).withErrors = 2 := by decide
  have hcopies : (standard.analyze fourPaths).countOf .copySize = 1 := by decide
  obtain ⟨haccounts, hbalances⟩ := balances_of_ofConfig ofConfig_default fourPaths
  have hsinks := hbalances.sinks
  exact ⟨by decide, ofConfig_default, haccounts, hbalances.explored, by decide, herrors,
    hbalances.errors.trans herrors, hcopies, by omega, hbalances⟩

end Analyzer

end TaintReplay
