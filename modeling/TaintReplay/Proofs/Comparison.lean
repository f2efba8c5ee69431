import TaintReplay.Proofs.Sites
import TaintReplay.Proofs.Ends
/-!
# Comparison — one path under two settings

A replay with a greater budget, or with a checker that listens to more, makes the
decisions of the other one no later. Both comparisons rest on the same fact: what
the replay of the second setting passes is passed by the first. For a greater
budget that is because its states contradict no less and blur no more
(`Passed.of_budget_le`); for a checker that listens to more, because the states
differ in their taint only (`stateBefore_agree`) and each alarm of the first
is one of the second (`Tightens.quiet`). Of one setting the same fact says that a
path has one course (`Course.unique`).
-/

namespace TaintReplay

variable {ch? : Option NetworkTaint} {steps : List Step} {p : Path} {e : Event}
variable {budget m m' k : Nat}

/-- The registry with the checker of a configuration and no other. -/
def NetworkTaintConfig.registry (c : NetworkTaintConfig) : Registry Context :=
  (c.checker.register? .empty).getD .empty

theorem NetworkTaintConfig.register?_empty (c : NetworkTaintConfig) :
    c.checker.register? .empty = some c.registry := rfl

theorem NetworkTaintConfig.course (c : NetworkTaintConfig) (budget : Nat) (p : Path) :
    Course (some c.checker) budget p (c.registry.replay budget p) :=
  Registry.course_of_serves (NetworkTaint.serves_of_register? c.register?_empty) budget p

/-! ## Where two replays stop -/

namespace Course

variable {o o' : Outcome} {ch?' : Option NetworkTaint}

/-- A replay that is completed passes all steps. -/
theorem passed_of_completed (h : Course ch? budget p o) (hend : o.ending = .completed) :
    o.steps = p.steps.length ∧ Passed ch? budget p.steps p.steps.length := by
  cases h with
  | completed hpassed => exact ⟨rfl, hpassed⟩
  | infeasible => cases hend
  | errorNode => cases hend

/-- Any other stops behind the last step that it passes. -/
theorem exists_stop (h : Course ch? budget p o) (hend : o.ending ≠ .completed) :
    ∃ k < p.steps.length, o.steps = k + 1 ∧ Passed ch? budget p.steps k ∧
      ∀ j, Passed ch? budget p.steps j → j ≤ k := by
  cases h with
  | completed => exact absurd rfl hend
  | infeasible hx hpassed _ hended =>
    exact ⟨_, (List.getElem?_eq_some_iff.1 hx).1, rfl, hpassed,
      fun j hj => hj.le_of_ended hx hended⟩
  | errorNode hx hpassed halarm =>
    exact ⟨_, (List.getElem?_eq_some_iff.1 hx).1, rfl, hpassed,
      fun j hj => hj.le_of_alarm hx halarm⟩

/-- **A replay that passes no more stops no later**, and is completed only if the
other one is. -/
theorem steps_le (h : Course ch? m p o) (h' : Course ch?' m' p o')
    (hpass : ∀ k, Passed ch?' m' p.steps k → Passed ch? m p.steps k) :
    o'.steps ≤ o.steps ∧ (o'.ending = .completed → o.ending = .completed) := by
  by_cases hend' : o'.ending = .completed
  · obtain ⟨hsteps', hpassed'⟩ := h'.passed_of_completed hend'
    have hend : o.ending = .completed := by
      by_contra hend
      obtain ⟨k, hk, -, -, hlast⟩ := h.exists_stop hend
      exact absurd (hlast _ (hpass _ hpassed')) (Nat.not_le.2 hk)
    rw [hsteps', (h.passed_of_completed hend).1]
    exact ⟨Nat.le_refl _, fun _ => hend⟩
  · refine ⟨?_, fun hcompleted => absurd hcompleted hend'⟩
    obtain ⟨k', hk', hsteps', hpassed', -⟩ := h'.exists_stop hend'
    by_cases hend : o.ending = .completed
    · rw [(h.passed_of_completed hend).1]
      omega
    · obtain ⟨k, -, hsteps, -, hlast⟩ := h.exists_stop hend
      have hle := hlast _ (hpass _ hpassed')
      omega

end Course

/-! ## A greater budget -/

/-- A path that can be run behind a step can be run in front of it. -/
theorem live_stateBefore_of_succ {x : Step} (hx : steps[k]? = some x)
    (h : (stateBefore ch? budget steps (k + 1)).feasibility ≠ .infeasible) :
    (stateBefore ch? budget steps k).feasibility ≠ .infeasible := by
  intro hinf
  rw [stateBefore_succ hx, PathState.behind] at h
  cases hu : x.event.update? ch? with
  | none => exact h (by rwa [hu])
  | some u => exact h (by rw [hu]; exact PathState.update_of_infeasible hinf u)

/-- An alarm is raised under a greater budget too, if the path can be run there. -/
theorem Event.alarm?_of_budget_le (hle : m ≤ m') {us : List Update} {sink : Sink}
    (hlive : (PathState.after m' us).feasibility ≠ .infeasible)
    (h : e.alarm? ch? (.after m us) = some sink) : e.alarm? ch? (.after m' us) = some sink := by
  obtain ⟨ch, s, rfl, huse, htaint, hexceeds⟩ := alarm?_eq_some_iff.1 h
  refine alarm?_eq_some_iff.2 ⟨ch, s, rfl, huse, ?_, PathState.exceeds_of_le hle hlive hexceeds⟩
  exact PathState.tainted_after.2 (PathState.tainted_after.1 htaint)

/-- **What is passed under a greater budget is passed under a smaller one.** -/
theorem Passed.of_budget_le (hle : m ≤ m') (h : Passed ch? m' steps k) :
    Passed ch? m steps k := by
  intro i hi x hx
  obtain ⟨hquiet, hlive⟩ := h i hi x hx
  refine ⟨?_, mt (PathState.infeasible_of_le hle) hlive⟩
  cases halarm : x.event.alarm? ch? (stateBefore ch? m steps i) with
  | none => rfl
  | some sink =>
    have halarm' := Event.alarm?_of_budget_le hle (live_stateBefore_of_succ hx hlive) halarm
    rw [stateBefore, halarm'] at hquiet
    cases hquiet

/-- **No decision is lost by raising the budget.** If a path is not completed under
a budget it is not completed under a greater one, and it stops no later there. Of
states: what is infeasible stays so, and as long as the path can be run, the
operands that may exceed a threshold still may. -/
theorem NetworkTaintConfig.decisions_of_budget_le (c : NetworkTaintConfig) (hle : m ≤ m') :
    (∀ p, ((c.registry.replay m p).ending ≠ .completed →
          (c.registry.replay m' p).ending ≠ .completed) ∧
        (c.registry.replay m' p).steps ≤ (c.registry.replay m p).steps) ∧
      ∀ us, ((PathState.after m us).feasibility = .infeasible →
          (PathState.after m' us).feasibility = .infeasible) ∧
        ((PathState.after m' us).feasibility ≠ .infeasible → ∀ θ v,
          (PathState.after m us).exceeds θ v = true →
            (PathState.after m' us).exceeds θ v = true) := by
  constructor
  · intro p
    obtain ⟨hsteps, hend⟩ := (c.course m p).steps_le (c.course m' p)
      fun k => Passed.of_budget_le hle
    exact ⟨mt hend, hsteps⟩
  · intro us
    exact ⟨PathState.infeasible_of_le hle, fun hlive θ v => PathState.exceeds_of_le hle hlive⟩

/-- A path with a contradiction on either of two symbols. With a budget of one only the
second is seen, which comes a step later. -/
def twoContradictions : Path where
  id := 0
  steps :=
    [ ⟨⟨"parse", 1, 1⟩, .branch (.compare (.symbol ⟨1⟩) .gt (.int 5)) true⟩
    , ⟨⟨"parse", 2, 1⟩, .branch (.compare (.symbol ⟨0⟩) .gt (.int 7)) true⟩
    , ⟨⟨"parse", 3, 1⟩, .branch (.compare (.symbol ⟨0⟩) .lt (.int 3)) true⟩
    , ⟨⟨"parse", 4, 1⟩, .branch (.compare (.symbol ⟨1⟩) .lt (.int 2)) true⟩ ]

/-- The budget of the default configuration against the least there is. In front of the
contradictions the first symbol may exceed the threshold under both. -/
theorem NetworkTaintConfig.decisions_default :
    (({} : NetworkTaintConfig).registry.replay 1 twoContradictions).ending = .infeasible ∧
      (({} : NetworkTaintConfig).registry.replay 1 twoContradictions).steps = 4 ∧
      (({} : NetworkTaintConfig).registry.replay 64 twoContradictions).ending ≠ .completed ∧
      (({} : NetworkTaintConfig).registry.replay 64 twoContradictions).steps ≤ 4 ∧
      (stateBefore none 1 twoContradictions.steps 2).exceeds {} (.number (.symbol ⟨1⟩)) = true ∧
      (stateBefore none 64 twoContradictions.steps 2).exceeds {} (.number (.symbol ⟨1⟩)) = true := by
  have hending : (({} : NetworkTaintConfig).registry.replay 1 twoContradictions).ending =
      .infeasible := by decide
  have hsteps : (({} : NetworkTaintConfig).registry.replay 1 twoContradictions).steps = 4 := by
    decide
  have hexceeds : (stateBefore none 1 twoContradictions.steps 2).exceeds {}
      (.number (.symbol ⟨1⟩)) = true := by decide
  have hlive : (stateBefore none 64 twoContradictions.steps 2).feasibility ≠ .infeasible := by
    decide
  obtain ⟨hpaths, hstates⟩ := decisions_of_budget_le {} (show 1 ≤ 64 by decide)
  obtain ⟨hend, hle⟩ := hpaths twoContradictions
  refine ⟨hending, hsteps, hend (by simp [hending]), hsteps ▸ hle, hexceeds, ?_⟩
  exact (hstates (updates none (twoContradictions.steps.take 2))).2 hlive {} _ hexceeds

/-! ## A checker that listens to more -/

/-- What the branches assume is the same for every checker. -/
theorem updates_filter_isAssume (ch? ch?' : Option NetworkTaint) (steps : List Step) :
    (updates ch? steps).filter Update.isAssume = (updates ch?' steps).filter Update.isAssume := by
  have hmark : ∀ o : Option Symbol, (o.map Update.taint).filter Update.isAssume = none := by
    intro o
    cases o <;> rfl
  rw [updates, updates, List.filter_filterMap, List.filter_filterMap]
  congr 1
  funext x
  cases x.event with
  | call call => simp only [Event.update?, hmark]
  | _ => rfl

/-- **The checker makes a difference to the taint only.** -/
theorem stateBefore_agree (ch? ch?' : Option NetworkTaint) (budget : Nat) (steps : List Step)
    (i : Nat) :
    (stateBefore ch?' budget steps i).constraints = (stateBefore ch? budget steps i).constraints ∧
      (stateBefore ch?' budget steps i).feasibility =
        (stateBefore ch? budget steps i).feasibility := by
  have h := PathState.after_eq_filter budget (updates ch? (steps.take i))
  have h' := PathState.after_eq_filter budget (updates ch?' (steps.take i))
  rw [updates_filter_isAssume ch?' ch?] at h'
  rw [stateBefore, stateBefore, h, h']
  exact ⟨rfl, rfl⟩

/-- An event that raises an alarm for one checker does not end a path for any. -/
theorem PathState.live_behind_of_alarm {ch?' : Option NetworkTaint} {st st' : PathState}
    {sink : Sink} (hlive : st.feasibility ≠ .infeasible) (h : e.alarm? ch?' st' = some sink) :
    (st.behind ch? e).feasibility ≠ .infeasible := by
  cases e with
  | call call => rwa [behind_call_feasibility]
  | access a => exact hlive
  | branch t taken =>
    obtain ⟨ch, s, -, huse, -⟩ := Event.alarm?_eq_some_iff.1 h
    cases huse

/-- So no step is the last one both of a path found infeasible and of one that
meets an error node. -/
theorem Course.steps_ne {ch?' : Option NetworkTaint} {o o' : Outcome}
    (h : Course ch? budget p o) (h' : Course ch?' m' p o') (hend : o.ending = .infeasible)
    (hend' : o'.ending = .errorNode) : o'.steps ≠ o.steps := by
  intro hsteps
  cases h with
  | completed => cases hend
  | errorNode => cases hend
  | infeasible hx hpassed _ hended =>
    cases h' with
    | completed => cases hend'
    | infeasible => cases hend'
    | errorNode hx' _ halarm' =>
      cases Nat.succ.inj hsteps
      cases hx.symm.trans hx'
      rw [stateBefore_succ hx] at hended
      exact PathState.live_behind_of_alarm hpassed.live halarm' hended

/-- **A path has one course.** Each of two stops no later than the other. -/
theorem Course.unique {o o' : Outcome} (h : Course ch? budget p o)
    (h' : Course ch? budget p o') : o = o' := by
  obtain ⟨hle', hcompleted⟩ := h.steps_le h' fun _ => id
  obtain ⟨hle, hcompleted'⟩ := h'.steps_le h fun _ => id
  have hsteps : o.steps = o'.steps := Nat.le_antisymm hle hle'
  have hne := h.steps_ne h'
  have hne' := h'.steps_ne h
  cases h with
  | completed =>
    cases h' with
    | completed => rfl
    | infeasible => cases hcompleted' rfl
    | errorNode => cases hcompleted' rfl
  | infeasible =>
    cases h' with
    | completed => cases hcompleted rfl
    | infeasible =>
      cases hsteps
      rfl
    | errorNode => exact absurd hsteps.symm (hne rfl rfl)
  | errorNode hx _ halarm =>
    cases h' with
    | completed => cases hcompleted rfl
    | infeasible => exact absurd hsteps (hne' rfl rfl)
    | errorNode hx' _ halarm' =>
      -- the same step, which raises one alarm
      cases hsteps
      cases hx.symm.trans hx'
      cases halarm.symm.trans halarm'
      rfl
/-- So whatever is a course of the path is its replay. -/
theorem Registry.replay_eq_of_course {r : Registry Context} (hr : r.Serves ch?) {o : Outcome}
    (h : Course ch? budget p o) : r.replay budget p = o :=
  (course_of_serves hr budget p).unique h

namespace NetworkTaintConfig

/-- **A configuration that listens to more**: to the sources and the sinks of the
other one at least, and from the same threshold on or a lower one. The widths
may differ. -/
structure Tightens (c' c : NetworkTaintConfig) : Prop where
  sources : c.sources ⊆ c'.sources
  copySinks : c.copySinks ⊆ c'.copySinks
  threshold : c'.threshold ≤ c.threshold

namespace Tightens

variable {c c' : NetworkTaintConfig} {o o' : Outcome} {s : Symbol} {i : Nat}

theorem sourceOf (ht : c'.Tightens c) (h : c.SourceOf s e) : c'.SourceOf s e := by
  cases h with
  | call hcallee hname hret => exact .call hcallee (ht.sources hname) hret

theorem sinkOf (ht : c'.Tightens c) (h : c.SinkOf s e) : c'.SinkOf s e := by
  cases h with
  | copy hcallee hname hsize => exact .copy hcallee (ht.copySinks hname) hsize
  | index hindex => exact .index hindex

/-- What is tainted for the one is tainted for the other. -/
theorem tainted (ht : c'.Tightens c)
    (h : (stateBefore (some c.checker) budget steps i).tainted.contains s = true) :
    (stateBefore (some c'.checker) budget steps i).tainted.contains s = true := by
  obtain ⟨y, hy, hsource⟩ := taint_mem_updates.1 (PathState.tainted_after.1 h)
  exact PathState.tainted_after.2 (taint_mem_updates.2 ⟨y, hy, ht.sourceOf hsource⟩)

/-- A symbol that may exceed the threshold may exceed a lower one. -/
theorem exceeds (ht : c'.Tightens c) (hvalid' : c'.validate = .ok ()) {st : PathState}
    (h : st.exceeds c.checker.threshold (.number (.symbol s)) = true) :
    st.exceeds c'.checker.threshold (.number (.symbol s)) = true := by
  obtain ⟨T, hword, hlive, hcheck⟩ := PathState.exceeds_symbol_iff.1 h
  obtain ⟨T', hword'⟩ := ofWord_of_validate hvalid'
  have hle : T' ≤ T := by
    have hT := Value.toInt_of_ofWord_int hword
    have hT' := Value.toInt_of_ofWord_int hword'
    have hnat : c'.threshold.toNat ≤ c.threshold.toNat := UInt64.le_iff_toNat_le.1 ht.threshold
    simp only [checker] at hT
    rw [Int64.le_iff_toInt_le]
    omega
  obtain ⟨hopen, hblurred⟩ := Constraints.check_eq_feasible_iff.1 hcheck
  exact PathState.exceeds_symbol_iff.2 ⟨T', hword', hlive,
    Constraints.check_eq_feasible_iff.2 ⟨Constraints.contradicts_gt_of_le hle hopen, hblurred⟩⟩

/-- **Where the tighter one is silent, so is the other.** -/
theorem quiet (ht : c'.Tightens c) (hvalid' : c'.validate = .ok ())
    (h : e.alarm? (some c'.checker) (stateBefore (some c'.checker) budget steps i) = none) :
    e.alarm? (some c.checker) (stateBefore (some c.checker) budget steps i) = none := by
  cases halarm : e.alarm? (some c.checker) (stateBefore (some c.checker) budget steps i) with
  | none => rfl
  | some sink =>
    obtain ⟨_, s, hch, huse, htaint, hexceeds⟩ := Event.alarm?_eq_some_iff.1 halarm
    cases hch
    obtain ⟨sink', huse'⟩ := use?_eq_some_iff.2 (ht.sinkOf (use?_eq_some_iff.1 ⟨sink, huse⟩))
    -- the two states have the same record, so they give the same answer
    obtain ⟨hrecord, hfeasibility⟩ :=
      stateBefore_agree (some c.checker) (some c'.checker) budget steps i
    have hexceeds' := ht.exceeds hvalid' hexceeds
    rw [← PathState.exceeds_congr hrecord (by rw [hfeasibility])] at hexceeds'
    rw [Event.alarm?_eq_some_iff.2 ⟨_, s, rfl, huse', ht.tainted htaint, hexceeds'⟩] at h
    cases h

/-- **What the tighter one passes, the other passes.** -/
theorem passed (ht : c'.Tightens c) (hvalid' : c'.validate = .ok ())
    (h : Passed (some c'.checker) budget steps k) : Passed (some c.checker) budget steps k := by
  intro i hi x hx
  obtain ⟨hquiet, hlive⟩ := h i hi x hx
  rw [(stateBefore_agree (some c.checker) _ _ _ _).2] at hlive
  exact ⟨ht.quiet hvalid' hquiet, hlive⟩

/-- A path that the tighter one finds infeasible is found so by the other, at the
same step. -/
theorem infeasible_of_infeasible (ht : c'.Tightens c) (hvalid' : c'.validate = .ok ())
    (h : Course (some c.checker) budget p o) (h' : Course (some c'.checker) budget p o')
    (hend' : o'.ending = .infeasible) : o.ending = .infeasible ∧ o.steps = o'.steps := by
  cases h' with
  | completed => cases hend'
  | errorNode => cases hend'
  | infeasible hx' hpassed' hquiet' hended' =>
    have hreach := ht.passed hvalid' hpassed'
    rw [(stateBefore_agree (some c.checker) _ _ _ _).2] at hended'
    cases h with
    | completed hpassed =>
      exact absurd (hpassed.le_of_ended hx' hended')
        (Nat.not_le.2 (List.getElem?_eq_some_iff.1 hx').1)
    | infeasible hx hpassed _ hended =>
      obtain rfl := Nat.le_antisymm (hpassed.le_of_ended hx' hended') (hreach.le_of_ended hx hended)
      exact ⟨rfl, rfl⟩
    | errorNode hx hpassed halarm =>
      obtain rfl := Nat.le_antisymm (hpassed.le_of_ended hx' hended') (hreach.le_of_alarm hx halarm)
      cases hx.symm.trans hx'
      rw [ht.quiet hvalid' hquiet'] at halarm
      cases halarm

end Tightens

end NetworkTaintConfig

/-- **An outcome that sharpens another.** An error node is met no later; a path that
is found infeasible is found so at the same step, unless an error node is met
before it; and one that is completed is completed, unless an error node is met. -/
structure Outcome.Sharpens (o' o : Outcome) : Prop where
  errorNode : o.ending = .errorNode → o'.ending = .errorNode ∧ o'.steps ≤ o.steps
  infeasible : o.ending = .infeasible →
    (o'.ending = .infeasible ∧ o'.steps = o.steps) ∨
      (o'.ending = .errorNode ∧ o'.steps < o.steps)
  completed : o.ending = .completed → o'.ending = .completed ∨ o'.ending = .errorNode

/-- It is infeasible only if the other one is. -/
theorem Outcome.Sharpens.infeasible_of_infeasible {o o' : Outcome} (h : o'.Sharpens o)
    (hend' : o'.ending = .infeasible) : o.ending = .infeasible := by
  cases hend : o.ending with
  | infeasible => rfl
  | errorNode => simpa [hend'] using (h.errorNode hend).1
  | completed => simpa [hend'] using h.completed hend

namespace NetworkTaintConfig

variable {c c' : NetworkTaintConfig}

/-- **The outcomes for the tighter one sharpen those for the other.** -/
theorem Tightens.sharpens (ht : c'.Tightens c) (hvalid' : c'.validate = .ok ()) (budget : Nat)
    (p : Path) : (c'.registry.replay budget p).Sharpens (c.registry.replay budget p) := by
  have h := c.course budget p
  have h' := c'.course budget p
  obtain ⟨hle, hcompleted⟩ := h.steps_le h' fun k => ht.passed hvalid'
  have hinfeasible := ht.infeasible_of_infeasible hvalid' h h'
  refine ⟨fun hend => ?_, fun hend => ?_, fun hend => ?_⟩
  · cases hend' : (c'.registry.replay budget p).ending with
    | errorNode => exact ⟨rfl, hle⟩
    | infeasible => cases hend.symm.trans (hinfeasible hend').1
    | completed => cases hend.symm.trans (hcompleted hend')
  · cases hend' : (c'.registry.replay budget p).ending with
    | errorNode =>
      exact Or.inr ⟨rfl, Nat.lt_of_le_of_ne hle (h.steps_ne h' hend hend')⟩
    | infeasible => exact Or.inl ⟨rfl, (hinfeasible hend').2.symm⟩
    | completed => cases hend.symm.trans (hcompleted hend')
  · cases hend' : (c'.registry.replay budget p).ending with
    | errorNode => exact Or.inr rfl
    | infeasible => cases hend.symm.trans (hinfeasible hend').1
    | completed => exact Or.inl rfl

/-- The analyzer with the checker of a configuration, for any replay. -/
def analyzer (c : NetworkTaintConfig) (replay : ReplayConfig) : Analyzer where
  config := { networkTaint := c, replay }
  registry := c.registry

/-- It is the one that the configuration gives, if that is accepted. -/
theorem ofConfig_analyzer {replay : ReplayConfig} (hvalid : c.validate = .ok ())
    (hreplay : replay.validate = .ok ()) :
    Analyzer.ofConfig { networkTaint := c, replay } = .ok (c.analyzer replay) := by
  have hconfig : ({ networkTaint := c, replay } : Config).validate = .ok () := by
    simp only [Config.validate, checks_eq_ok_iff]
    exact ⟨rfl, rfl, hvalid, hreplay⟩
  rw [Analyzer.ofConfig, hconfig]
  rfl

/-- **Listening to more finds no less.** If an accepted configuration tightens
another one, its outcome on every path sharpens that of the other. So on a trace it
reports no fewer paths with errors and no more infeasible ones. Where both are accepted,
these are the outcomes and the reports of the analyzers made of them. -/
theorem reports_of_tightens (ht : c'.Tightens c) (hvalid' : c'.validate = .ok ())
    (replay : ReplayConfig) :
    (c.validate = .ok () → replay.validate = .ok () →
        Analyzer.ofConfig { networkTaint := c, replay } = .ok (c.analyzer replay) ∧
          Analyzer.ofConfig { networkTaint := c', replay } = .ok (c'.analyzer replay)) ∧
      (∀ p, ((c'.analyzer replay).replay p).Sharpens ((c.analyzer replay).replay p)) ∧
      ∀ t, ((c.analyzer replay).analyze t).withErrors ≤
            ((c'.analyzer replay).analyze t).withErrors ∧
          ((c'.analyzer replay).analyze t).infeasible ≤
            ((c.analyzer replay).analyze t).infeasible ∧
          ((c'.analyzer replay).analyze t).explored =
            ((c.analyzer replay).analyze t).explored := by
  have hsharpens := ht.sharpens hvalid' replay.budget
  refine ⟨fun hvalid hreplay => ⟨ofConfig_analyzer hvalid hreplay, ofConfig_analyzer hvalid' hreplay⟩,
    hsharpens, fun t => ?_⟩
  simp only [Analyzer.analyze, Report.ofOutcomes, List.countP_map, List.length_map]
  refine ⟨?_, ?_, trivial⟩
  · refine List.countP_mono_left fun p _ herror => ?_
    rw [Function.comp_apply, decide_eq_true_eq] at herror ⊢
    exact ((hsharpens p).errorNode herror).1
  · refine List.countP_mono_left fun p _ hinf => ?_
    rw [Function.comp_apply, decide_eq_true_eq] at hinf ⊢
    exact (hsharpens p).infeasible_of_infeasible hinf

/-- A configuration that listens to a source more than the default one, from a
lower threshold on, which it writes in fewer bits. -/
def strict : NetworkTaintConfig where
  sources := NetworkTaint.defaultSources ++ ["recv"]
  threshold := 100
  width := 16

/-- A path with a copy of a length from either source; the default configuration does not
know the first. -/
def twoCopies : Path where
  id := 3
  steps :=
    [ ⟨⟨"relay", 1, 1⟩, .call { callee := some "recv", ret := .number (.symbol ⟨0⟩) }⟩
    , ⟨⟨"relay", 2, 1⟩, .call
        { callee := some "memcpy", args := [.null, .null, .number (.symbol ⟨0⟩)] }⟩
    , ⟨⟨"relay", 3, 1⟩, .call { callee := some "ntohl", ret := .number (.symbol ⟨1⟩) }⟩
    , ⟨⟨"relay", 4, 1⟩, .call
        { callee := some "memcpy", args := [.null, .null, .number (.symbol ⟨1⟩)] }⟩ ]

theorem reports_strict :
    strict.Tightens {} ∧ strict.validate = .ok () ∧
      Analyzer.ofConfig { networkTaint := strict } = .ok (strict.analyzer {}) ∧
      ((({} : NetworkTaintConfig).analyzer {}).replay twoCopies).ending = .errorNode ∧
      ((({} : NetworkTaintConfig).analyzer {}).replay twoCopies).steps = 4 ∧
      ((strict.analyzer {}).replay twoCopies).ending = .errorNode ∧
      ((strict.analyzer {}).replay twoCopies).steps ≤ 4 ∧
      1 ≤ ((strict.analyzer {}).analyze ⟨[twoCopies]⟩).withErrors := by
  have ht : strict.Tightens {} :=
    ⟨List.subset_append_left _ _, List.Subset.refl _, by decide⟩
  have hvalid : strict.validate = .ok () := by rfl
  have hending : ((({} : NetworkTaintConfig).analyzer {}).replay twoCopies).ending = .errorNode := by
    decide
  have hsteps : ((({} : NetworkTaintConfig).analyzer {}).replay twoCopies).steps = 4 := by decide
  have hone : ((({} : NetworkTaintConfig).analyzer {}).analyze ⟨[twoCopies]⟩).withErrors = 1 := by
    decide
  obtain ⟨hmade, hsharpens, hreports⟩ := reports_of_tightens ht hvalid {}
  obtain ⟨hending', hle⟩ := (hsharpens twoCopies).errorNode hending
  exact ⟨ht, hvalid, (hmade (by rfl) (by rfl)).2, hending, hsteps, hending', hsteps ▸ hle,
    hone ▸ (hreports ⟨[twoCopies]⟩).1⟩

end NetworkTaintConfig

end TaintReplay
