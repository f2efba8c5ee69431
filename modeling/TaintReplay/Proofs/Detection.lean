import TaintReplay.Proofs.Sites
/-!
# Detection — which paths are reported

In one direction, an `Overflow` is reported: a run of the path on which a
symbol from a source exceeds the threshold at a sink, given that every branch
on the symbol can be recorded and that the budget lasts. In the other, an
alarm is `Justified`: there are such a source and such a sink, and every
branch on the symbol has been recorded. Both read the replay through
`Registry.replay_cases`, and the states through what a run of updates comes
to.
-/

namespace TaintReplay

variable {config : Config} {a : Analyzer} {p : Path} {ch? : Option NetworkTaint}
variable {steps : List Step} {budget k : Nat} {s : Symbol} {t : Term} {taken : Bool}

/-! ## No overflow is missed -/

/-- **An overflow on a path.** At step `k` a sink is given a symbol that a
source has returned. The path runs up to there under the valuation, by which
the symbol exceeds the threshold. Each branch on the symbol tests it against a
constant, and the budget lasts for all branches. -/
structure Overflow (config : Config) (p : Path) (k : Nat) (s : Symbol) (σ : Valuation) : Prop where
  sink : ∃ x, p.steps[k]? = some x ∧ config.networkTaint.SinkOf s x.event
  source : ∃ y ∈ p.steps.take k, config.networkTaint.SourceOf s y.event
  runs : ∀ y ∈ p.steps.take k, ∀ t taken, y.event = .branch t taken → t.isTrue σ = taken
  exceeds : config.networkTaint.threshold.toNat < (σ s).toInt
  tested : ∀ y ∈ p.steps.take k, ∀ t taken, y.event = .branch t taken →
    s ∈ t.symbols → t.subject? = some s
  fits : (p.steps.take k).countP Step.isBranch ≤ config.replay.budget

namespace Overflow

variable {σ : Valuation}

/-- The valuation is allowed all along. -/
theorem models (h : Overflow config p k s σ) (ch? : Option NetworkTaint) (budget : Nat) {i : Nat}
    (hi : i ≤ k) :
    PathState.Models σ (stateBefore ch? budget p.steps i) := by
  refine PathState.models_after fun t taken hmem => ?_
  obtain ⟨y, hy, hbranch⟩ := assume_mem_updates.1 hmem
  exact h.runs y (List.take_subset_take_left p.steps hi hy) t taken hbranch

/-- **At the sink the checker objects.** -/
theorem exceeds_before (h : Overflow config p k s σ) (hvalid : config.validate = .ok ()) :
    (stateBefore ch? config.replay.budget p.steps k).exceeds
      config.networkTaint.checker.threshold (.number (.symbol s)) = true := by
  have hmodels := h.models ch? config.replay.budget (Nat.le_refl k)
  obtain ⟨T, hword⟩ :=
    NetworkTaintConfig.ofWord_of_validate (Config.networkTaint_of_validate hvalid)
  refine PathState.exceeds_symbol_iff.2 ⟨T, hword, hmodels.live, ?_⟩
  refine Constraints.check_eq_feasible_iff.2 ⟨?_, ?_⟩
  · -- the symbol's own integer answers the query
    refine Constraints.contradicts_eq_false (hmodels.allowed s) ?_
    have hT := Value.toInt_of_ofWord_int hword
    have habove := h.exceeds
    simp only [Condition.holds, Comparison.holds, decide_eq_true_eq, Int64.lt_iff_toInt_lt]
    omega
  · refine PathState.not_blurred_of_subjects hmodels.live ?_ ?_
    · intro t taken hmem hs
      obtain ⟨y, hy, hbranch⟩ := assume_mem_updates.1 hmem
      exact h.tested y hy t taken hbranch hs
    · -- there are no more conditions than branches
      rw [length_conditionsOf_updates]
      exact Nat.le_trans (List.countP_mono_left fun y _ => Step.isBranch_of_isTest) h.fits

/-- So the replay raises an alarm there, if it gets there. -/
theorem alarm (h : Overflow config p k s σ) (hvalid : config.validate = .ok ()) :
    ∃ x sink, p.steps[k]? = some x ∧
      x.event.alarm? (some config.networkTaint.checker)
        (stateBefore (some config.networkTaint.checker) config.replay.budget p.steps k) =
          some sink := by
  obtain ⟨x, hx, hsink⟩ := h.sink
  obtain ⟨sink, huse⟩ := NetworkTaintConfig.use?_eq_some_iff.2 hsink
  refine ⟨x, sink, hx, Event.alarm?_eq_some_iff.2 ⟨_, s, rfl, huse, ?_, h.exceeds_before hvalid⟩⟩
  exact PathState.tainted_after.2 (taint_mem_updates.2 h.source)

end Overflow

namespace Analyzer

/-- **No overflow is missed.** If an accepted configuration enables the
checker, the replay of a path on which there is an overflow ends with an error
node: at the step of the overflow, or at an earlier sink that is reported. -/
theorem errorNode_of_overflow (h : ofConfig config = .ok a)
    (henabled : config.isEnabled NetworkTaint.name = true) {σ : Valuation}
    (hover : Overflow config p k s σ) :
    (a.replay p).ending = .errorNode ∧ (a.replay p).steps ≤ k + 1 ∧
      ((a.replay p).steps = k + 1 ∨
        ∃ i < k, (a.replay p).steps = i + 1 ∧ (a.replay p).alarms ≠ [] ∧
          ∃ y r, p.steps[i]? = some y ∧ config.networkTaint.SinkOf r y.event) := by
  obtain ⟨hvalid, rfl, hserves⟩ := serves_of_ofConfig h
  rw [Config.checker?, if_pos henabled] at hserves
  obtain ⟨x, sink, hx, halarm⟩ := hover.alarm hvalid
  have hpassed : ∀ {i}, Passed (some a.config.networkTaint.checker) a.config.replay.budget
      p.steps i → i ≤ k := by
    intro i hi
    by_contra hlt
    rw [(hi k (Nat.lt_of_not_le hlt) x hx).1] at halarm
    cases halarm
  rw [replay]
  rcases Registry.replay_cases hserves a.config.replay.budget p with
    ⟨hall, -⟩ | ⟨i, y, hy, hpre, ⟨hnone, hinf, -⟩ | ⟨sink', hsome, heq⟩⟩
  · -- the path cannot be completed: step `k` is one of its steps
    exact absurd (hpassed hall) (Nat.not_le.2 (List.getElem?_eq_some_iff.1 hx).1)
  · -- nor can it end in front of step `k`, or there
    rcases Nat.lt_or_eq_of_le (hpassed hpre) with hlt | rfl
    · exact absurd hinf (hover.models _ _ hlt).live
    · rw [hx] at hy
      cases hy
      rw [hnone] at halarm
      cases halarm
  · -- so it ends with an alarm, which is about a sink of its own
    have hle := hpassed hpre
    rw [heq]
    refine ⟨rfl, Nat.succ_le_succ hle, ?_⟩
    rcases Nat.lt_or_eq_of_le hle with hlt | rfl
    · obtain ⟨_, r, hch, huse, -⟩ := Event.alarm?_eq_some_iff.1 hsome
      cases hch
      exact Or.inr ⟨i, hlt, rfl, by simp, y, r, hy,
        NetworkTaintConfig.use?_eq_some_iff.1 ⟨sink', huse⟩⟩
    · exact Or.inl rfl

/-- The analyzer of the default configuration. -/
def standard : Analyzer where
  config := {}
  registry := (({} : NetworkTaintConfig).checker.register? .empty).getD .empty

theorem ofConfig_default : ofConfig {} = .ok standard := rfl

/-- A path that reads a length, tests it against a bound above the threshold,
and copies that much. -/
def checkedTooLate : Path where
  id := 0
  steps :=
    [ ⟨⟨"receive", 1, 1⟩, .call { callee := some "ntohl", ret := .number (.symbol ⟨0⟩) }⟩
    , ⟨⟨"receive", 2, 1⟩, .branch (.compare (.symbol ⟨0⟩) .le (.int 9000)) true⟩
    , ⟨⟨"receive", 3, 1⟩, .call
        { callee := some "memcpy", args := [.null, .null, .number (.symbol ⟨0⟩)] }⟩ ]

theorem overflow_checkedTooLate : Overflow {} checkedTooLate 2 ⟨0⟩ fun _ => 6000 where
  sink := ⟨_, rfl, .copy rfl (by decide) rfl⟩
  source := ⟨_, List.mem_cons_self, .call rfl (by decide) (Or.inl rfl)⟩
  runs := by
    simp only [checkedTooLate, List.take_succ_cons, List.take_zero, List.mem_cons,
      List.not_mem_nil, or_false]
    rintro y (rfl | rfl) t taken hbranch <;> cases hbranch
    decide
  exceeds := by decide
  tested := by
    simp only [checkedTooLate, List.take_succ_cons, List.take_zero, List.mem_cons,
      List.not_mem_nil, or_false]
    rintro y (rfl | rfl) t taken hbranch - <;> cases hbranch
    rfl
  fits := by decide

theorem errorNode_checkedTooLate :
    Overflow {} checkedTooLate 2 ⟨0⟩ (fun _ => 6000) ∧
      (standard.replay checkedTooLate).ending = .errorNode ∧
      (standard.replay checkedTooLate).steps = 2 + 1 := by
  obtain ⟨hending, -, hlast | ⟨i, hi, -, -, y, r, hy, hsink⟩⟩ :=
    errorNode_of_overflow ofConfig_default (by decide) overflow_checkedTooLate
  · exact ⟨overflow_checkedTooLate, hending, hlast⟩
  · -- no sink comes before the copy
    obtain ⟨sink, huse⟩ := NetworkTaintConfig.use?_eq_some_iff.2 hsink
    obtain rfl | rfl : i = 0 ∨ i = 1 := by omega
    · cases hy
      cases huse
    · cases hy
      cases huse

end Analyzer

/-! ## No alarm is raised without cause -/

/-- **What justifies an alarm** at step `k`: a sink is given a symbol that a
source has returned, and each branch on the symbol tests it against a constant
while the budget lasts. -/
structure Justified (config : Config) (p : Path) (k : Nat) (s : Symbol) : Prop where
  sink : ∃ x, p.steps[k]? = some x ∧ config.networkTaint.SinkOf s x.event
  source : ∃ y ∈ p.steps.take k, config.networkTaint.SourceOf s y.event
  recorded : ∀ i < k, ∀ y t taken, p.steps[i]? = some y → y.event = .branch t taken →
    s ∈ t.symbols → t.subject? = some s ∧
      (p.steps.take i).countP Step.isTest < config.replay.budget

/-- **A symbol that may certainly exceed a threshold has all its branches
recorded**: each tests it against a constant, and fewer tests than the budget
came before. -/
theorem recorded_of_exceeds {θ : Threshold} {i : Nat} {y : Step}
    (h : (stateBefore ch? budget steps k).exceeds θ (.number (.symbol s)) = true)
    (hik : i < k) (hy : steps[i]? = some y) (hbranch : y.event = .branch t taken)
    (hs : s ∈ t.symbols) :
    t.subject? = some s ∧ (steps.take i).countP Step.isTest < budget := by
  obtain ⟨T, -, hlive, hcheck⟩ := PathState.exceeds_symbol_iff.1 h
  obtain ⟨-, hblurred⟩ := Constraints.check_eq_feasible_iff.1 hcheck
  obtain ⟨post, hsplit⟩ := updates_take_split ch? hik hy hbranch
  obtain ⟨c, hreading, hsymbol, hfits⟩ :=
    PathState.recorded_of_not_blurred hlive hblurred hsplit hs
  rw [length_conditionsOf_updates] at hfits
  exact ⟨(Term.subject?_eq_some_iff taken).2 ⟨c, hreading, hsymbol⟩, hfits⟩

namespace Analyzer

/-- The state that a replay is in when it has gone through the steps in front
of a step. -/
def reached (a : Analyzer) (p : Path) (i : Nat) : PathState :=
  (a.registry.run (p.steps.take i) 0 (.start p.id a.config.replay.budget)).2.2.state

theorem reached_of_passed (hserves : a.registry.Serves ch?) {i : Nat}
    (h : Passed ch? a.config.replay.budget p.steps i) :
    a.reached p i = stateBefore ch? a.config.replay.budget p.steps i := by
  obtain ⟨c, hc, hstate⟩ := Registry.through?_of_passed hserves p.id h
  rw [reached, Registry.run_of_through? _ _ hc, hstate]

/-- **Every alarm is justified.** If a replay raises one, its last step is a
sink of a symbol for which there is cause, and every branch before it was
taken in a state in which it may be. -/
theorem justified_of_alarm (h : ofConfig config = .ok a) (p : Path)
    (halarm : (a.replay p).alarms ≠ []) :
    ∃ k s, (a.replay p).steps = k + 1 ∧ Justified config p k s ∧
      ∀ i < k, ∀ y t taken, p.steps[i]? = some y → y.event = .branch t taken →
        ((a.reached p i).assume t taken).feasibility ≠ .infeasible := by
  obtain ⟨-, rfl, hserves⟩ := serves_of_ofConfig h
  rw [replay] at halarm ⊢
  rcases Registry.replay_cases hserves a.config.replay.budget p with
    ⟨-, heq⟩ | ⟨k, x, hx, hpre, ⟨-, -, heq⟩ | ⟨sink, hsome, heq⟩⟩
  · exact absurd (by rw [heq]) halarm
  · exact absurd (by rw [heq]) halarm
  · obtain ⟨ch, s, hch, huse, htaint, hexceeds⟩ := Event.alarm?_eq_some_iff.1 hsome
    -- whoever raised it is the checker of the configuration
    obtain rfl : a.config.networkTaint.checker = ch := Config.eq_of_checker? hch
    rw [heq]
    refine ⟨k, s, rfl, ⟨⟨x, hx, NetworkTaintConfig.use?_eq_some_iff.1 ⟨sink, huse⟩⟩, ?_, ?_⟩, ?_⟩
    · rw [hch] at htaint
      exact taint_mem_updates.1 (PathState.tainted_after.1 htaint)
    · intro i hik y t taken hy hbranch hs
      exact recorded_of_exceeds hexceeds hik hy hbranch hs
    · intro i hik y t taken hy hbranch
      have hlive := (hpre i hik y hy).2
      rw [reached_of_passed hserves (hpre.mono (Nat.le_of_lt hik))]
      rwa [stateBefore_succ hy, PathState.behind, hbranch] at hlive

theorem justified_checkedTooLate :
    (standard.replay checkedTooLate).alarms ≠ [] ∧
      (standard.replay checkedTooLate).steps = 2 + 1 ∧ Justified {} checkedTooLate 2 ⟨0⟩ ∧
      ((standard.reached checkedTooLate 1).assume
        (.compare (.symbol ⟨0⟩) .le (.int 9000)) true).feasibility ≠ .infeasible := by
  have halarm : (standard.replay checkedTooLate).alarms ≠ [] := by decide
  have hsteps : (standard.replay checkedTooLate).steps = 2 + 1 := by decide
  obtain ⟨k, s, hk, hjustified, hlive⟩ := justified_of_alarm ofConfig_default checkedTooLate halarm
  obtain rfl : k = 2 := Nat.succ.inj (hk.symm.trans hsteps)
  -- the copy is of one symbol only
  obtain ⟨x, hx, hsink⟩ := hjustified.sink
  cases hx
  obtain ⟨sink, huse⟩ := NetworkTaintConfig.use?_eq_some_iff.2 hsink
  obtain rfl : s = ⟨0⟩ := by
    cases huse
    rfl
  exact ⟨halarm, hsteps, hjustified, hlive 1 (by decide) _ _ _ rfl rfl⟩

/-- A path with the three answers there are on a tainted operand. The first length
is bounded, too little is known of the second, and the third is bounded too high. -/
def threeLengths : Path where
  id := 7
  steps :=
    [ ⟨⟨"receive", 1, 1⟩, .call { callee := some "ntohl", ret := .number (.symbol ⟨0⟩) }⟩
    , ⟨⟨"receive", 2, 1⟩, .call { callee := some "ntohs", ret := .pointer (.symbolic ⟨1⟩) }⟩
    , ⟨⟨"receive", 3, 1⟩, .branch (.compare (.symbol ⟨0⟩) .le (.int 4000)) true⟩
    , ⟨⟨"receive", 4, 1⟩, .call
        { callee := some "memcpy", args := [.null, .null, .number (.symbol ⟨0⟩)] }⟩
    , ⟨⟨"receive", 5, 1⟩, .branch (.compare (.symbol ⟨1⟩) .lt (.symbol ⟨2⟩)) true⟩
    , ⟨⟨"receive", 6, 1⟩, .access { location := .element (.var "table") (.number (.symbol ⟨1⟩)) }⟩
    , ⟨⟨"receive", 7, 1⟩, .call { callee := some "ntohl", ret := .number (.symbol ⟨3⟩) }⟩
    , ⟨⟨"receive", 8, 1⟩, .branch (.compare (.int 9000) .ge (.symbol ⟨3⟩)) true⟩
    , ⟨⟨"receive", 9, 1⟩, .access { location := .element (.var "table") (.number (.symbol ⟨3⟩)) }⟩ ]

end Analyzer

end TaintReplay
