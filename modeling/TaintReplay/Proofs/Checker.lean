import TaintReplay.Analysis
import TaintReplay.Proofs.Path
import TaintReplay.Proofs.Replay
import TaintReplay.Proofs.Validation
/-!
# The checker on a path — what a step does

A replay hands every event to a registry, the registry to its handlers, and
these change the context. Here that is brought down to two functions of the
event alone: the `Sink` it is to the checker, with the operand looked at, and
the `Update` it makes of the state. `perform?_eq` is the step of a replay in
their terms, and `running_of_through?` says what a context holds that has gone
through some steps: no mark of an alarm, a state that can be run, and in it
the updates of the steps, in order. A registry may hold no checker, which is
what `ch?` stands for.
-/

namespace TaintReplay

variable {ch : NetworkTaint} {ch? : Option NetworkTaint} {r : Registry Context}
variable {c c₁ : Context} {x : Step} {e : Event} {steps : List Step} {budget : Nat} {id : UInt32}

/-! ## Events as the checker sees them -/

namespace NetworkTaint

/-- The sink that an event is, with the operand looked at. -/
def use? (ch : NetworkTaint) : Event → Option (Sink × Value)
  | .call call =>
    match call.callee with
    | some callee => if ch.isCopySink callee then some (.copySize, call.arg copySizeArg) else none
    | none => none
  | .access a => (a.location.region?.bind Region.index?).map (.arrayIndex, ·)
  | .branch .. => none

/-- Whether an operand is tainted and may certainly exceed the threshold. -/
def objects (ch : NetworkTaint) (st : PathState) (operand : Value) : Bool :=
  st.isTainted operand && st.exceeds ch.threshold operand

/-- The sink at which an event raises an alarm. -/
def alarm? (ch : NetworkTaint) (st : PathState) (e : Event) : Option Sink :=
  match ch.use? e with
  | some (sink, operand) => if ch.objects st operand then some sink else none
  | none => none

/-- The symbol that a call taints. -/
def mark? (ch : NetworkTaint) (call : Call) : Option Symbol :=
  match call.callee, call.ret.symbol? with
  | some callee, some s => if ch.isSource callee then some s else none
  | _, _ => none

end NetworkTaint

namespace Event

/-- The sink at which an event raises an alarm, if there is a checker. -/
def alarm? (ch? : Option NetworkTaint) (st : PathState) (e : Event) : Option Sink :=
  ch?.bind fun ch => ch.alarm? st e

/-- What an event does to the state, unless it raises an alarm. -/
def update? (ch? : Option NetworkTaint) : Event → Option Update
  | .call c => (ch?.bind fun ch => ch.mark? c).map .taint
  | .access _ => none
  | .branch t taken => some (.assume t taken)

end Event

/-- What steps do to the state, in order. -/
def updates (ch? : Option NetworkTaint) (steps : List Step) : List Update :=
  steps.filterMap fun x => x.event.update? ch?

theorem updates_append (ch? : Option NetworkTaint) (xs ys : List Step) :
    updates ch? (xs ++ ys) = updates ch? xs ++ updates ch? ys :=
  List.filterMap_append

/-- The state after an event that raises no alarm. -/
def PathState.behind (st : PathState) (ch? : Option NetworkTaint) (e : Event) : PathState :=
  match e.update? ch? with
  | some u => st.update u
  | none => st

theorem PathState.after_updates_concat (x : Step) :
    PathState.after budget (updates ch? (steps ++ [x])) =
      (PathState.after budget (updates ch? steps)).behind ch? x.event := by
  rw [updates, List.filterMap_append, behind]
  cases h : x.event.update? ch? with
  | none => simp [h, updates]
  | some u => simp [h, updates, PathState.after_concat]

/-- A call may taint, and that cannot end a path. -/
theorem PathState.behind_call_feasibility (st : PathState) (call : Call) :
    (st.behind ch? (.call call)).feasibility = st.feasibility := by
  rw [behind, Event.update?]
  cases ch?.bind fun ch => ch.mark? call <;> rfl

/-! ## Contexts -/

namespace Context

/-- **A path in the course of its replay**: no error node was generated, no
alarm raised, and the state can be run. -/
structure Running (c : Context) : Prop where
  nodes : c.nodes = []
  alarms : c.alarms = []
  sunk : c.sunk = false
  live : c.state.feasibility ≠ .infeasible

/-- The context behind an event that raises an alarm. -/
def alarmed (c : Context) (sink : Sink) : Context :=
  { c with
    sunk := true
    nodes := ⟨c.point, sink.tag⟩ :: c.nodes
    alarms := c.alarms ++ [⟨⟨c.point, sink.tag⟩, .ofSink NetworkTaint.name sink c.point⟩] }

/-- The context behind a look for an alarm. -/
def looked (c : Context) : Option Sink → Context
  | some sink => c.alarmed sink
  | none => c

/-- The context behind a look for an alarm, marked or not: an alarm goes with the error
node it asks for, and where that is refused there is none. -/
def heard (c : Context) : Option Sink → Context
  | some sink =>
    match c.generate c.state sink.tag with
    | some (node, c') => c'.raise ⟨node, .ofSink NetworkTaint.name sink c.point⟩
    | none => c
  | none => c

/-- On a path in its course no error node is refused. -/
theorem heard_eq_looked (h : c.nodes = []) (sink? : Option Sink) :
    c.heard sink? = c.looked sink? := by
  cases sink? with
  | none => rfl
  | some sink =>
    rw [heard, generate, if_neg (by simp [h])]
    rfl

theorem running_start (id : UInt32) (budget : Nat) : (start id budget).Running where
  nodes := rfl
  alarms := rfl
  sunk := rfl
  live := by simp [start, PathState.start]

theorem Running.moveTo (h : c.Running) (point : Point) : (c.moveTo point).Running :=
  ⟨h.nodes, h.alarms, h.sunk, h.live⟩

theorem Running.transition (h : c.Running) {st : PathState} (hst : st.feasibility ≠ .infeasible) :
    (c.transition st).Running :=
  ⟨h.nodes, h.alarms, h.sunk, hst⟩

end Context

/-! ## The handlers -/

namespace NetworkTaint

/-- A sink is an alarm if the checker objects to its operand. -/
theorem checkSink_eq (sink : Sink) (operand : Value) :
    ch.checkSink sink operand c =
      c.heard (if ch.objects c.state operand then some sink else none) := by
  rw [checkSink, objects]
  split <;> rfl

/-- An operand that was never set is none to object to. -/
theorem objects_undefined (st : PathState) : ch.objects st .undefined = false := by
  simp [objects, PathState.isTainted, Value.symbols]

/-- Before a call the checker looks for an alarm only. -/
theorem preCall_eq (call : Call) :
    ch.preCall call c = c.heard (ch.alarm? c.state (.call call)) := by
  rw [preCall, alarm?, use?]
  cases call.callee with
  | none => rfl
  | some callee =>
    simp only
    split
    · rw [checkSink_eq]
    · rfl

/-- After a call it marks the result of a source. -/
theorem postCall_eq (call : Call) :
    ch.postCall call c = c.transition (c.state.behind (some ch) (.call call)) := by
  rw [postCall, PathState.behind, Event.update?, Option.bind_some, mark?]
  cases call.callee with
  | none => rfl
  | some callee =>
    cases call.ret.symbol? with
    | none => rfl
    | some s =>
      simp only [PathState.mark_eq_taint]
      split <;> rfl

/-- On an access it looks for an alarm. -/
theorem location_eq (a : Access) :
    ch.location a c = c.heard (ch.alarm? c.state (.access a)) := by
  rw [location, alarm?, use?]
  split
  · -- the access is to an element, but its index raises no alarm anyway
    rename_i hindex
    simp [hindex, objects_undefined, Context.heard]
  · rename_i hindex
    simp [hindex, Context.heard]
  · rename_i index hindex
    rw [hindex, Option.map_some, checkSink_eq]

end NetworkTaint

/-! ## Registries -/

/-- The registry tells the checker of every event, if there is one, and
nobody else. -/
def Registry.Serves (r : Registry Context) (ch? : Option NetworkTaint) : Prop :=
  ∀ n c, r.dispatch n c = match ch? with
    | some ch => ch.react n c
    | none => c

/-- A registry with a checker and no other serves that checker. -/
theorem NetworkTaint.serves_of_register? (h : ch.register? .empty = some r) :
    r.Serves (some ch) := by
  cases h
  -- one handler for each kind of notice, which reacts to it as the checker does
  intro n c
  cases n <;> rfl

/-- The checker of a configuration, if that enables it. -/
def Config.checker? (c : Config) : Option NetworkTaint :=
  if c.isEnabled NetworkTaint.name then some c.networkTaint.checker else none

theorem Config.eq_of_checker? {config : Config} (h : config.checker? = some ch) :
    config.networkTaint.checker = ch := by
  rw [checker?] at h
  split at h
  · cases h
    rfl
  · cases h

/-- **An analyzer serves the checker of its configuration**, which has no
fault. -/
theorem Analyzer.serves_of_ofConfig {config : Config} {a : Analyzer}
    (h : ofConfig config = .ok a) :
    config.validate = .ok () ∧ a.config = config ∧ a.registry.Serves config.checker? := by
  unfold ofConfig at h
  split at h
  · cases h
  · rename_i hvalid
    rw [Config.checker?]
    split at h
    · rename_i henabled
      split at h
      · rename_i r hr
        cases h
        rw [if_pos henabled]
        exact ⟨hvalid, rfl, NetworkTaint.serves_of_register? hr⟩
      · cases h
    · rename_i henabled
      cases h
      refine ⟨hvalid, rfl, fun n c => ?_⟩
      rw [if_neg henabled]
      cases n <;> rfl

/-! ## Steps and prefixes -/

namespace Registry

theorem dispatch_preCall (hr : r.Serves ch?) (h : c.nodes = []) (call : Call) :
    r.dispatch (.preCall call) c = c.looked (Event.alarm? ch? c.state (.call call)) := by
  rw [hr]
  cases ch? with
  | none => rfl
  | some ch => exact (NetworkTaint.preCall_eq call).trans (c.heard_eq_looked h _)

theorem dispatch_postCall (hr : r.Serves ch?) (call : Call) :
    r.dispatch (.postCall call) c = c.transition (c.state.behind ch? (.call call)) := by
  rw [hr]
  cases ch? with
  | none => rfl
  | some ch => exact NetworkTaint.postCall_eq call

theorem dispatch_location (hr : r.Serves ch?) (h : c.nodes = []) (a : Access) :
    r.dispatch (.location a) c = c.looked (Event.alarm? ch? c.state (.access a)) := by
  rw [hr]
  cases ch? with
  | none => rfl
  | some ch => exact (NetworkTaint.location_eq a).trans (c.heard_eq_looked h _)

/-- **The step of a replay.** On a path in its course, an event raises an
alarm and sinks the path, or makes its update; and only if that leaves a state
that can be run does the path go on. -/
theorem perform?_eq (hr : r.Serves ch?) (h : c.Running) (e : Event) :
    r.perform? e c = match e.alarm? ch? c.state with
      | some sink => some (c.alarmed sink)
      | none =>
        if (c.state.behind ch? e).feasibility = .infeasible then none
        else some (c.transition (c.state.behind ch? e)) := by
  cases e with
  | call call =>
    rw [perform?, dispatch_preCall hr h.nodes]
    cases Event.alarm? ch? c.state (.call call) with
    | some sink => rfl
    | none =>
      have hlive : (c.state.behind ch? (.call call)).feasibility ≠ .infeasible := by
        rw [PathState.behind_call_feasibility]
        exact h.live
      -- nothing sank the path, so the call is announced once more behind it
      simp only [Context.looked, dispatch_postCall hr]
      rw [if_neg hlive, if_neg (by simp [h.sunk])]
  | access a =>
    rw [perform?, dispatch_location hr h.nodes]
    cases Event.alarm? ch? c.state (.access a) with
    | some sink => rfl
    | none => exact (if_neg h.live).symm
  | branch t taken =>
    have hnone : (Event.branch t taken).alarm? ch? c.state = none := by cases ch? <;> rfl
    simp only [hnone]
    rfl

/-- **A step that is gone through** raises no alarm, and leaves a state that
can be run. -/
theorem through?_step_iff (hr : r.Serves ch?) (h : c.Running) :
    r.through? [x] c = some c₁ ↔
      x.event.alarm? ch? c.state = none ∧
        (c.state.behind ch? x.event).feasibility ≠ .infeasible ∧
        c₁ = (c.moveTo x.point).transition (c.state.behind ch? x.event) := by
  have hmoved : (c.moveTo x.point).state = c.state := rfl
  rw [through?_singleton, perform?_eq hr (h.moveTo x.point), hmoved]
  cases ha : x.event.alarm? ch? c.state with
  | some sink =>
    refine iff_of_false ?_ (by simp)
    rintro ⟨heq, hs⟩
    cases heq
    cases hs
  | none =>
    simp only
    split
    · exact iff_of_false (by simp) fun hpass => hpass.2.1 ‹_›
    · rename_i hlive
      constructor
      · rintro ⟨heq, -⟩
        cases heq
        exact ⟨trivial, hlive, rfl⟩
      · rintro ⟨-, -, rfl⟩
        exact ⟨rfl, h.sunk⟩

/-- An event that ends the path leaves a state that cannot be run. -/
theorem ended_of_perform? (hr : r.Serves ch?) (h : c.Running) (hp : r.perform? e c = none) :
    e.alarm? ch? c.state = none ∧ (c.state.behind ch? e).feasibility = .infeasible := by
  rw [perform?_eq hr h] at hp
  cases ha : e.alarm? ch? c.state with
  | some sink =>
    rw [ha] at hp
    cases hp
  | none =>
    simp only [ha] at hp
    split at hp
    · exact ⟨rfl, ‹_›⟩
    · cases hp

/-- An event that sinks the path raises an alarm. -/
theorem sunk_of_perform? (hr : r.Serves ch?) (h : c.Running)
    (hp : r.perform? e c = some c₁) (hs : c₁.sunk = true) :
    ∃ sink, e.alarm? ch? c.state = some sink ∧ c₁ = c.alarmed sink := by
  rw [perform?_eq hr h] at hp
  cases ha : e.alarm? ch? c.state with
  | some sink =>
    rw [ha] at hp
    cases hp
    exact ⟨sink, rfl, rfl⟩
  | none =>
    simp only [ha] at hp
    split at hp
    · cases hp
    · cases hp
      exact absurd hs (by simp [Context.transition, h.sunk])

/-- **A context behind a prefix**: the path is in its course, and the state is
that of the updates. -/
theorem running_of_through? (hr : r.Serves ch?)
    (h : r.through? steps (.start id budget) = some c) :
    c.Running ∧ c.state = .after budget (updates ch? steps) := by
  induction steps using List.reverseRecOn generalizing c with
  | nil =>
    cases h
    exact ⟨Context.running_start id budget, rfl⟩
  | append_singleton steps x ih =>
    rw [through?_append] at h
    obtain ⟨c₀, hpre, hlast⟩ := Option.bind_eq_some_iff.1 h
    obtain ⟨hrun, hstate⟩ := ih hpre
    obtain ⟨-, hlive, rfl⟩ := (through?_step_iff hr hrun).1 hlast
    refine ⟨(hrun.moveTo x.point).transition hlive, ?_⟩
    rw [PathState.after_updates_concat, ← hstate]
    rfl

end Registry

/-! ## Whole replays -/

/-- The state in front of a step, if the path gets there. -/
def stateBefore (ch? : Option NetworkTaint) (budget : Nat) (steps : List Step) (i : Nat) :
    PathState :=
  .after budget (updates ch? (steps.take i))

theorem stateBefore_succ {i : Nat} (hx : steps[i]? = some x) :
    stateBefore ch? budget steps (i + 1) =
      (stateBefore ch? budget steps i).behind ch? x.event := by
  rw [stateBefore, List.take_add_one, hx]
  exact PathState.after_updates_concat x

/-- **The first steps are passed**: none of them raises an alarm, and each
leaves a state that can be run. -/
def Passed (ch? : Option NetworkTaint) (budget : Nat) (steps : List Step) (k : Nat) : Prop :=
  ∀ i < k, ∀ x, steps[i]? = some x →
    x.event.alarm? ch? (stateBefore ch? budget steps i) = none ∧
      (stateBefore ch? budget steps (i + 1)).feasibility ≠ .infeasible

theorem Passed.mono {i k : Nat} (h : Passed ch? budget steps k) (hik : i ≤ k) :
    Passed ch? budget steps i :=
  fun j hj => h j (Nat.lt_of_lt_of_le hj hik)

/-- One step more is passed if it raises no alarm and leaves a state that can be
run. -/
theorem Passed.succ {k : Nat} (h : Passed ch? budget steps k)
    (hstep : ∀ x, steps[k]? = some x →
      x.event.alarm? ch? (stateBefore ch? budget steps k) = none ∧
        (stateBefore ch? budget steps (k + 1)).feasibility ≠ .infeasible) :
    Passed ch? budget steps (k + 1) := by
  intro i hi
  rcases Nat.lt_succ_iff_lt_or_eq.1 hi with hlt | rfl
  · exact h i hlt
  · exact hstep

/-- A path that is passed up to a step can be run up to there. -/
theorem Passed.live {k : Nat} (h : Passed ch? budget steps k) :
    (stateBefore ch? budget steps k).feasibility ≠ .infeasible := by
  induction k with
  | zero => simp [stateBefore, updates, PathState.after, PathState.start]
  | succ k ih =>
    cases hx : steps[k]? with
    | none =>
      -- there is no such step any more
      have hsame : steps.take (k + 1) = steps.take k := by
        rw [List.take_add_one, hx, Option.toList_none, List.append_nil]
      rw [stateBefore, hsame]
      exact ih (h.mono (Nat.le_succ k))
    | some x => exact (h k (Nat.lt_succ_self k) x hx).2

/-- It does not get past a step that raises an alarm. -/
theorem Passed.le_of_alarm {j k : Nat} {sink : Sink} (h : Passed ch? budget steps j)
    (hx : steps[k]? = some x)
    (halarm : x.event.alarm? ch? (stateBefore ch? budget steps k) = some sink) : j ≤ k := by
  by_contra hlt
  rw [(h k (Nat.lt_of_not_le hlt) x hx).1] at halarm
  cases halarm

/-- Nor past one that leaves a state that cannot be run. -/
theorem Passed.le_of_ended {j k : Nat} (h : Passed ch? budget steps j)
    (hx : steps[k]? = some x)
    (hended : (stateBefore ch? budget steps (k + 1)).feasibility = .infeasible) : j ≤ k := by
  by_contra hlt
  exact (h k (Nat.lt_of_not_le hlt) x hx).2 hended

namespace Registry

/-- What was gone through is passed. -/
theorem passed_of_through? (hr : r.Serves ch?) {k : Nat}
    (h : r.through? (steps.take k) (.start id budget) = some c) :
    Passed ch? budget steps k := by
  intro i hi x hx
  obtain ⟨c₂, hthrough⟩ := through?_of_take (Nat.succ_le_of_lt hi) h
  obtain ⟨c₁, hpre, hlast⟩ := through?_take_succ hx hthrough
  obtain ⟨hrun, hstate⟩ := running_of_through? hr hpre
  obtain ⟨ha, hlive, -⟩ := (through?_step_iff hr hrun).1 hlast
  rw [stateBefore_succ hx, stateBefore, ← hstate]
  exact ⟨ha, hlive⟩

/-- And what is passed is gone through, into the state of the updates. -/
theorem through?_of_passed (hr : r.Serves ch?) (id : UInt32) {k : Nat}
    (h : Passed ch? budget steps k) :
    ∃ c, r.through? (steps.take k) (.start id budget) = some c ∧
      c.state = stateBefore ch? budget steps k := by
  suffices hsome : ∃ c, r.through? (steps.take k) (.start id budget) = some c by
    obtain ⟨c, hc⟩ := hsome
    exact ⟨c, hc, (running_of_through? hr hc).2⟩
  induction k with
  | zero => exact ⟨.start id budget, rfl⟩
  | succ k ih =>
    obtain ⟨c, hc⟩ := ih (h.mono (Nat.le_succ k))
    rw [List.take_add_one]
    cases hx : steps[k]? with
    | none => exact ⟨c, by simpa using hc⟩
    | some x =>
      -- what `Passed` says of the last step is said of the context before it
      obtain ⟨ha, hlive⟩ := h k (Nat.lt_succ_self k) x hx
      obtain ⟨hrun, hstate⟩ := running_of_through? hr hc
      rw [stateBefore_succ hx, stateBefore, ← hstate] at hlive
      rw [stateBefore, ← hstate] at ha
      rw [through?_append, hc, Option.toList_some, Option.bind_some]
      exact ⟨_, (through?_step_iff hr hrun).2 ⟨ha, hlive, rfl⟩⟩

/-- **The course of a replay**, in terms of states alone. It passes all steps;
or the steps before one that leaves a state that cannot be run; or those
before one that raises an alarm, and that is the only one there is. -/
theorem replay_cases (hr : r.Serves ch?) (budget : Nat) (p : Path) :
    (Passed ch? budget p.steps p.steps.length ∧
      r.replay budget p = ⟨p.id, .completed, p.steps.length, []⟩) ∨
    ∃ k x, p.steps[k]? = some x ∧ Passed ch? budget p.steps k ∧
      ((x.event.alarm? ch? (stateBefore ch? budget p.steps k) = none ∧
          (stateBefore ch? budget p.steps (k + 1)).feasibility = .infeasible ∧
          r.replay budget p = ⟨p.id, .infeasible, k + 1, []⟩) ∨
        ∃ sink, x.event.alarm? ch? (stateBefore ch? budget p.steps k) = some sink ∧
          r.replay budget p = ⟨p.id, .errorNode, k + 1,
            [⟨⟨x.point, sink.tag⟩, .ofSink NetworkTaint.name sink x.point⟩]⟩) := by
  rcases run_cases r p.steps 0 (.start p.id budget) with
    ⟨c, hthrough⟩ | ⟨k, x, c, hx, hpre, hend⟩
  · obtain ⟨hrun, -⟩ := running_of_through? hr hthrough
    refine Or.inl ⟨?_, ?_⟩
    · rw [← List.take_length (l := p.steps)] at hthrough
      exact passed_of_through? hr hthrough
    · simp only [replay, run_of_through? _ _ hthrough, Nat.zero_add, hrun.alarms]
  · obtain ⟨hrun, hstate⟩ := running_of_through? hr hpre
    have hmoved := hrun.moveTo x.point
    refine Or.inr ⟨k, x, hx, passed_of_through? hr hpre, ?_⟩
    rw [stateBefore_succ hx, stateBefore, ← hstate]
    rcases hend with ⟨hnone, heq⟩ | ⟨c₂, hsome, hsunk, heq⟩
    · obtain ⟨ha, hinf⟩ := ended_of_perform? hr hmoved hnone
      refine Or.inl ⟨ha, hinf, ?_⟩
      simp only [replay, heq, Nat.zero_add, hmoved.alarms]
    · obtain ⟨sink, ha, rfl⟩ := sunk_of_perform? hr hmoved hsome hsunk
      refine Or.inr ⟨sink, ha, ?_⟩
      simp only [replay, heq, Nat.zero_add, Context.alarmed, hmoved.alarms, List.nil_append]
      rfl

end Registry

/-- The outcomes that the replay of a path may have, with what they say of its
steps. -/
inductive Course (ch? : Option NetworkTaint) (budget : Nat) (p : Path) : Outcome → Prop
  /-- All steps are passed. -/
  | completed (hpassed : Passed ch? budget p.steps p.steps.length) :
      Course ch? budget p ⟨p.id, .completed, p.steps.length, []⟩
  /-- A step leaves a state that cannot be run. -/
  | infeasible {k : Nat} {x : Step} (hx : p.steps[k]? = some x)
      (hpassed : Passed ch? budget p.steps k)
      (hquiet : x.event.alarm? ch? (stateBefore ch? budget p.steps k) = none)
      (hended : (stateBefore ch? budget p.steps (k + 1)).feasibility = .infeasible) :
      Course ch? budget p ⟨p.id, .infeasible, k + 1, []⟩
  /-- A step raises an alarm. -/
  | errorNode {k : Nat} {x : Step} {sink : Sink} (hx : p.steps[k]? = some x)
      (hpassed : Passed ch? budget p.steps k)
      (halarm : x.event.alarm? ch? (stateBefore ch? budget p.steps k) = some sink) :
      Course ch? budget p ⟨p.id, .errorNode, k + 1,
        [⟨⟨x.point, sink.tag⟩, .ofSink NetworkTaint.name sink x.point⟩]⟩

theorem Registry.course_of_serves (hr : r.Serves ch?) (budget : Nat) (p : Path) :
    Course ch? budget p (r.replay budget p) := by
  rcases replay_cases hr budget p with
    ⟨hall, heq⟩ | ⟨k, x, hx, hpre, ⟨hquiet, hended, heq⟩ | ⟨sink, halarm, heq⟩⟩
  · rw [heq]
    exact .completed hall
  · rw [heq]
    exact .infeasible hx hpre hquiet hended
  · rw [heq]
    exact .errorNode hx hpre halarm

end TaintReplay
