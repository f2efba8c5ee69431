import TaintReplay.Proofs.Checker
import Mathlib.Data.List.Nodup
/-!
# Contexts, however they are driven — one report to a point and a sink

A replay is not the only way to use a context. It may be moved to any point at any
time, put in any state, asked for error nodes, and handed to the checker, again and
again and past its first error node. What may be done is an `Action`. The checker's own
reaction to a notice is an action too, and asks for an error node where it objects
(`request?`); what any action leaves of the marks of a context, the error nodes and the
alarms, is told in one place (`marks_act`).

A checker may also be told through a registry, which may hold others. A handler then
stands for a list of actions, which it may choose by all it sees (`Plan`), so that a
run of commands comes down to the actions done in its course
(`drive_eq_perform`). `orderly_perform` says what holds of them all.
-/

namespace TaintReplay

variable {ch : NetworkTaint}

/-- The sink at which a notice makes the checker ask for an error node. -/
def NetworkTaint.sink? (ch : NetworkTaint) (st : PathState) : Notice → Option Sink
  | .preCall call => ch.alarm? st (.call call)
  | .location a => ch.alarm? st (.access a)
  | .postCall _ => none

namespace Context

/-- What can be done to a context. -/
inductive Action where
  | moveTo (point : Point)
  | transition (state : PathState)
  /-- An error node is asked for, in the given state. -/
  | generate (state : PathState) (tag : String)
  /-- The checker is given a notice. -/
  | notify (n : Notice)

variable {c d : Context} {a : Action} {as : List Action}

/-- The context after an action. -/
def act (ch : NetworkTaint) (c : Context) : Action → Context
  | .moveTo point => c.moveTo point
  | .transition state => c.transition state
  | .generate state tag => ((c.generate state tag).map Prod.snd).getD c
  | .notify n => ch.react n c

/-- The context after some actions. -/
def perform (ch : NetworkTaint) (as : List Action) (c : Context) : Context := as.foldl (act ch) c

theorem perform_append (as bs : List Action) (c : Context) :
    perform ch (as ++ bs) c = perform ch bs (perform ch as c) :=
  List.foldl_append

theorem perform_concat (as : List Action) (a : Action) (c : Context) :
    perform ch (as ++ [a]) c = (perform ch as c).act ch a :=
  perform_append as [a] c

/-- The error node that an action asks for: the state, and the tag. -/
def request? (ch : NetworkTaint) (c : Context) : Action → Option (PathState × String)
  | .generate state tag => some (state, tag)
  | .notify n => (ch.sink? c.state n).map fun sink => (c.state, sink.tag)
  | _ => none

/-- The error node that an action asks for and is granted. -/
def granted? (ch : NetworkTaint) (c : Context) (a : Action) : Option ErrorNode :=
  (c.request? ch a).bind fun (state, tag) => (c.generate state tag).map Prod.fst

/-! ## What an action leaves -/

/-- **The marks of a context after an action.** Where no error node is asked for they are
as before, and so is everything where it is refused. A node that is granted stands at
the current point and is a new one; it sinks the path, and if the checker asked, there
is an alarm for it. -/
inductive Marks (ch : NetworkTaint) (c : Context) (a : Action) : Context → Prop
  | untouched {d : Context} (hnone : c.request? ch a = none) (hnodes : d.nodes = c.nodes)
      (halarms : d.alarms = c.alarms) (hsunk : d.sunk = c.sunk) : Marks ch c a d
  | refused {st : PathState} {tag : String} (hsome : c.request? ch a = some (st, tag))
      (hold : ⟨c.point, tag⟩ ∈ c.nodes) : Marks ch c a c
  | granted {st : PathState} {tag : String} {d : Context}
      (hsome : c.request? ch a = some (st, tag)) (hnew : ⟨c.point, tag⟩ ∉ c.nodes)
      (hnodes : d.nodes = ⟨c.point, tag⟩ :: c.nodes) (hsunk : d.sunk = true)
      (halarms : d.alarms = c.alarms ∨ ∃ sink : Sink, tag = sink.tag ∧
        d.alarms = c.alarms ++ [⟨⟨c.point, tag⟩, .ofSink NetworkTaint.name sink c.point⟩]) :
      Marks ch c a d

theorem generate_of_mem {st : PathState} {tag : String} (h : ⟨c.point, tag⟩ ∈ c.nodes) :
    c.generate st tag = none := by
  rw [generate, if_pos (by simpa using h)]

theorem generate_of_not_mem {st : PathState} {tag : String} (h : ⟨c.point, tag⟩ ∉ c.nodes) :
    c.generate st tag = some (⟨c.point, tag⟩,
      { c with state := st, sunk := true, nodes := ⟨c.point, tag⟩ :: c.nodes }) := by
  rw [generate, if_neg (by simpa using h)]

/-- Told of a call or an access, the checker looks for an alarm; told of the end of a
call, it changes the state at most. -/
theorem react_eq (ch : NetworkTaint) (n : Notice) (c : Context) :
    ch.react n c = c.heard (ch.sink? c.state n) ∨
      ch.sink? c.state n = none ∧ ∃ st, ch.react n c = c.transition st := by
  cases n with
  | preCall call => exact Or.inl (NetworkTaint.preCall_eq call)
  | location access => exact Or.inl (NetworkTaint.location_eq access)
  | postCall call => exact Or.inr ⟨rfl, _, NetworkTaint.postCall_eq call⟩

/-- Looking for an alarm leaves the marks it should. -/
theorem marks_heard (ch : NetworkTaint) (c : Context) (n : Notice) :
    Marks ch c (.notify n) (c.heard (ch.sink? c.state n)) := by
  cases hsink : ch.sink? c.state n with
  | none => exact .untouched (by simp [request?, hsink]) rfl rfl rfl
  | some sink =>
    have hrequest : c.request? ch (.notify n) = some (c.state, sink.tag) := by
      simp [request?, hsink]
    by_cases hmem : (⟨c.point, sink.tag⟩ : ErrorNode) ∈ c.nodes
    · rw [heard, generate_of_mem hmem]
      exact .refused hrequest hmem
    · rw [heard, generate_of_not_mem hmem]
      exact .granted hrequest hmem rfl rfl (Or.inr ⟨sink, rfl, rfl⟩)

/-- **Every action leaves the marks it should.** -/
theorem marks_act (ch : NetworkTaint) (c : Context) (a : Action) : Marks ch c a (c.act ch a) := by
  cases a with
  | moveTo point => exact .untouched rfl rfl rfl rfl
  | transition state => exact .untouched rfl rfl rfl rfl
  | generate state tag =>
    by_cases hmem : (⟨c.point, tag⟩ : ErrorNode) ∈ c.nodes
    · have hact : c.act ch (.generate state tag) = c := by
        rw [act, generate_of_mem hmem]
        rfl
      rw [hact]
      exact .refused rfl hmem
    · have hact : c.act ch (.generate state tag) =
          { c with state, sunk := true, nodes := ⟨c.point, tag⟩ :: c.nodes } := by
        rw [act, generate_of_not_mem hmem]
        rfl
      rw [hact]
      exact .granted rfl hmem rfl rfl (Or.inl rfl)
  | notify n =>
    rw [act]
    obtain hreact | ⟨hnone, st, hreact⟩ := react_eq ch n c
    · rw [hreact]
      exact marks_heard ch c n
    · rw [hreact]
      exact .untouched (by simp [request?, hnone]) rfl rfl rfl

/-- **An action sinks a path if it is granted an error node**, and in no other way. -/
theorem sunk_act_iff :
    (c.act ch a).sunk = true ↔ c.sunk = true ∨ (c.granted? ch a).isSome := by
  have hmarks := marks_act ch c a
  generalize c.act ch a = d at hmarks
  cases hmarks with
  | untouched hnone _ _ hsunk => simp [granted?, hnone, hsunk]
  | refused hsome hold => simp [granted?, hsome, generate_of_mem hold]
  | granted hsome hnew _ hsunk _ => simp [granted?, hsome, generate_of_not_mem hnew, hsunk]

/-- **A refused error node leaves everything as it was.** -/
theorem act_eq_of_refused (hasked : (c.request? ch a).isSome) (h : c.granted? ch a = none) :
    c.act ch a = c := by
  have hmarks := marks_act ch c a
  generalize c.act ch a = d at hmarks
  cases hmarks with
  | untouched hnone _ _ _ => simp [hnone] at hasked
  | refused _ _ => rfl
  | granted hsome hnew _ _ _ => simp [granted?, hsome, generate_of_not_mem hnew] at h

/-- An alarm that was not there before stands at the current point, under the tag of its
sink, and its error node is a new one. -/
theorem alarms_act (ch : NetworkTaint) (c : Context) (a : Action) :
    (c.act ch a).alarms = c.alarms ∨ ∃ alarm, (c.act ch a).alarms = c.alarms ++ [alarm] ∧
      alarm.node ∉ c.nodes ∧ alarm.node = ⟨c.point, alarm.finding.sink.tag⟩ ∧
        alarm.finding.point = c.point := by
  have hmarks := marks_act ch c a
  generalize c.act ch a = d at hmarks
  cases hmarks with
  | untouched _ _ halarms _ => exact Or.inl halarms
  | refused _ _ => exact Or.inl rfl
  | granted _ hnew _ _ halarms =>
    obtain halarms | ⟨sink, rfl, halarms⟩ := halarms
    · exact Or.inl halarms
    · exact Or.inr ⟨_, halarms, hnew, rfl, rfl⟩

/-- The nodes that are known stay known, and those of new alarms are. -/
theorem nodes_act (ch : NetworkTaint) (c : Context) (a : Action) :
    (∀ node ∈ c.nodes, node ∈ (c.act ch a).nodes) ∧
      ∀ alarm ∈ (c.act ch a).alarms, alarm ∈ c.alarms ∨ alarm.node ∈ (c.act ch a).nodes := by
  have hmarks := marks_act ch c a
  generalize c.act ch a = d at hmarks
  cases hmarks with
  | untouched _ hnodes halarms _ =>
    rw [hnodes, halarms]
    exact ⟨fun _ => id, fun _ => Or.inl⟩
  | refused _ _ => exact ⟨fun _ => id, fun _ => Or.inl⟩
  | granted _ _ hnodes _ halarms =>
    rw [hnodes]
    refine ⟨fun node => List.mem_cons_of_mem _, fun alarm hmem => ?_⟩
    obtain halarms | ⟨sink, -, halarms⟩ := halarms
    · exact Or.inl (halarms ▸ hmem)
    · rw [halarms, List.mem_append, List.mem_singleton] at hmem
      obtain hold | rfl := hmem
      · exact Or.inl hold
      · exact Or.inr (List.mem_cons_self ..)

/-! ## What many actions leave -/

/-- A context before anything is done to it. -/
def fresh (pathId : UInt32) (state : PathState) : Context := { pathId, state }

/-- **What holds of the marks at any time**: each alarm has a node of its own, and all
these nodes are known. -/
structure Sound (c : Context) : Prop where
  distinct : (c.alarms.map Alarm.node).Nodup
  known : ∀ alarm ∈ c.alarms, alarm.node ∈ c.nodes

theorem Sound.act (h : c.Sound) (a : Action) : (c.act ch a).Sound := by
  obtain ⟨hkept, hknown⟩ := nodes_act ch c a
  refine ⟨?_, fun alarm hmem => ?_⟩
  · obtain halarms | ⟨alarm, halarms, hnew, -⟩ := alarms_act ch c a
    · rw [halarms]
      exact h.distinct
    · -- the node of the new alarm was not known, those of the others were
      rw [halarms, List.map_append, List.map_singleton, List.nodup_append]
      refine ⟨h.distinct, List.nodup_singleton _, fun node hnode _ hlast heq => hnew ?_⟩
      obtain ⟨earlier, hmem, rfl⟩ := List.mem_map.1 hnode
      rw [List.mem_singleton.1 hlast] at heq
      exact heq ▸ h.known earlier hmem
  · obtain hold | hnode := hknown alarm hmem
    · exact hkept _ (h.known alarm hold)
    · exact hnode

/-- The action is done in the course of some actions, in the context given. -/
def Occurs (ch : NetworkTaint) (c₀ : Context) (as : List Action) (c : Context) (a : Action) :
    Prop :=
  ∃ before after, as = before ++ a :: after ∧ c = perform ch before c₀

/-- **Actions that keep a context in order.** The alarms have nodes of their own, so that
there is at most one for a point and a sink; each was raised by an action at the point
that was current then, under the tag of its sink. The path is sunk if and only if an
action was granted an error node, and one that was refused left everything as it
was. -/
structure Orderly (ch : NetworkTaint) (c₀ : Context) (as : List Action) : Prop where
  distinct : ((perform ch as c₀).alarms.map Alarm.node).Nodup
  onePerSink : ((perform ch as c₀).alarms.map fun alarm =>
    (alarm.node.point, alarm.finding.sink)).Nodup
  raised : ∀ alarm ∈ (perform ch as c₀).alarms, ∃ c a, Occurs ch c₀ as c a ∧
    (c.act ch a).alarms = c.alarms ++ [alarm] ∧ alarm.node.point = c.point ∧
      alarm.finding.point = c.point ∧ alarm.node.tag = alarm.finding.sink.tag
  sunk_iff : (perform ch as c₀).sunk = true ↔
    ∃ c a, Occurs ch c₀ as c a ∧ (c.granted? ch a).isSome
  refused : ∀ c a, Occurs ch c₀ as c a → (c.request? ch a).isSome → c.granted? ch a = none →
    c.act ch a = c

variable {c₀ : Context}

/-- What is done in the course of some actions and one more. -/
theorem occurs_concat_iff {x : Action} :
    Occurs ch c₀ (as ++ [x]) c a ↔ Occurs ch c₀ as c a ∨ c = perform ch as c₀ ∧ a = x := by
  constructor
  · rintro ⟨before, after, has, hc⟩
    obtain rfl | ⟨after, y, rfl⟩ := List.eq_nil_or_concat after
    · obtain ⟨rfl, hx⟩ := List.append_inj' has rfl
      cases hx
      exact Or.inr ⟨hc, rfl⟩
    · rw [List.concat_eq_append, ← List.cons_append, ← List.append_assoc] at has
      obtain ⟨rfl, -⟩ := List.append_inj' has rfl
      exact Or.inl ⟨before, after, rfl, hc⟩
  · rintro (⟨before, after, rfl, hc⟩ | ⟨hc, rfl⟩)
    · exact ⟨before, after ++ [x], by simp, hc⟩
    · exact ⟨as, [], rfl, hc⟩

theorem sound_perform (ch : NetworkTaint) (pathId : UInt32) (state : PathState) (as : List Action) :
    (perform ch as (fresh pathId state)).Sound := by
  induction as using List.reverseRecOn with
  | nil => exact ⟨List.nodup_nil, nofun⟩
  | append_singleton as x ih =>
    rw [perform_concat]
    exact ih.act x

/-- Every alarm was raised by an action, where the context was then. -/
theorem raised_perform (ch : NetworkTaint) (pathId : UInt32) (state : PathState)
    (as : List Action) :
    ∀ alarm ∈ (perform ch as (fresh pathId state)).alarms,
      ∃ c a, Occurs ch (fresh pathId state) as c a ∧
        (c.act ch a).alarms = c.alarms ++ [alarm] ∧ alarm.node.point = c.point ∧
          alarm.finding.point = c.point ∧ alarm.node.tag = alarm.finding.sink.tag := by
  induction as using List.reverseRecOn with
  | nil => exact nofun
  | append_singleton as x ih =>
    have hearlier : ∀ alarm ∈ (perform ch as (fresh pathId state)).alarms,
        ∃ c a, Occurs ch (fresh pathId state) (as ++ [x]) c a ∧
          (c.act ch a).alarms = c.alarms ++ [alarm] ∧ alarm.node.point = c.point ∧
            alarm.finding.point = c.point ∧ alarm.node.tag = alarm.finding.sink.tag := by
      intro alarm hmem
      obtain ⟨c, a, hoccurs, hraised⟩ := ih alarm hmem
      exact ⟨c, a, occurs_concat_iff.2 (Or.inl hoccurs), hraised⟩
    rw [perform_concat]
    intro alarm hmem
    obtain halarms | ⟨last, halarms, -, hnode, hpoint⟩ :=
      alarms_act ch (perform ch as (fresh pathId state)) x
    · exact hearlier alarm (halarms ▸ hmem)
    · rw [halarms, List.mem_append, List.mem_singleton] at hmem
      obtain hold | rfl := hmem
      · exact hearlier alarm hold
      · exact ⟨_, x, occurs_concat_iff.2 (Or.inr ⟨rfl, rfl⟩), halarms, by rw [hnode], hpoint,
          by rw [hnode]⟩

/-- A path is sunk by the error nodes that were granted. -/
theorem sunk_perform_iff (pathId : UInt32) (state : PathState) (as : List Action) :
    (perform ch as (fresh pathId state)).sunk = true ↔
      ∃ c a, Occurs ch (fresh pathId state) as c a ∧ (c.granted? ch a).isSome := by
  induction as using List.reverseRecOn with
  | nil =>
    refine iff_of_false (by simp [perform, fresh]) ?_
    rintro ⟨c, a, ⟨before, after, has, -⟩, -⟩
    simp at has
  | append_singleton as x ih =>
    rw [perform_concat, sunk_act_iff, ih]
    constructor
    · rintro (⟨c, a, hoccurs, hgranted⟩ | hgranted)
      · exact ⟨c, a, occurs_concat_iff.2 (Or.inl hoccurs), hgranted⟩
      · exact ⟨_, x, occurs_concat_iff.2 (Or.inr ⟨rfl, rfl⟩), hgranted⟩
    · rintro ⟨c, a, hoccurs, hgranted⟩
      obtain hearlier | ⟨rfl, rfl⟩ := occurs_concat_iff.1 hoccurs
      · exact Or.inl ⟨c, a, hearlier, hgranted⟩
      · exact Or.inr hgranted

/-- **Whatever is done to a fresh context keeps it in order.** -/
theorem orderly_perform (pathId : UInt32) (state : PathState) (as : List Action) :
    Orderly ch (fresh pathId state) as := by
  have hraised := raised_perform ch pathId state as
  have hdistinct := (sound_perform ch pathId state as).distinct
  refine ⟨hdistinct, ?_, hraised, sunk_perform_iff pathId state as,
    fun c a _ hasked h => act_eq_of_refused hasked h⟩
  -- the node of an alarm is told by its point and its sink
  refine List.Nodup.of_map (fun key : Point × Sink => (⟨key.1, key.2.tag⟩ : ErrorNode)) ?_
  rw [List.map_map]
  convert hdistinct using 1
  refine List.map_congr_left fun alarm hmem => ?_
  obtain ⟨c, a, -, -, -, -, htag⟩ := hraised alarm hmem
  simp [← htag]

/-! ## Registries with other checkers in them -/

/-- What a handler does to a context: some actions, chosen by all it is told. -/
abbrev Plan := Notice → Context → List Action

/-- The handler that follows a plan. -/
def Plan.run (ch : NetworkTaint) (p : Plan) : Notice → Context → Context :=
  fun n c => perform ch (p n c) c

/-- The plan of the checker's own handler for a kind: the checker is given the notices of that
kind. -/
def relay (kind : EventKind) : Plan := fun n _ => if n.kind = kind then [.notify n] else []

theorem relay_run (ch : NetworkTaint) (kind : EventKind) :
    (relay kind).run ch = ch.respond kind := by
  funext n c
  rw [Plan.run, relay]
  split
  · rename_i hkind
    subst hkind
    exact (ch.respond_kind n c).symm
  · rename_i hkind
    exact (ch.respond_of_ne hkind c).symm

/-- **A registry with the checker in it**, and with other checkers whose handlers follow
plans of their own. -/
structure Planned (ch : NetworkTaint) where
  registry : Registry Context
  plans : EventKind → List Plan
  follows : ∀ k, registry.handlers k = (plans k).map (Plan.run ch)
  registered : ∀ k, relay k ∈ plans k

/-- The actions of handlers that follow their plans one after another. -/
def actionsOf (ch : NetworkTaint) (n : Notice) : List Plan → Context → List Action
  | [], _ => []
  | p :: ps, c => p n c ++ actionsOf ch n ps (p.run ch n c)

theorem foldl_run_eq_perform (n : Notice) (ps : List Plan) (c : Context) :
    (ps.map (Plan.run ch)).foldl (fun c run => run n c) c = perform ch (actionsOf ch n ps c) c := by
  induction ps generalizing c with
  | nil => rfl
  | cons p ps ih =>
    rw [List.map_cons, List.foldl_cons, ih, actionsOf, perform_append]
    rfl

/-- **Registering the checker among others** gives such a registry. -/
def Planned.ofRegister {r₀ r : Registry Context} {plans : EventKind → List Plan}
    (hfollows : ∀ k, r₀.handlers k = (plans k).map (Plan.run ch))
    (h : ch.register? r₀ = some r) : Planned ch where
  registry := r
  plans k := plans k ++ [relay k]
  follows k := by
    rw [NetworkTaint.register?, Registry.add?] at h
    split at h
    · cases h
    · cases h
      -- one handler for each kind of notice, filed behind those that were there
      have hfiled : ∀ k, (ch.handlers.foldl Registry.file r₀.handlers) k =
          r₀.handlers k ++ [ch.respond k] := by
        intro k
        cases k <;> rfl
      refine (hfiled k).trans ?_
      rw [hfollows, List.map_append, List.map_singleton, relay_run]
  registered k := by simp

/-- So there is the one with the checker and no other. -/
instance : Inhabited (Planned ch) :=
  ⟨@Planned.ofRegister ch .empty _ (fun _ => []) (fun _ => rfl) rfl⟩

/-! ## Commands -/

/-- What can be done with a context, the checker and registries. -/
inductive Command (ch : NetworkTaint) where
  | act (a : Action)
  | dispatch (r : Planned ch) (n : Notice)

/-- The context after a command. -/
def obey (c : Context) : Command ch → Context
  | .act a => c.act ch a
  | .dispatch r n => r.registry.dispatch n c

/-- The context after some commands. -/
def drive (cmds : List (Command ch)) (c : Context) : Context := cmds.foldl obey c

/-- The actions that a command comes to. -/
def actions (c : Context) : Command ch → List Action
  | .act a => [a]
  | .dispatch r n => actionsOf ch n (r.plans n.kind) c

/-- The actions done in the course of some commands. -/
def course : List (Command ch) → Context → List Action
  | [], _ => []
  | cmd :: cmds, c => c.actions cmd ++ course cmds (c.obey cmd)

theorem obey_eq_perform (c : Context) (cmd : Command ch) :
    c.obey cmd = perform ch (c.actions cmd) c := by
  cases cmd with
  | act a => rfl
  | dispatch r n =>
    rw [obey, Registry.dispatch, r.follows]
    exact foldl_run_eq_perform n _ c

/-- **Commands come down to the actions done in their course.** -/
theorem drive_eq_perform (cmds : List (Command ch)) (c : Context) :
    drive cmds c = perform ch (course cmds c) c := by
  induction cmds generalizing c with
  | nil => rfl
  | cons cmd cmds ih =>
    rw [course, perform_append, ← obey_eq_perform, ← ih]
    rfl

/-- **No report is made twice, however a context is driven.** -/
theorem orderly_drive (ch : NetworkTaint) (pathId : UInt32) (state : PathState)
    (cmds : List (Command ch)) :
    drive cmds (fresh pathId state) =
        perform ch (course cmds (fresh pathId state)) (fresh pathId state) ∧
      Orderly ch (fresh pathId state) (course cmds (fresh pathId state)) :=
  ⟨drive_eq_perform cmds _, orderly_perform pathId state _⟩

-- told twice through a registry, and once more at another point
example :
    let copy : Command ({} : NetworkTaintConfig).checker := .dispatch default
      (.preCall { callee := some "memcpy", args := [.null, .null, .number (.symbol ⟨0⟩)] })
    let c := drive [copy, copy, .act (.moveTo ⟨"send", 1, 1⟩), copy]
      (fresh 0 ((PathState.start 1).taint ⟨0⟩))
    c.sunk = true ∧ c.alarms.map (·.node.point) = [.entry, ⟨"send", 1, 1⟩] := by
  decide

end Context

end TaintReplay
