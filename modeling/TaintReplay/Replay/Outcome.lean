import TaintReplay.Trace.Basic
import TaintReplay.Check.Registry
import TaintReplay.Replay.Context

/-!
# Replaying a path

A path is replayed step by step from the empty state. Before a step its point
becomes current. A call is announced before and, unless that sank the path,
after; an access is announced; a branch is assumed, and a branch that cannot
be taken ends the replay in the state before it. A path also ends with the
step that sank it.
-/

namespace TaintReplay

/-- How the replay of a path ended. -/
inductive Ending where
  | completed
  | infeasible
  | errorNode
deriving DecidableEq

/-- What the replay of a path came to. -/
structure Outcome where
  pathId : UInt32
  ending : Ending
  /-- The number of steps replayed, the last one included. -/
  steps : Nat
  alarms : List Alarm
deriving DecidableEq

namespace Registry

/-- The context after an event, or nothing if the event is a branch that
cannot be taken. -/
def perform? (r : Registry Context) (e : Event) (c : Context) : Option Context :=
  match e with
  | .call call =>
    let c := r.dispatch (.preCall call) c
    some (if c.sunk then c else r.dispatch (.postCall call) c)
  | .access a => some (r.dispatch (.location a) c)
  | .branch condition taken =>
    let next := c.state.assume condition taken
    if next.feasibility = .infeasible then none else some (c.transition next)

/-- Replays steps, `done` of them being behind already: how the replay ends,
after how many steps in all, and in which context. -/
def run (r : Registry Context) : List Step → Nat → Context → Ending × Nat × Context
  | [], done, c => (.completed, done, c)
  | s :: steps, done, c =>
    let c := c.moveTo s.point
    match r.perform? s.event c with
    | none => (.infeasible, done + 1, c)
    | some c => if c.sunk then (.errorNode, done + 1, c) else r.run steps (done + 1) c

/-- Replays a path from the empty state. -/
def replay (r : Registry Context) (budget : Nat) (p : Path) : Outcome :=
  let (ending, steps, c) := r.run p.steps 0 (.start p.id budget)
  ⟨p.id, ending, steps, c.alarms⟩

end Registry

end TaintReplay
