import TaintReplay.Replay.Outcome

/-!
# Reports — the outcomes of a trace, summed up
-/

namespace TaintReplay

/-- An alarm with the path it was raised on. -/
structure PathAlarm where
  pathId : UInt32
  alarm : Alarm
deriving DecidableEq

/-- The alarms on all paths, and how the paths ended. -/
structure Report where
  alarms : List PathAlarm
  explored : Nat
  infeasible : Nat
  withErrors : Nat
deriving DecidableEq

namespace Report

/-- Sums up outcomes: the alarms in order, the endings counted. -/
def ofOutcomes (outcomes : List Outcome) : Report where
  alarms := outcomes.flatMap fun o => o.alarms.map (PathAlarm.mk o.pathId)
  explored := outcomes.length
  infeasible := outcomes.countP (·.ending = .infeasible)
  withErrors := outcomes.countP (·.ending = .errorNode)

/-- How many alarms were raised at a kind of sink. -/
def countOf (r : Report) (sink : Sink) : Nat :=
  r.alarms.countP (·.alarm.finding.sink = sink)

/-- Whether there is no alarm. -/
def isClean (r : Report) : Bool := r.alarms.isEmpty

end Report

end TaintReplay
