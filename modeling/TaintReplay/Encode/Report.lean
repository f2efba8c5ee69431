import TaintReplay.Encode.Trace
import TaintReplay.Decode.Report

/-!
# Writing outcomes and reports
-/

namespace TaintReplay

/-- Writes a kind of sink. -/
def Sink.encode (s : Sink) : Data := .text s.label

/-- Writes an ending. -/
def Ending.encode (e : Ending) : Data := .text e.label

/-- Writes an error node. -/
def ErrorNode.encode (n : ErrorNode) : Data :=
  .record [("point", n.point.encode), ("tag", .text n.tag)]

/-- Writes a finding. -/
def Finding.encode (f : Finding) : Data :=
  .record
    [ ("checker", .text f.checker)
    , ("sink_class", f.sink.encode)
    , ("message", .text f.message)
    , ("point", f.point.encode) ]

/-- The fields of an alarm. -/
def Alarm.fields (a : Alarm) : List (String × Data) :=
  [("node", a.node.encode), ("finding", a.finding.encode)]

/-- Writes an alarm. -/
def Alarm.encode (a : Alarm) : Data := .record a.fields

/-- Writes an outcome. -/
def Outcome.encode (o : Outcome) : Data :=
  .record
    [ ("path_id", .nat o.pathId.toNat)
    , ("termination", o.ending.encode)
    , ("steps_replayed", .nat o.steps)
    , ("reports", .list (o.alarms.map Alarm.encode)) ]

/-- Writes an alarm with its path, the fields of both in one record. -/
def PathAlarm.encode (a : PathAlarm) : Data :=
  .record (("path_id", .nat a.pathId.toNat) :: a.alarm.fields)

/-- Writes a report. -/
def Report.encode (r : Report) : Data :=
  .record
    [ ("reports", .list (r.alarms.map PathAlarm.encode))
    , ("paths_explored", .nat r.explored)
    , ("paths_infeasible", .nat r.infeasible)
    , ("paths_with_errors", .nat r.withErrors) ]

/-- The report as a JSON text. -/
def Report.toJson (r : Report) : String := Json.text r.encode

end TaintReplay
