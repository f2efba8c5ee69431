import TaintReplay.Decode.Trace
import TaintReplay.Replay.Report

/-!
# Reading outcomes and reports

An outcome holds its alarms whole. In a report each alarm shares one map with
the identifier of its path; as for events, the fields are taken as data first
and read loosely then.
-/

namespace TaintReplay

namespace Sink

/-- The name of the kind of sink in a document. -/
def label : Sink → String
  | copySize => "copy_sink"
  | arrayIndex => "index_sink"

/-- All kinds, in the order of their positions. -/
def all : List Sink := [copySize, arrayIndex]

/-- Reads a kind of sink. -/
def decode? (how : Leniency) (d : Data) : Option Sink :=
  (d.variant? (all.map label)).bind fun (name, payload) =>
    (all.find? (·.label == name)).bind (how.constant? payload)

end Sink

namespace Ending

/-- The name of the ending in a document. -/
def label : Ending → String
  | completed => "completed"
  | infeasible => "infeasible"
  | errorNode => "error_node"

/-- All endings, in the order of their positions. -/
def all : List Ending := [completed, infeasible, errorNode]

/-- Reads an ending. -/
def decode? (d : Data) : Option Ending :=
  (d.variant? (all.map label)).bind fun (name, payload) =>
    (all.find? (·.label == name)).bind (Leniency.strict.constant? payload)

end Ending

/-- Reads an error node. -/
def ErrorNode.decode? (d : Data) : Option ErrorNode := do
  let fields ← d.record? ["point", "tag"]
  let point ← required fields "point" (Point.decode? Format.json)
  let tag ← required fields "tag" Data.text?
  return ⟨point, tag⟩

/-- Reads a finding. -/
def Finding.decode? (how : Leniency) (d : Data) : Option Finding := do
  let fields ← d.record? ["checker", "sink_class", "message", "point"]
  let checker ← required fields "checker" Data.text?
  let sink ← required fields "sink_class" (Sink.decode? how)
  let message ← required fields "message" Data.text?
  let point ← required fields "point" (Point.decode? Format.json)
  return ⟨checker, sink, message, point⟩

/-- Reads an alarm out of the fields of its record. -/
def Alarm.ofFields? (how : Leniency) (fields : List (String × Data)) : Option Alarm := do
  let node ← required fields "node" ErrorNode.decode?
  let finding ← required fields "finding" (Finding.decode? how)
  return ⟨node, finding⟩

/-- Reads an alarm. -/
def Alarm.decode? (d : Data) : Option Alarm :=
  (d.record? ["node", "finding"]).bind (ofFields? .strict)

/-- Reads an outcome. -/
def Outcome.decode? (d : Data) : Option Outcome := do
  let fields ← d.record? ["path_id", "termination", "steps_replayed", "reports"]
  let pathId ← required fields "path_id" Format.json.word32?
  let ending ← required fields "termination" Ending.decode?
  let steps ← required fields "steps_replayed" Format.json.count?
  let alarms ← required fields "reports" (Format.json.listOf? Alarm.decode?)
  return ⟨pathId, ending, steps, alarms⟩

/-- Reads an alarm together with the path it was raised on. -/
def PathAlarm.decode? (d : Data) : Option PathAlarm := do
  let fields ← Format.json.map? d
  let pathId ← required fields "path_id" Format.json.word32?
  let rest ← (fields.filter (·.1 != "path_id")).mapM fun (name, v) =>
    (Format.json.data? v).map (name, ·)
  return ⟨pathId, ← Alarm.ofFields? .loose rest⟩

/-- Reads a report. -/
def Report.decode? (d : Data) : Option Report := do
  let fields ← d.record? ["reports", "paths_explored", "paths_infeasible", "paths_with_errors"]
  let alarms ← required fields "reports" (Format.json.listOf? PathAlarm.decode?)
  let explored ← required fields "paths_explored" Format.json.count?
  let infeasible ← required fields "paths_infeasible" Format.json.count?
  let withErrors ← required fields "paths_with_errors" Format.json.count?
  return ⟨alarms, explored, infeasible, withErrors⟩

/-- The report in a JSON text. -/
def Report.ofJson? (text : String) : Option Report := (Json.read? text).bind decode?

end TaintReplay
