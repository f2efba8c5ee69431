import TaintReplay.Encode.Value
import TaintReplay.Decode.Trace
import TaintReplay.Notation.Json.Writer

/-!
# Writing traces
-/

namespace TaintReplay

/-- Writes a point. -/
def Point.encode (p : Point) : Data :=
  .record
    [ ("function", .text p.function)
    , ("line", .nat p.line.toNat)
    , ("column", .nat p.column.toNat) ]

/-- The fields of an event, its name first. -/
def Event.fields : Event → List (String × Data)
  | .call c =>
    [ ("event", .text "call")
    , ("callee", .orNull .text c.callee)
    , ("args", .list (c.args.map Value.encode))
    , ("ret", c.ret.encode) ]
  | .access a =>
    [ ("event", .text "access")
    , ("location", a.location.encode)
    , ("is_load", .bool a.isLoad) ]
  | .branch condition taken =>
    [ ("event", .text "branch")
    , ("condition", condition.encode)
    , ("taken", .bool taken) ]

/-- Writes a step, the fields of its event beside its point. -/
def Step.encode (s : Step) : Data := .record (("point", s.point.encode) :: s.event.fields)

/-- Writes a path. -/
def Path.encode (p : Path) : Data :=
  .record [("id", .nat p.id.toNat), ("steps", .list (p.steps.map Step.encode))]

/-- Writes a trace. -/
def Trace.encode (t : Trace) : Data := .record [("paths", .list (t.paths.map Path.encode))]

/-- The trace as a JSON text. -/
def Trace.toJson (t : Trace) : String := Json.text t.encode

end TaintReplay
