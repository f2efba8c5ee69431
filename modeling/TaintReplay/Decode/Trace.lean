import TaintReplay.Decode.Value
import TaintReplay.Trace.Basic

/-!
# Reading traces

The point of a step and its event share one map. The event is told by its
name under `event`, or by its position among the three; its fields are taken
as data first, the names that are not an event's included, and read loosely
then. An event that stands on its own is told by its name only.
-/

namespace TaintReplay

/-- Reads a point. -/
def Point.decode? {ν : Type} (F : Format ν) (v : ν) : Option Point := do
  let fields ← F.record? ["function", "line", "column"] v
  let function ← required fields "function" F.text?
  let line ← required fields "line" F.word32?
  let column ← optional fields "column" 0 F.word32?
  return ⟨function, line, column⟩

/-- Reads the name of a function, which may be null. -/
def callee? : Data → Option (Option String)
  | .null => some none
  | d => d.text?.map some

/-- The names of the events, in the order of their positions. -/
def Event.labels : List String := ["call", "access", "branch"]

/-- Reads an event out of the fields it shares with others. -/
def Event.ofFields? (fields : List (String × Data)) : Option Event := do
  match ← required fields "event" (Data.label? labels) with
  | "call" =>
    let callee ← optional fields "callee" none callee?
    let args ← optional fields "args" [] fun d => d.list?.bind (·.mapM (Value.decode? .loose))
    let ret ← optional fields "ret" .unknown (Value.decode? .loose)
    return .call ⟨callee, args, ret⟩
  | "access" =>
    let location ← required fields "location" (Value.decode? .loose)
    let isLoad ← optional fields "is_load" false Data.bool?
    return .access ⟨location, isLoad⟩
  | "branch" =>
    let condition ← required fields "condition" (Term.decode? .loose)
    let taken ← required fields "taken" Data.bool?
    return .branch condition taken
  | _ => none

/-- The names of an event's fields, in order. -/
def Event.fieldNames : String → List String
  | "call" => ["callee", "args", "ret"]
  | "access" => ["location", "is_load"]
  | "branch" => ["condition", "taken"]
  | _ => []

/-- Reads an event on its own: a map, or a list that starts with the name. A
position will not do for the name here. -/
def Event.decode? : Data → Option Event
  | .list (.text name :: rest) => do
    let fields ← (Data.list rest).record? (fieldNames name)
    ofFields? (("event", .text name) :: fields)
  | d => do
    let fields ← d.map? []
    let _ ← required fields "event" Data.text?
    ofFields? fields

/-- Reads a step. -/
def Step.decode? {ν : Type} (F : Format ν) (v : ν) : Option Step := do
  let fields ← F.map? v
  let point ← required fields "point" (Point.decode? F)
  let rest ← (fields.filter (·.1 != "point")).mapM fun (name, v) => (F.data? v).map (name, ·)
  return ⟨point, ← Event.ofFields? rest⟩

/-- Reads a path. -/
def Path.decode? {ν : Type} (F : Format ν) (v : ν) : Option Path := do
  let fields ← F.record? ["id", "steps"] v
  let id ← required fields "id" F.word32?
  let steps ← optional fields "steps" [] (F.listOf? (Step.decode? F))
  return ⟨id, steps⟩

/-- Reads a trace. -/
def Trace.decode? {ν : Type} (F : Format ν) (v : ν) : Option Trace := do
  let fields ← F.record? ["paths"] v
  return ⟨← optional fields "paths" [] (F.listOf? (Path.decode? F))⟩

end TaintReplay
