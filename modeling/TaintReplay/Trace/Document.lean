import TaintReplay.Decode.Trace
import TaintReplay.Error

/-!
# Trace documents

The notation of a trace file is told by what follows the last dot of its
name, in either case; a dot in front of the name does not count. A trace is
accepted only if its paths can be told apart.
-/

namespace TaintReplay

/-- The notations traces are written in. -/
inductive TraceNotation where
  | json
  | yaml
deriving DecidableEq

/-- The last part of a file name that names anything. -/
def baseName? (name : String) : Option (List Char) :=
  let parts := (name.toList.splitOnP (· == '/')).filter fun p => p ≠ [] ∧ p ≠ ['.']
  parts.getLast?.filter (· ≠ ['.', '.'])

/-- What follows the last dot of a name, unless the name starts there. -/
def extension? (name : List Char) : Option (List Char) :=
  let tail := name.reverse.takeWhile (· != '.')
  if tail.length + 1 < name.length then some tail.reverse else none

/-- The notation that a file name tells. -/
def TraceNotation.ofFileName? (name : String) : Option TraceNotation :=
  match (baseName? name).bind extension? with
  | some cs =>
    match String.ofList (cs.map Char.toLower) with
    | "json" => some json
    | "yaml" => some yaml
    | "yml" => some yaml
    | _ => none
  | none => none

/-! ## What is looked at

What a trace does not name is skipped, but for the names beside a point: they
may belong to the event. -/

/-- The part of a point that is looked at. -/
def Point.extent : Yaml.Extent :=
  .fields [("function", .whole), ("line", .whole), ("column", .whole)] .nothing

/-- The part of a step that is looked at. -/
def Step.extent : Yaml.Extent := .fields [("point", Point.extent)] .whole

/-- The part of a path that is looked at. -/
def Path.extent : Yaml.Extent :=
  .fields [("id", .whole), ("steps", .items Step.extent)] .nothing

/-- The part of a trace that is looked at. -/
def Trace.extent : Yaml.Extent := .fields [("paths", .items Path.extent)] .nothing

/-! ## Reading -/

namespace Trace

/-- Refuses a trace with two paths of one identifier. -/
def distinct (t : Trace) : Except Error Trace :=
  match t.repeated? with
  | some id => .error (.trace ("duplicate path id " ++ toString id.toNat))
  | none => .ok t

/-- The trace in a text. -/
def ofText (n : TraceNotation) (text : String) : Except Error Trace :=
  match n with
  | .json =>
    match (Json.read? text).bind (decode? Format.json) with
    | some t => t.distinct
    | none => .error .json
  | .yaml =>
    match (Yaml.read? Trace.extent text).bind (decode? Format.yaml) with
    | some t => t.distinct
    | none => .error .yaml

/-- The trace in a file with the given name and content, if there is one. -/
def ofFile (name : String) (content : Option ByteArray) : Except Error Trace :=
  match TraceNotation.ofFileName? name with
  | none => .error (.unsupportedFormat name)
  | some n =>
    match content.bind String.fromUTF8? with
    | none => .error .file
    | some text => ofText n text

end Trace

end TaintReplay
