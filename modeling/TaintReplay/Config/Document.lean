import TaintReplay.Config.Basic
import TaintReplay.Decode.Format

/-!
# Configuration documents

A configuration is read from YAML: every field but the version may be left
out, and a name that is no field is refused. It is written as a block with a
line for each field and for each list entry. Only names of functions and
checkers are ever written, so that a scalar needs quotes only where it would
read as null or as a truth value.
-/

namespace TaintReplay

/-! ## Reading -/

/-- Reads the settings of the network taint checker. -/
def NetworkTaintConfig.decode? {ν : Type} (F : Format ν) (v : ν) : Option NetworkTaintConfig := do
  let names := ["taint_sources", "copy_sinks", "threshold", "threshold_bit_width"]
  let default : NetworkTaintConfig := {}
  let fields ← F.record? names v
  onlyFields fields names
  let sources ← optional fields "taint_sources" default.sources (F.listOf? F.text?)
  let copySinks ← optional fields "copy_sinks" default.copySinks (F.listOf? F.text?)
  let threshold ← optional fields "threshold" default.threshold F.word64?
  let width ← optional fields "threshold_bit_width" default.width F.word32?
  return { sources, copySinks, threshold, width }

/-- Reads the settings of a replay. -/
def ReplayConfig.decode? {ν : Type} (F : Format ν) (v : ν) : Option ReplayConfig := do
  let names := ["max_constraints_per_path", "parallel"]
  let default : ReplayConfig := {}
  let fields ← F.record? names v
  onlyFields fields names
  let budget ← optional fields "max_constraints_per_path" default.budget F.count?
  let isParallel ← optional fields "parallel" default.isParallel F.bool?
  return { budget, isParallel }

/-- Reads a version, which may be null. -/
def version? {ν : Type} (F : Format ν) (v : ν) : Option (Option UInt32) :=
  if F.isNull v then some none else (F.word32? v).map some

/-- Reads a configuration. -/
def Config.decode? {ν : Type} (F : Format ν) (v : ν) : Option Config := do
  let names := ["version", "enabled_checkers", "network_taint", "replay"]
  let default : Config := {}
  let fields ← F.record? names v
  onlyFields fields names
  let version ← optional fields "version" none (version? F)
  let enabled ← optional fields "enabled_checkers" default.enabled (F.listOf? F.text?)
  let networkTaint ←
    optional fields "network_taint" default.networkTaint (NetworkTaintConfig.decode? F)
  let replay ← optional fields "replay" default.replay (ReplayConfig.decode? F)
  return { version, enabled, networkTaint, replay }

/-- The configuration in a YAML text, if it is one and has no fault. -/
def Config.ofYaml (text : String) : Except ConfigFault Config :=
  match (Yaml.read? .whole text).bind (decode? Format.yaml) with
  | some c => c.validate.map fun _ => c
  | none => .error .malformed

/-! ## Writing -/

namespace Yaml

/-- A name as a scalar: in quotes where it would not be text otherwise. -/
def quoteName (s : String) : String :=
  if isNull s || (bool? s).isSome then "'" ++ s ++ "'" else s

/-- A line with a field and its value. -/
def fieldLine (indent name value : String) : String := indent ++ name ++ ": " ++ value ++ "\n"

/-- The lines of a field that holds a list of names. -/
def listLines (indent name : String) (items : List String) : String :=
  if items.isEmpty then fieldLine indent name "[]"
  else
    indent ++ name ++ ":\n" ++
      String.join (items.map fun s => indent ++ "- " ++ quoteName s ++ "\n")

end Yaml

/-- The configuration as a YAML text. -/
def Config.toYaml (c : Config) : String :=
  let number (n : Nat) : String := toString n
  String.join
    [ Yaml.fieldLine "" "version" (c.version.elim "null" fun v => number v.toNat)
    , Yaml.listLines "" "enabled_checkers" c.enabled
    , "network_taint:\n"
    , Yaml.listLines "  " "taint_sources" c.networkTaint.sources
    , Yaml.listLines "  " "copy_sinks" c.networkTaint.copySinks
    , Yaml.fieldLine "  " "threshold" (number c.networkTaint.threshold.toNat)
    , Yaml.fieldLine "  " "threshold_bit_width" (number c.networkTaint.width.toNat)
    , "replay:\n"
    , Yaml.fieldLine "  " "max_constraints_per_path" (number c.replay.budget)
    , Yaml.fieldLine "  " "parallel" (if c.replay.isParallel then "true" else "false") ]

end TaintReplay
