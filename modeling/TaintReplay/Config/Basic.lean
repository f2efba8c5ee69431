import TaintReplay.Check.NetworkTaint
import TaintReplay.Config.Fault

/-!
# Configurations

A configuration names the checkers to enable, the functions and the threshold
of the network taint checker, and the budget of a replay. `Config.validate`
goes through it in that order and reports the first fault.
-/

namespace TaintReplay

/-- What the network taint checker is set to. -/
structure NetworkTaintConfig where
  sources : List String := NetworkTaint.defaultSources
  copySinks : List String := NetworkTaint.defaultCopySinks
  threshold : UInt64 := 5000
  width : UInt32 := 32
deriving DecidableEq

/-- What a replay is set to. -/
structure ReplayConfig where
  budget : Nat := 64
  isParallel : Bool := true
deriving DecidableEq

/-- A configuration. The default values are those of a document that leaves
the fields out, the version excepted. -/
structure Config where
  version : Option UInt32 := some 1
  enabled : List String := [NetworkTaint.name]
  networkTaint : NetworkTaintConfig := {}
  replay : ReplayConfig := {}
deriving DecidableEq

/-- The checkers there are. -/
def knownCheckers : List String := [NetworkTaint.name]

/-! ## Names -/

/-- Whether the character may start a function name. -/
def startsIdentifier (c : Char) : Bool := c.isAlpha || c == '_'

/-- Whether the text is a function name: letters, digits and underscores,
a digit not in front. -/
def isIdentifier (s : String) : Bool :=
  match s.toList with
  | [] => false
  | c :: cs => startsIdentifier c && cs.all fun c => startsIdentifier c || c.isDigit

/-- Checks a list of function names: there must be one, and each must be
one. -/
def validateNames (field : String) (names : List String) : Except ConfigFault Unit :=
  if names.isEmpty then .error (.emptyList field)
  else
    match names.find? (!isIdentifier ·) with
    | some name => .error (.invalidName field name)
    | none => .ok ()

/-- Checks that a number lies in a range. -/
def validateRange (field : String) (value least greatest : Nat) (hint : String) :
    Except ConfigFault Unit :=
  if least ≤ value ∧ value ≤ greatest then .ok ()
  else .error (.outOfRange field value least greatest hint)

namespace NetworkTaintConfig

/-- The greatest threshold at the width. All its bits are set; with 63 bits or
more it is the greatest signed integer. -/
def greatestThreshold (width : UInt32) : UInt64 :=
  if h : 63 ≤ width then Int64.maxValue.toUInt64 else Word.shiftUp 1 width (by grind) - 1

/-- Checks the names, the width, and the threshold at that width. -/
def validate (c : NetworkTaintConfig) : Except ConfigFault Unit := do
  validateNames "taint_sources" c.sources
  validateNames "copy_sinks" c.copySinks
  validateRange "threshold_bit_width" c.width.toNat 1 64 "the threshold is a machine integer"
  validateRange "threshold" c.threshold.toNat 1 (greatestThreshold c.width).toNat
    "must be positive and fit in threshold_bit_width bits"

/-- The configuration with one more source, which comes last. -/
def withSource (c : NetworkTaintConfig) (name : String) : NetworkTaintConfig :=
  { c with sources := c.sources ++ [name] }

/-- The configuration with another threshold. -/
def withThreshold (c : NetworkTaintConfig) (threshold : UInt64) : NetworkTaintConfig :=
  { c with threshold }

/-- The checker that is set so. -/
def checker (c : NetworkTaintConfig) : NetworkTaint where
  sources := .ofList c.sources
  copySinks := .ofList c.copySinks
  threshold := ⟨c.threshold, c.width⟩

end NetworkTaintConfig

namespace ReplayConfig

/-- The greatest budget. -/
def greatestBudget : Nat := 4096

/-- Checks the budget. -/
def validate (c : ReplayConfig) : Except ConfigFault Unit :=
  validateRange "max_constraints_per_path" c.budget 1 greatestBudget
    "the solver needs a finite, non-zero budget"

end ReplayConfig

namespace Config

/-- Whether a checker is enabled. -/
def isEnabled (c : Config) (name : String) : Bool := c.enabled.contains name

/-- Checks the version. -/
def validateVersion (version : Option UInt32) : Except ConfigFault Unit :=
  match version with
  | none => .error .missingVersion
  | some v => if readableVersions.contains v.toNat then .ok () else .error (.unsupportedVersion v)

/-- Checks that the enabled checkers are known. -/
def validateEnabled (enabled : List String) : Except ConfigFault Unit :=
  match enabled.find? (!knownCheckers.contains ·) with
  | some name => .error (.unknown name knownCheckers)
  | none => .ok ()

/-- Checks a configuration, and reports the first fault. -/
def validate (c : Config) : Except ConfigFault Unit := do
  validateVersion c.version
  validateEnabled c.enabled
  c.networkTaint.validate
  c.replay.validate

end Config

end TaintReplay
