import TaintReplay.Encode.Value
import TaintReplay.Config.Document

/-!
# Writing configurations as data
-/

namespace TaintReplay

/-- Writes the settings of the network taint checker. -/
def NetworkTaintConfig.encode (c : NetworkTaintConfig) : Data :=
  .record
    [ ("taint_sources", .list (c.sources.map .text))
    , ("copy_sinks", .list (c.copySinks.map .text))
    , ("threshold", .nat c.threshold.toNat)
    , ("threshold_bit_width", .nat c.width.toNat) ]

/-- Writes the settings of a replay. -/
def ReplayConfig.encode (c : ReplayConfig) : Data :=
  .record [("max_constraints_per_path", .nat c.budget), ("parallel", .bool c.isParallel)]

/-- Writes a configuration. -/
def Config.encode (c : Config) : Data :=
  .record
    [ ("version", .orNull (fun v => .nat v.toNat) c.version)
    , ("enabled_checkers", .list (c.enabled.map .text))
    , ("network_taint", c.networkTaint.encode)
    , ("replay", c.replay.encode) ]

end TaintReplay
