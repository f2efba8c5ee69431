import TaintReplay.Config.Document
import TaintReplay.Replay.Report
import TaintReplay.Trace.Document

/-!
# The analysis

An `Analyzer` is a configuration without a fault together with the checkers it
enables. It replays traces, each path on its own, and sums up the outcomes;
whether paths are replayed one after the other or side by side cannot be told
from the report.
-/

namespace TaintReplay

/-- A configuration put to work. -/
structure Analyzer where
  config : Config
  registry : Registry Context

namespace Analyzer

/-- The analyzer of a configuration, unless that has a fault. -/
def ofConfig (c : Config) : Except Error Analyzer :=
  match c.validate with
  | .error fault => .error (.config fault)
  | .ok () =>
    if c.isEnabled NetworkTaint.name then
      match c.networkTaint.checker.register? .empty with
      | some registry => .ok ⟨c, registry⟩
      | none => .error (.duplicateChecker NetworkTaint.name)
    else .ok ⟨c, .empty⟩

/-- The analyzer of the configuration in a file with the given content, if
there is one. -/
def ofConfigFile (content : Option ByteArray) : Except Error Analyzer :=
  match content.bind String.fromUTF8? with
  | none => .error (.config .unreadable)
  | some text =>
    match Config.ofYaml text with
    | .error fault => .error (.config fault)
    | .ok c => ofConfig c

/-- The outcome of a path. -/
def replay (a : Analyzer) (p : Path) : Outcome := a.registry.replay a.config.replay.budget p

/-- The report on a trace. -/
def analyze (a : Analyzer) (t : Trace) : Report := .ofOutcomes (t.paths.map a.replay)

/-- The report on the trace in a file. -/
def analyzeFile (a : Analyzer) (name : String) (content : Option ByteArray) :
    Except Error Report :=
  (Trace.ofFile name content).map a.analyze

end Analyzer

end TaintReplay
