import TaintReplay.Config.Fault

/-!
# Errors
-/

namespace TaintReplay

/-- Why an analysis cannot be done. -/
inductive Error where
  /-- A trace whose paths cannot be told apart, or the like. -/
  | trace (reason : String)
  | duplicateChecker (name : String)
  /-- A file whose name does not tell its notation. -/
  | unsupportedFormat (name : String)
  | config (fault : ConfigFault)
  /-- A text that is not JSON, or not of the expected shape. -/
  | json
  /-- A text that is not YAML, or not of the expected shape. -/
  | yaml
  /-- A file that is missing or is no text. -/
  | file
deriving DecidableEq

namespace Error

/-- What is said of an error. -/
def message : Error → String
  | trace reason => "Trace error: " ++ reason
  | duplicateChecker name => "Checker '" ++ name ++ "' is already registered"
  | unsupportedFormat name =>
    "Unsupported trace format '" ++ name ++ "'. Expected .json, .yaml or .yml"
  | config fault => "Configuration error: " ++ fault.message
  | json => "Malformed JSON"
  | yaml => "Malformed YAML"
  | file => "The file cannot be read"

end Error

end TaintReplay
