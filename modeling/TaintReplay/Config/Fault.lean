import TaintReplay.Config.Distance

/-!
# Faults of a configuration
-/

namespace TaintReplay

/-- The configuration versions that are understood. -/
def readableVersions : List Nat := [1]

/-- Why a configuration is refused. -/
inductive ConfigFault where
  /-- A number outside the range it may take. -/
  | range (field value allowed hint : String)
  | unknownChecker (name : String) (suggestion : Option String)
  | emptyList (field : String)
  /-- A list entry that is no function name. -/
  | invalidName (field name : String)
  | missingVersion
  | unsupportedVersion (found : UInt32)
  /-- The file is missing or is no text. -/
  | unreadable
  /-- The text is no configuration. -/
  | malformed
deriving DecidableEq

namespace ConfigFault

/-- The fault of a number outside a range, ends included. -/
def outOfRange (field : String) (value least greatest : Int) (hint : String) : ConfigFault :=
  range field (toString value) (toString least ++ "..=" ++ toString greatest) hint

/-- The fault of a name that is none of the known ones. -/
def unknown (name : String) (known : List String) : ConfigFault :=
  unknownChecker name (nearest? name known)

/-- What is said of a fault. -/
def message : ConfigFault → String
  | range field value allowed hint =>
    field ++ " = " ++ value ++ " is outside " ++ allowed ++ ": " ++ hint
  | unknownChecker name suggestion =>
    "Unknown checker '" ++ name ++ "'" ++
      match suggestion with
      | some s => ", did you mean '" ++ s ++ "'?"
      | none => ""
  | emptyList field => field ++ " lists no functions"
  | invalidName field name =>
    field ++ " entry '" ++ name ++ "' is not a function identifier (exact names only, no patterns)"
  | missingVersion => "Configuration has no 'version' key; add 'version: 1'"
  | unsupportedVersion found =>
    "Configuration version " ++ toString found.toNat ++ " is not supported (readable: [" ++
      ", ".intercalate (readableVersions.map toString) ++ "])"
  | unreadable => "Configuration cannot be read"
  | malformed => "Configuration is malformed"

end ConfigFault

end TaintReplay
