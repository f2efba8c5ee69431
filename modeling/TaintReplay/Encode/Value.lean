import TaintReplay.Decode.Value

/-!
# Writing values

Each value is written the way it is read, in the fullest form: every field
there, every alternative under its name.
-/

namespace TaintReplay

/-- A natural number. -/
def Data.nat (n : Nat) : Data := .int n

/-- An alternative with what it holds. -/
def Data.tagged (name : String) (d : Data) : Data := .record [(name, d)]

/-- A value, or null. -/
def Data.orNull {α : Type} (encode : α → Data) : Option α → Data
  | some a => encode a
  | none => .null

/-- Writes a test. -/
def Comparison.encode (c : Comparison) : Data := .text c.label

/-- Writes a symbol. -/
def Symbol.encode (s : Symbol) : Data := .nat s.id.toNat

/-- Writes a term. -/
def Term.encode : Term → Data
  | int v => .tagged "concrete_int" (.int v.toInt)
  | symbol s => .tagged "symbol" s.encode
  | compare lhs op rhs =>
    .tagged "compare" (.record [("lhs", lhs.encode), ("op", op.encode), ("rhs", rhs.encode)])

mutual

/-- Writes a region. -/
def Region.encode : Region → Data
  | .var name => .tagged "var" (.record [("name", .text name)])
  | .symbolic s => .tagged "symbolic" (.record [("symbol", s.encode)])
  | .element base index =>
    .tagged "element" (.record [("base", base.encode), ("index", index.encode)])

/-- Writes a value. -/
def Value.encode : Value → Data
  | .number t => .tagged "non_loc" t.encode
  | .pointer r => .tagged "loc" (.tagged "region" r.encode)
  | .null => .tagged "loc" (.text "null")
  | .unknown => .text "unknown"
  | .undefined => .text "undefined"

end

/-- Writes a condition. -/
def Condition.encode (c : Condition) : Data :=
  .record [("symbol", c.symbol.encode), ("op", c.op.encode), ("bound", .int c.bound.toInt)]

end TaintReplay
