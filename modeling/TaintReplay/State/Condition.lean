import TaintReplay.Value.Term

/-!
# Conditions — a symbol held against a constant

The only facts a path records: one symbol, one test, one machine integer.
-/

namespace TaintReplay

/-- The fact that a symbol passes a test against a constant. -/
structure Condition where
  symbol : Symbol
  op : Comparison
  bound : Int64
deriving DecidableEq

namespace Condition

/-- Whether the condition is true of the integer. -/
def holds (c : Condition) (v : Int64) : Bool := c.op.holds v c.bound

/-- The condition true of exactly the other integers. -/
def negate (c : Condition) : Condition := { c with op := c.op.negate }

/-- A condition is shown as a comparison. -/
def text (c : Condition) : String :=
  c.symbol.text ++ " " ++ c.op.sign ++ " " ++ toString c.bound.toInt

@[simp] theorem holds_negate (c : Condition) (v : Int64) : c.negate.holds v = !c.holds v :=
  Comparison.holds_negate ..

end Condition

end TaintReplay
