import TaintReplay.State.Path
import TaintReplay.Check.Finding

/-!
# The context of a replay

What checkers work on while a path is replayed: the state and the point the
path is at, the error nodes generated so far, and the alarms raised. A path
is sunk from its first error node on.
-/

namespace TaintReplay

/-- A path in the course of its replay. -/
structure Context where
  pathId : UInt32
  state : PathState
  point : Point := .entry
  nodes : List ErrorNode := []
  alarms : List Alarm := []
  sunk : Bool := false

namespace Context

/-- A path before its first step. -/
def start (pathId : UInt32) (budget : Nat) : Context :=
  { pathId, state := .start budget }

/-- The context at another point. -/
def moveTo (c : Context) (point : Point) : Context := { c with point }

/-- The context in another state. -/
def transition (c : Context) (state : PathState) : Context := { c with state }

/-- An error node at the current point. A node that was generated before is
refused; a new one sinks the path in the given state. -/
def generate (c : Context) (state : PathState) (tag : String) : Option (ErrorNode × Context) :=
  let node : ErrorNode := ⟨c.point, tag⟩
  if c.nodes.contains node then none
  else some (node, { c with state, sunk := true, nodes := node :: c.nodes })

/-- The context with one more alarm. -/
def raise (c : Context) (a : Alarm) : Context := { c with alarms := c.alarms ++ [a] }

end Context

end TaintReplay
