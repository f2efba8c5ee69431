import TaintReplay.Trace.Point
import TaintReplay.Trace.Event

/-!
# Traces — recorded paths

A trace is a list of paths, each a list of steps at program points. Paths are
told apart by their identifiers: `Trace.repeated?` finds the first path whose
identifier was used before it.
-/

namespace TaintReplay

/-- An event at a program point. -/
structure Step where
  point : Point
  event : Event
deriving DecidableEq

/-- One recorded path. -/
structure Path where
  id : UInt32
  steps : List Step := []
deriving DecidableEq

/-- The recorded paths of a program. -/
structure Trace where
  paths : List Path := []
deriving DecidableEq

/-- The first element that occurs before itself, given what occurred
already. -/
def firstRepeated [BEq α] (seen : List α) : List α → Option α
  | [] => none
  | x :: xs => if seen.contains x then some x else firstRepeated (x :: seen) xs

namespace Trace

/-- The first path identifier that an earlier path has. -/
def repeated? (t : Trace) : Option UInt32 := firstRepeated [] (t.paths.map Path.id)

/-- The number of steps on all paths. -/
def stepCount (t : Trace) : Nat := (t.paths.flatMap Path.steps).length

end Trace

end TaintReplay
