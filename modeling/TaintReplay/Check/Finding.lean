import TaintReplay.Trace.Point

/-!
# Sinks and findings

A sink is a use of an integer that must be bounded: the size of a copy, or
the index of an element. A finding says at which point which kind of sink was
reached by an operand that is not. It goes with an error node, the mark left
on the path: a point and the tag of the sink, so that a point is marked once
for each kind of sink.
-/

namespace TaintReplay

/-- A use of an integer that must be bounded. -/
inductive Sink where
  | copySize
  | arrayIndex
deriving DecidableEq

namespace Sink

/-- How the kind of sink is called. -/
def text : Sink → String
  | copySize => "copy sink"
  | arrayIndex => "index sink"

/-- The tag of the error nodes at sinks of this kind. -/
def tag : Sink → String
  | copySize => "network-taint.copy-size"
  | arrayIndex => "network-taint.array-index"

/-- What a finding at a sink of this kind says. -/
def message : Sink → String
  | copySize => "Tainted, unconstrained value used as copy size"
  | arrayIndex => "Tainted, unconstrained value used as array index"

end Sink

/-- What a checker has to say about a point. -/
structure Finding where
  checker : String
  sink : Sink
  message : String
  point : Point
deriving DecidableEq

namespace Finding

/-- The finding of a checker at a sink. -/
def ofSink (checker : String) (sink : Sink) (point : Point) : Finding :=
  ⟨checker, sink, sink.message, point⟩

/-- A finding is shown as a line of a compiler's output. -/
def text (f : Finding) : String :=
  f.point.text ++ ": " ++ f.message ++ " [" ++ f.checker ++ "]"

end Finding

/-- The mark an error leaves on a path. -/
structure ErrorNode where
  point : Point
  tag : String
deriving DecidableEq

/-- A finding with the node it was raised at. -/
structure Alarm where
  node : ErrorNode
  finding : Finding
deriving DecidableEq

end TaintReplay
