/-!
# Program points

A place in a program: a function, a line, a column. Points are ordered by
function name, then by line, then by column; names compare code point by
code point, which is the order of their UTF-8 bytes.
-/

namespace TaintReplay

/-- A place in a program. -/
structure Point where
  function : String
  line : UInt32
  column : UInt32
deriving DecidableEq

namespace Point

/-- Where a path is before its first step. -/
def entry : Point := ⟨"<entry>", 0, 0⟩

/-- Function, then line, then column. -/
instance : Ord Point where
  compare a b :=
    (compare a.function b.function).then ((compare a.line b.line).then (compare a.column b.column))

/-- The points in order, equal ones as they came. -/
def sort (points : List Point) : List Point :=
  points.mergeSort fun a b => (compare a b).isLE

/-- A point is shown with colons between its parts. -/
def text (p : Point) : String :=
  p.function ++ ":" ++ toString p.line.toNat ++ ":" ++ toString p.column.toNat

end Point

end TaintReplay
