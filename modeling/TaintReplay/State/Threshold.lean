import TaintReplay.State.Path

/-!
# Thresholds — when an operand is as good as unbounded

A size or an index is dangerous while the path still allows it to exceed a
threshold. `PathState.exceeds` asks that of a state by assuming it: the
answer is yes only if the assumption is certainly feasible, so a value that
is no number, a comparison, and a blurred symbol all count as bounded.
-/

namespace TaintReplay

/-- The size from which an unbounded operand counts, and the width of the
integer it is written in. -/
structure Threshold where
  limit : UInt64 := 5000
  width : UInt32 := 32
deriving DecidableEq

/-- Whether the value may certainly exceed the threshold in the state. -/
def PathState.exceeds (st : PathState) (θ : Threshold) (v : Value) : Bool :=
  match v.number?, (Value.ofWord θ.limit θ.width).number? with
  | some operand, some limit =>
    match (Value.compare .gt operand limit).number? with
    | some query => decide ((st.assume query true).feasibility = .feasible)
    | none => false
  | _, _ => false

end TaintReplay
