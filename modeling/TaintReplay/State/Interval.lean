import TaintReplay.State.Condition

/-!
# Intervals — ranges of machine integers

An interval has two ends, either of which may be missing. Crossed ends are
allowed and leave nothing inside. Every condition but `!=` is an interval
(`ofCondition?`); a strict bound moves its end by one, and one that has
nowhere to move is the empty interval.
-/

namespace TaintReplay

/-- A range of machine integers, ends included. -/
structure Interval where
  lower : Option Int64
  upper : Option Int64
deriving DecidableEq

namespace Interval

/-- Every integer. -/
def unbounded : Interval := ⟨none, none⟩

/-- From one integer to another. -/
def between (lower upper : Int64) : Interval := ⟨some lower, some upper⟩

/-- An integer and all above it. -/
def atLeast (lower : Int64) : Interval := ⟨some lower, none⟩

/-- An integer and all below it. -/
def atMost (upper : Int64) : Interval := ⟨none, some upper⟩

/-- No integer: the ends are crossed. -/
def empty : Interval := between 1 0

/-- Whether the ends are crossed. -/
def isEmpty : Interval → Bool
  | ⟨some l, some u⟩ => decide (u < l)
  | _ => false

/-- The integer at both ends, if they meet. -/
def point? : Interval → Option Int64
  | ⟨some l, some u⟩ => if l = u then some l else none
  | _ => none

/-- The end both operands allow, by the choice `pick` where both set one. -/
def meetEnd (pick : Int64 → Int64 → Int64) : Option Int64 → Option Int64 → Option Int64
  | some a, some b => some (pick a b)
  | some a, none => some a
  | none, b => b

/-- The integers in both ranges: the greater lower end, the lesser upper
end. -/
def inter (a b : Interval) : Interval :=
  ⟨meetEnd max a.lower b.lower, meetEnd min a.upper b.upper⟩

/-- Whether the integer lies in the range. -/
def contains (i : Interval) (v : Int64) : Bool :=
  i.lower.all (fun l => decide (l ≤ v)) && i.upper.all (fun u => decide (v ≤ u))

/-- The integers a condition allows, when they form a range. -/
def ofCondition? (c : Condition) : Option Interval :=
  match c.op with
  | .eq => some (between c.bound c.bound)
  | .neq => none
  | .lt => some (if c.bound = Int64.minValue then empty else atMost (c.bound - 1))
  | .le => some (atMost c.bound)
  | .gt => some (if c.bound = Int64.maxValue then empty else atLeast (c.bound + 1))
  | .ge => some (atLeast c.bound)

end Interval

end TaintReplay
