import TaintReplay.State.Interval
import Std.Data.ExtTreeMap

/-!
# Constraints — what a path knows of its symbols

Conditions are recorded until the budget is spent: those that are ranges
narrow the interval of their symbol, those that are `!=` are kept as excluded
integers. A symbol about which something was said that is not recorded, for
want of budget or for want of a condition to record, is **blurred**.

A condition is checked against the record alone. It is infeasible when it
leaves its symbol no integer: the narrowed interval is empty, or is one
integer that is excluded. Otherwise it is feasible, or unknown if its symbol
is blurred.
-/

namespace TaintReplay

/-- What can be said of a condition on a path. -/
inductive Verdict where
  | feasible
  | infeasible
  | unknown
deriving DecidableEq

/-- The record of the conditions on the symbols of a path. -/
structure Constraints where
  intervals : Std.ExtTreeMap Symbol Interval := ∅
  excluded : Std.ExtTreeMap Symbol (Std.ExtTreeSet Int64) := ∅
  blurred : Std.ExtTreeSet Symbol := ∅
  /-- How many conditions are recorded. -/
  count : Nat := 0
  /-- How many may be. -/
  budget : Nat := 64

namespace Constraints

/-- The empty record with the given budget. -/
def withBudget (budget : Nat) : Constraints := { budget }

/-- The range a symbol is known to lie in. -/
def interval (k : Constraints) (s : Symbol) : Interval :=
  k.intervals.getD s .unbounded

/-- The integers a symbol is known not to be. -/
def excludes (k : Constraints) (s : Symbol) (v : Int64) : Bool :=
  (k.excluded.getD s ∅).contains v

/-- Whether something is unrecorded about a symbol. -/
def isBlurred (k : Constraints) (s : Symbol) : Bool := k.blurred.contains s

/-- How many symbols have an interval. -/
def symbolCount (k : Constraints) : Nat := k.intervals.size

/-- Whether the condition leaves its symbol no integer. A `!=` does so only
against an interval that is that one integer. -/
def contradicts (k : Constraints) (c : Condition) : Bool :=
  match Interval.ofCondition? c with
  | none => (k.interval c.symbol).point? == some c.bound
  | some i =>
    let narrowed := (k.interval c.symbol).inter i
    narrowed.isEmpty || narrowed.point?.any (k.excludes c.symbol)

/-- What the record says of a condition. -/
def check (k : Constraints) (c : Condition) : Verdict :=
  if k.contradicts c then .infeasible
  else if k.isBlurred c.symbol then .unknown
  else .feasible

/-- The record with one more condition in it, whatever the budget. -/
def record (k : Constraints) (c : Condition) : Constraints :=
  match Interval.ofCondition? c with
  | some i =>
    { k with
      count := k.count + 1
      intervals := k.intervals.insert c.symbol ((k.interval c.symbol).inter i) }
  | none =>
    { k with
      count := k.count + 1
      excluded := k.excluded.insert c.symbol ((k.excluded.getD c.symbol ∅).insert c.bound) }

/-- The record after a condition: recorded while the budget lasts, and
blurring its symbol from then on. -/
def add (k : Constraints) (c : Condition) : Constraints :=
  if k.count < k.budget then k.record c
  else { k with blurred := k.blurred.insert c.symbol }

/-- The record with the symbols blurred. -/
def blur (k : Constraints) (symbols : List Symbol) : Constraints :=
  { k with blurred := k.blurred.insertMany symbols }

end Constraints

end TaintReplay
