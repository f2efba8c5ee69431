/-!
# Comparisons — the six order tests

A branch of a program compares two machine integers. `Comparison` names the
test, `holds` evaluates it, and two involutions move it about: `negate`
answers the opposite of every pair (`holds_negate`), `swap` reads the pair
the other way round (`holds_swap`).
-/

namespace TaintReplay

/-- An order test on two machine integers. -/
inductive Comparison where
  | eq
  | neq
  | lt
  | gt
  | le
  | ge
deriving DecidableEq

namespace Comparison

/-- Equality is the test nobody had to choose. -/
instance : Inhabited Comparison := ⟨eq⟩

/-- Whether the test holds of the pair. -/
def holds : Comparison → Int64 → Int64 → Bool
  | eq, a, b => decide (a = b)
  | neq, a, b => decide (a ≠ b)
  | lt, a, b => decide (a < b)
  | gt, a, b => decide (b < a)
  | le, a, b => decide (a ≤ b)
  | ge, a, b => decide (b ≤ a)

/-- The test that holds exactly where this one fails. -/
def negate : Comparison → Comparison
  | eq => neq
  | neq => eq
  | lt => ge
  | ge => lt
  | gt => le
  | le => gt

/-- The test with its operands exchanged. -/
def swap : Comparison → Comparison
  | eq => eq
  | neq => neq
  | lt => gt
  | gt => lt
  | le => ge
  | ge => le

/-- The operator sign, as it is shown between two operands. -/
def sign : Comparison → String
  | eq => "=="
  | neq => "!="
  | lt => "<"
  | gt => ">"
  | le => "<="
  | ge => ">="

@[simp] theorem negate_negate (c : Comparison) : c.negate.negate = c := by
  cases c <;> rfl

@[simp] theorem swap_swap (c : Comparison) : c.swap.swap = c := by
  cases c <;> rfl

theorem negate_swap (c : Comparison) : c.negate.swap = c.swap.negate := by
  cases c <;> rfl

/-- The negated test answers the opposite. -/
@[simp] theorem holds_negate (c : Comparison) (a b : Int64) :
    c.negate.holds a b = !c.holds a b := by
  cases c <;> rw [Bool.eq_iff_iff] <;>
    simp [negate, holds, Int64.lt_iff_toInt_lt, Int64.le_iff_toInt_le]

/-- The swapped test reads the pair the other way round. -/
@[simp] theorem holds_swap (c : Comparison) (a b : Int64) :
    c.swap.holds a b = c.holds b a := by
  cases c <;> simp [swap, holds, eq_comm]

end Comparison

end TaintReplay
