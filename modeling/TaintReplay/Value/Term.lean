import TaintReplay.Value.Comparison
import Std.Data.ExtTreeSet

/-!
# Terms — the numbers a path speaks of

A number on a path is a machine integer, a symbol standing for an integer
the path never fixed, or the outcome of a comparison of two numbers. A
`Valuation` fixes every symbol; `Term.eval` is then the integer a term
stands for, a comparison standing for one or zero, and `Term.isTrue` says
whether a branch on it is taken.
-/

namespace TaintReplay

/-- A number the path leaves open, known by its identifier only. -/
structure Symbol where
  id : UInt32
deriving DecidableEq

namespace Symbol

/-- Symbols are ordered by their identifiers. -/
instance : Ord Symbol := ⟨compareOn Symbol.id⟩

theorem compare_def (a b : Symbol) : compare a b = compare a.id b.id := rfl

instance : Std.TransOrd Symbol where
  eq_swap := by
    intro a b
    simp only [compare_def]
    exact Std.OrientedCmp.eq_swap
  isLE_trans := by
    intro a b c
    simp only [compare_def]
    exact Std.TransCmp.isLE_trans

instance : Std.LawfulEqOrd Symbol where
  compare_self := by
    intro a
    simp only [compare_def]
    exact Std.ReflCmp.compare_self
  eq_of_compare := by
    intro a b h
    simp only [compare_def] at h
    cases a
    cases b
    simpa using Std.LawfulEqCmp.eq_of_compare h

/-- A symbol is shown by its number. -/
def text (s : Symbol) : String := "sym#" ++ toString s.id.toNat

end Symbol

/-- A number as a path knows it. -/
inductive Term where
  | int (value : Int64)
  | symbol (s : Symbol)
  | compare (lhs : Term) (op : Comparison) (rhs : Term)
deriving DecidableEq

/-- The integers that the symbols stand for on one run. -/
abbrev Valuation := Symbol → Int64

namespace Term

/-- The symbols a term mentions, from left to right, with repeats. -/
def symbols : Term → List Symbol
  | int _ => []
  | symbol s => [s]
  | compare lhs _ rhs => lhs.symbols ++ rhs.symbols

/-- The integer, of a term that is one. -/
def int? : Term → Option Int64
  | int v => some v
  | _ => none

/-- Whether the term may be an operand of a comparison that is worth
keeping: an integer or a symbol, no comparison. -/
def isArithmetic : Term → Bool
  | compare .. => false
  | _ => true

/-- A comparison is shown in brackets. -/
def text : Term → String
  | int v => toString v.toInt
  | symbol s => s.text
  | compare lhs op rhs => "(" ++ lhs.text ++ " " ++ op.sign ++ " " ++ rhs.text ++ ")"

/-- The integer a term stands for once the symbols are fixed. -/
def eval (σ : Valuation) : Term → Int64
  | int v => v
  | symbol s => σ s
  | compare lhs op rhs => if op.holds (lhs.eval σ) (rhs.eval σ) then 1 else 0

/-- Whether a branch on the term is taken. -/
def isTrue (σ : Valuation) (t : Term) : Bool := decide (t.eval σ ≠ 0)

@[simp] theorem isTrue_compare (σ : Valuation) (lhs : Term) (op : Comparison) (rhs : Term) :
    (compare lhs op rhs).isTrue σ = op.holds (lhs.eval σ) (rhs.eval σ) := by
  by_cases h : op.holds (lhs.eval σ) (rhs.eval σ) <;> simp [isTrue, eval, h]

end Term

end TaintReplay
