import TaintReplay.Value.Term
import TaintReplay.Value.Word

/-!
# Values and regions — what an expression on a path evaluates to

A value is a number, a pointer into a memory region, the null pointer, or
nothing the path can tell. A region is a named variable, the memory a
symbolic pointer leads to, or an element of another region; since an element
is selected by a value, the two are defined together.
-/

namespace TaintReplay

mutual

/-- A piece of memory. -/
inductive Region where
  /-- The memory of a named variable. -/
  | var (name : String)
  /-- The memory behind a pointer that is itself a symbol. -/
  | symbolic (s : Symbol)
  /-- One element of a region. -/
  | element (base : Region) (index : Value)
deriving DecidableEq

/-- What an expression evaluates to. -/
inductive Value where
  | number (t : Term)
  | pointer (r : Region)
  | null
  /-- Nothing is known of the value. -/
  | unknown
  /-- The value was never set. -/
  | undefined
deriving DecidableEq

end

namespace Region

/-- The index, of a region that is an element. -/
def index? : Region → Option Value
  | element _ i => some i
  | _ => none

end Region

mutual

/-- The symbols a region mentions: those of the base, then those of the
index. -/
def Region.symbols : Region → List Symbol
  | .var _ => []
  | .symbolic s => [s]
  | .element base index => base.symbols ++ index.symbols

/-- The symbols a value mentions, from left to right, with repeats. -/
def Value.symbols : Value → List Symbol
  | .number t => t.symbols
  | .pointer r => r.symbols
  | .null | .unknown | .undefined => []

end

mutual

/-- A region is shown as the expression that denotes it. -/
def Region.text : Region → String
  | .var name => name
  | .symbolic s => "*" ++ s.text
  | .element base index => base.text ++ "[" ++ index.text ++ "]"

/-- A pointer is shown with an address sign. -/
def Value.text : Value → String
  | .number t => t.text
  | .pointer r => "&" ++ r.text
  | .null => "null"
  | .unknown => "unknown"
  | .undefined => "undefined"

end

namespace Value

/-- The pointer to an element of a region. -/
def element (base : Region) (index : Value) : Value := pointer (.element base index)

/-- The number, of a value that is one. -/
def number? : Value → Option Term
  | number t => some t
  | _ => none

/-- The region, of a value that points to one. -/
def region? : Value → Option Region
  | pointer r => some r
  | _ => none

/-- The symbol a value is, or points through. -/
def symbol? : Value → Option Symbol
  | number (.symbol s) => some s
  | pointer (.symbolic s) => some s
  | _ => none

theorem symbol?_eq_some_iff {v : Value} {s : Symbol} :
    v.symbol? = some s ↔ v = number (.symbol s) ∨ v = pointer (.symbolic s) := by
  cases v with
  | number t => cases t <;> simp [symbol?]
  | pointer r => cases r <;> simp [symbol?]
  | _ => simp [symbol?]

/-- The integer `n` seen through `width` bits. It is known when the width is one
a machine has, nothing of `n` lies beyond it, and `n` is a signed integer. -/
def ofWord (n : UInt64) (width : UInt32) : Value :=
  if width = 0 ∨ 64 < width then unknown
  -- by 64 places there is no shift: any word fits a word
  else if ∃ h : width < 64, Word.shiftDown n width h ≠ 0 then unknown
  else
    match Word.signed? n with
    | some v => number (.int v)
    | none => unknown

/-- The outcome of a comparison. Two integers are compared at once; with a
symbol among the operands the comparison is kept; a comparison is no operand
of another. -/
def compare (op : Comparison) (lhs rhs : Term) : Value :=
  match lhs, rhs with
  | .int a, .int b => number (.int (if op.holds a b then 1 else 0))
  | _, _ =>
    if lhs.isArithmetic && rhs.isArithmetic then number (.compare lhs op rhs) else unknown

end Value

end TaintReplay
