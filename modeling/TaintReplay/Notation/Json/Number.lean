import TaintReplay.Notation.Data
import TaintReplay.Notation.Numeral

/-!
# JSON — numbers

An integer that fits a machine word is read as it is. Of any other number only
one thing is asked, whether a double can hold it, and it is asked of an
approximation: as many digits as fit 64 bits, times a power of ten, both
rounded to doubles before they are multiplied. A number near the end of the
range may so come out on either side of it.
-/

namespace TaintReplay

/-- The nearest natural number with at most 53 significant bits; of two, the
one whose last bit is zero. -/
def roundToDouble (n : Nat) : Nat :=
  let excess := n.log2 - 52
  let kept := n >>> excess
  let lost := n - kept <<< excess
  let half := (1 <<< excess) / 2
  if excess = 0 then n
  else if half < lost ∨ (lost = half ∧ kept % 2 = 1) then (kept + 1) <<< excess
  else kept <<< excess

namespace Json

/-- A number as it is approximated: `significand` times a power of ten. -/
structure Approximation where
  significand : Nat
  exponent : Int

namespace Approximation

/-- Appends decimal digits to a number for as long as it fits 64 bits. Gives
the digits left over too. -/
def appendDigits (n : Nat) : List Char → Nat × List Char
  | [] => (n, [])
  | c :: cs =>
    let longer := n * 10 + (digitValue? 10 c).getD 0
    if longer < UInt64.size then appendDigits longer cs else (n, c :: cs)

/-- The approximation of a number without its sign. A digit left over before
the point counts as a power of ten, one after the point not at all. -/
def ofDigits (whole fraction : List Char) (exponent : Int) : Approximation :=
  let (n, left) := appendDigits 0 whole
  let (significand, dropped) := appendDigits n fraction
  ⟨significand, exponent + left.length - (fraction.length - dropped.length)⟩

/-- Whether a double can hold the product. -/
def isFinite (a : Approximation) : Bool :=
  if a.significand = 0 ∨ a.exponent ≤ 0 then true
  else if 308 < a.exponent then false
  else
    roundToDouble a.significand * roundToDouble (Nat.pow 10 a.exponent.toNat) < Decimal.overflow

end Approximation

/-- The digits after the point of what follows an integer part, and what
follows them. A point without digits is left where it is. -/
def fraction (cs : List Char) : List Char × List Char :=
  match cs with
  | '.' :: rest =>
    let digits := rest.takeWhile isDecimal
    if digits.isEmpty then ([], cs) else (digits, rest.dropWhile isDecimal)
  | _ => ([], cs)

/-- The value of a number. Without fraction and exponent it is an integer,
unless it is a negative zero or fits no machine word; a number out of range
cannot be read. -/
def number? (cs : List Char) : Option Data := do
  let (negative, magnitude) :=
    match cs with
    | '-' :: rest => (true, rest)
    | _ => (false, cs)
  let whole := magnitude.takeWhile isDecimal
  let tail := magnitude.dropWhile isDecimal
  if whole.head? = some '0' ∧ 1 < whole.length then none
  let n ← digits? 10 whole
  let exponent ← Decimal.exponent? (fraction tail).2
  if tail.isEmpty && !negative && decide (n < UInt64.size) then return .int n
  else if tail.isEmpty && negative && decide (0 < n ∧ n ≤ 1 <<< 63) then return .int (-(n : Int))
  else if (Approximation.ofDigits whole (fraction tail).1 exponent).isFinite then return .real
  else return .unreadable

end Json

end TaintReplay
