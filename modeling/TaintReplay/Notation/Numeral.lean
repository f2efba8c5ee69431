/-!
# Numerals — digits, and what they amount to

Digits in some base, and decimal numbers with a point and an exponent. Of the
latter only two things are ever asked: whether the text is one, and whether
it is within the range of a double, a number at or beyond half a step above
the greatest double being out of it.
-/

namespace TaintReplay

/-- The value of a digit in a base up to sixteen. -/
def digitValue? (base : Nat) (c : Char) : Option Nat :=
  let v? :=
    if '0' ≤ c ∧ c ≤ '9' then some (c.toNat - '0'.toNat)
    else if 'a' ≤ c ∧ c ≤ 'f' then some (c.toNat - 'a'.toNat + 10)
    else if 'A' ≤ c ∧ c ≤ 'F' then some (c.toNat - 'A'.toNat + 10)
    else none
  v?.filter (· < base)

/-- The number written with the digits, of which there must be one. -/
def digits? (base : Nat) (cs : List Char) : Option Nat :=
  if cs.isEmpty then none
  else cs.foldlM (fun n c => (digitValue? base c).map (n * base + ·)) 0

/-- The digit, as a character, of a value below sixteen. -/
def digitChar (v : Nat) : Char :=
  if v < 10 then Char.ofNat ('0'.toNat + v) else Char.ofNat ('a'.toNat + (v - 10))

/-- Whether the character is a decimal digit. -/
def isDecimal (c : Char) : Bool := (digitValue? 10 c).isSome

/-- A decimal number: `digits` times a power of ten. -/
structure Decimal where
  digits : Nat
  exponent : Int
deriving DecidableEq

namespace Decimal

/-- Half a step above the greatest double. -/
def overflow : Nat := 1 <<< 1024 - 1 <<< 970

/-- Whether the number rounds to a double. Powers of ten are formed only
near the bound. -/
def isFinite (d : Decimal) : Bool :=
  let magnitude := (Nat.toDigits 10 d.digits).length + d.exponent
  if d.digits = 0 ∨ magnitude < 300 then true
  else if 320 < magnitude then false
  else d.digits * Nat.pow 10 d.exponent.toNat < overflow * Nat.pow 10 (-d.exponent).toNat

/-- An optional sign in front. -/
def signed? : List Char → Bool × List Char
  | '-' :: cs => (true, cs)
  | '+' :: cs => (false, cs)
  | cs => (false, cs)

/-- The exponent after the fraction, if the rest is one. -/
def exponent? : List Char → Option Int
  | [] => some 0
  | c :: cs =>
    if c = 'e' ∨ c = 'E' then
      let (negative, cs) := signed? cs
      (digits? 10 cs).map fun n => if negative then -(n : Int) else n
    else none

/-- The number without a sign: digits with at most one point among them and
an exponent after them, and at least one digit before the exponent. -/
def ofText? (cs : List Char) : Option Decimal :=
  let whole := cs.takeWhile isDecimal
  let (fraction, rest) :=
    match cs.dropWhile isDecimal with
    | '.' :: rest => (rest.takeWhile isDecimal, rest.dropWhile isDecimal)
    | rest => ([], rest)
  match digits? 10 (whole ++ fraction), exponent? rest with
  | some digits, some e => some ⟨digits, e - fraction.length⟩
  | _, _ => none

end Decimal

end TaintReplay
