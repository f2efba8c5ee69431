import TaintReplay.Notation.Data
import TaintReplay.Notation.Yaml.Extent

/-!
# YAML — what a plain scalar says

A plain scalar has a kind by its looks: null, a truth value, an integer in
base ten or, behind a mark, sixteen, eight or two, another number, or just
text. Digits behind a leading zero are text. A scalar in quotes or in a block
is text whatever it looks like.
-/

namespace TaintReplay.Yaml

/-- Whether the text is one of null. -/
def isNull (s : String) : Bool := ["", "~", "null", "Null", "NULL"].contains s

/-- The truth value a text stands for. -/
def bool? (s : String) : Option Bool :=
  if ["true", "True", "TRUE"].contains s then some true
  else if ["false", "False", "FALSE"].contains s then some false
  else none

/-- Whether the text, a sign apart, is a zero before further digits. -/
def isPadded (cs : List Char) : Bool :=
  match (Decimal.signed? cs).2 with
  | '0' :: rest => !rest.isEmpty && rest.all isDecimal
  | _ => false

/-- The number written in digits, after the mark of their base if they have
one. -/
def magnitude? : List Char → Option Nat
  | '0' :: 'x' :: cs => digits? 16 cs
  | '0' :: 'o' :: cs => digits? 8 cs
  | '0' :: 'b' :: cs => digits? 2 cs
  | cs => if isPadded cs then none else digits? 10 cs

/-- The natural number a text stands for; a plus sign may stand in front. -/
def nat? (s : String) : Option Nat :=
  match s.toList with
  | '+' :: cs => magnitude? cs
  | cs => magnitude? cs

/-- The integer a text stands for. -/
def int? (s : String) : Option Int :=
  match s.toList with
  | '-' :: cs => (magnitude? cs).map fun n => -(n : Int)
  | _ => (nat? s).map Int.ofNat

/-- Whether the text is a number that is no integer, as a double can hold
it. -/
def isReal (s : String) : Bool :=
  if ["-.inf", "-.Inf", "-.INF", ".nan", ".NaN", ".NAN"].contains s then true
  else
    let magnitude :=
      match s.toList with
      | '+' :: rest => if (Decimal.signed? rest).2 = rest then some rest else none
      | cs => some cs
    magnitude.any fun cs =>
      [".inf", ".Inf", ".INF"].contains (String.ofList cs) ||
        (!isPadded s.toList && (Decimal.ofText? (Decimal.signed? cs).2).any Decimal.isFinite)

/-- What a plain scalar says. An integer beyond 64 bits cannot be read, and
from 128 bits on it counts as another number. -/
def plainData (s : String) : Data :=
  if isNull s then .null
  else
    match bool? s with
    | some b => .bool b
    | none =>
      match int? s with
      | some n =>
        if n = 0 ∧ s.toList.head? = some '-' then .minusZero
        else if Int64.minValue.toInt ≤ n ∧ n < UInt64.size then .int n
        else if -(1 <<< 127 : Nat) ≤ n ∧ n < (1 <<< 128 : Nat) then .unreadable
        else if isReal s then .real
        else .text s
      | none => if isReal s then .real else .text s

mutual

/-- What a node says. -/
def Node.toData : Node → Data
  | .scalar _ s isPlain => if isPlain then plainData s else .text s
  | .list _ items => .list (itemsToData items)
  | .map _ entries => .map (entriesToData entries)
  | .reference _ | .unreadable => .unreadable

/-- What each item says. -/
def itemsToData : List Node → List Data
  | [] => []
  | n :: ns => n.toData :: itemsToData ns

/-- What each key and value says. -/
def entriesToData : List (Node × Node) → List (Data × Data)
  | [] => []
  | (k, v) :: es => (k.toData, v.toData) :: entriesToData es

end

end TaintReplay.Yaml
