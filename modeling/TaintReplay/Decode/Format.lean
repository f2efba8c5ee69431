import TaintReplay.Notation.Json.Reader
import TaintReplay.Notation.Yaml.Plain

/-!
# Formats — what a reader may ask of a value

Traces and configurations are written in either notation, and the notations
differ in what they let pass: JSON also takes a record as a list of its fields
in order, YAML takes any scalar as text and nothing at all as an empty
collection. A `Format` is that difference, and whatever is written in both
notations is read through one.

A record is read field by field (`required`, `optional`). A field that is
there twice refuses the record; other names are passed over, or refused by
`onlyFields`.
-/

namespace TaintReplay

/-- What a reader may ask of a value of a notation. -/
structure Format (ν : Type) where
  nat? : ν → Option Nat
  bool? : ν → Option Bool
  text? : ν → Option String
  list? : ν → Option (List ν)
  /-- The fields of a record that is written as a map. -/
  map? : ν → Option (List (String × ν))
  /-- The fields of a record with the given names. -/
  record? : List String → ν → Option (List (String × ν))
  isNull : ν → Bool
  /-- The whole value, to be read later. -/
  data? : ν → Option Data

/-! ## Fields -/

section Fields

variable {ν α : Type}

/-- The value of a field, if it is there; nothing if it is there twice. -/
def field? (fields : List (String × ν)) (name : String) : Option (Option ν) :=
  match fields.filter (·.1 == name) with
  | [] => some none
  | [(_, v)] => some (some v)
  | _ => none

/-- Reads a field that must be there. -/
def required (fields : List (String × ν)) (name : String) (read : ν → Option α) : Option α :=
  match field? fields name with
  | some (some v) => read v
  | _ => none

/-- Reads a field that may be left out. -/
def optional (fields : List (String × ν)) (name : String) (default : α) (read : ν → Option α) :
    Option α :=
  match field? fields name with
  | some (some v) => read v
  | some none => some default
  | none => none

/-- Refuses fields with other names. -/
def onlyFields (fields : List (String × ν)) (names : List String) : Option Unit :=
  if fields.all fun f => names.contains f.1 then some () else none

end Fields

/-! ## Numbers -/

/-- A number that fits 32 bits. -/
def word32? (n : Nat) : Option UInt32 := if n < UInt32.size then some (UInt32.ofNat n) else none

/-- A number that fits 64 bits. -/
def word64? (n : Nat) : Option UInt64 := if n < UInt64.size then some (UInt64.ofNat n) else none

/-- A number that counts something on a 64-bit machine. -/
def count? (n : Nat) : Option Nat := if n < UInt64.size then some n else none

namespace Format

variable {ν : Type} (F : Format ν)

/-- A 32-bit word. -/
def word32? (v : ν) : Option UInt32 := (F.nat? v).bind TaintReplay.word32?

/-- A 64-bit word. -/
def word64? (v : ν) : Option UInt64 := (F.nat? v).bind TaintReplay.word64?

/-- A count. -/
def count? (v : ν) : Option Nat := (F.nat? v).bind TaintReplay.count?

/-- A list, each item read alike. -/
def listOf? {α : Type} (read : ν → Option α) (v : ν) : Option (List α) :=
  (F.list? v).bind fun items => items.mapM read

end Format

/-! ## Data -/

namespace Data

/-- The name a map key gives, out of the names that are expected: itself, or
the one at its position. -/
def label? (names : List String) : Data → Option String
  | text s => some s
  | int n => if 0 ≤ n then names[n.toNat]? else none
  | _ => none

/-- An integer that is not negative. -/
def nat? : Data → Option Nat
  | int n => if 0 ≤ n then some n.toNat else none
  | minusZero => some 0
  | _ => none

/-- An integer that fits a signed machine word. -/
def int64? : Data → Option Int64
  | int n => if (Int64.ofInt n).toInt = n then some (Int64.ofInt n) else none
  | minusZero => some 0
  | _ => none

/-- A truth value. -/
def bool? : Data → Option Bool
  | bool b => some b
  | _ => none

/-- A text. -/
def text? : Data → Option String
  | text s => some s
  | _ => none

/-- The items of a list. -/
def list? : Data → Option (List Data)
  | list items => some items
  | _ => none

/-- Whether the data is null. -/
def isNull : Data → Bool
  | null => true
  | _ => false

/-- The fields of a record that is written as a map. A key that is a position
names the field there; a position beyond the last names none. -/
def map? (names : List String) : Data → Option (List (String × Data))
  | map entries => entries.mapM fun (k, v) =>
    match k with
    | text s => some (s, v)
    | int n => if 0 ≤ n then some (names.getD n.toNat "", v) else none
    | _ => none
  | _ => none

/-- The fields of a record: a map, or a list of the values in the order of
the names, of which the last ones may be missing. -/
def record? (names : List String) : Data → Option (List (String × Data))
  | list items => if items.length ≤ names.length then some (names.zip items) else none
  | d => d.map? names

/-- The alternative a value names, and what comes with it: a name alone, or a
map with one entry. -/
def variant? (names : List String) : Data → Option (String × Option Data)
  | text s => some (s, none)
  | map [(k, v)] => (k.label? names).map (·, some v)
  | _ => none

end Data

/-- Data as read from JSON. -/
def Format.json : Format Data where
  nat? := Data.nat?
  bool? := Data.bool?
  text? := Data.text?
  list? := Data.list?
  map? := Data.map? []
  record? := Data.record?
  isNull := Data.isNull
  data? d := if d.isReadable then some d else none

/-! ## YAML nodes -/

namespace Yaml.Node

/-- The text of a plain scalar. -/
def plain? : Node → Option String
  | scalar _ s true => some s
  | _ => none

/-- The text of a scalar. -/
def text? : Node → Option String
  | scalar _ s _ => some s
  | _ => none

/-- The items of a list; nothing at all has none. -/
def list? : Node → Option (List Node)
  | list _ items => some items
  | scalar _ "" true => some []
  | _ => none

/-- The entries of a map whose keys are scalars; nothing at all has none. -/
def map? : Node → Option (List (String × Node))
  | map _ entries => entries.mapM fun (k, v) => k.text?.map (·, v)
  | scalar _ "" true => some []
  | _ => none

end Yaml.Node

/-- Nodes as read from YAML. -/
def Format.yaml : Format Yaml.Node where
  nat? n := n.plain?.bind Yaml.nat?
  bool? n := n.plain?.bind Yaml.bool?
  text? := Yaml.Node.text?
  list? := Yaml.Node.list?
  map? := Yaml.Node.map?
  record? _ := Yaml.Node.map?
  isNull n := n.plain?.any Yaml.isNull
  data? n := if n.toData.isReadable then some n.toData else none

end TaintReplay
