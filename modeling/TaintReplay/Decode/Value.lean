import TaintReplay.Decode.Format
import TaintReplay.State.Condition
import TaintReplay.Value

/-!
# Reading values

Terms, regions and values as they are written in a document: an alternative
is named, and what it holds comes with the name. An alternative that holds
nothing is its bare name, or the name with null. What else will do for an
alternative depends on where it stands (`Leniency`).

Values nest, so the readers go down at most as many levels as the data is
deep.
-/

namespace TaintReplay

/-- How freely the alternatives of a value may be written. -/
inductive Leniency where
  /-- What an alternative holds is a map of its fields: values out of a record
  that has been read as data. -/
  | strict
  /-- A list of the fields in order will do as well: values out of a text. -/
  | listed
  /-- And so will an empty map for nothing: values out of an event. -/
  | loose
  deriving DecidableEq, Repr

namespace Leniency

/-- Whether what comes with a name amounts to nothing. -/
def isNothing (how : Leniency) : Option Data → Bool
  | none | some .null => true
  | some (.map []) => how == .loose
  | _ => false

/-- The constant that a name alone stands for. -/
def constant? {α : Type} (how : Leniency) (payload : Option Data) (a : α) : Option α :=
  if how.isNothing payload then some a else none

/-- The fields that an alternative holds. -/
def fields? (how : Leniency) (names : List String) (d : Data) : Option (List (String × Data)) :=
  match how with
  | strict => d.map? names
  | listed | loose => d.record? names

end Leniency

namespace Comparison

/-- The name of the test in a document. -/
def label : Comparison → String
  | eq => "eq"
  | neq => "neq"
  | lt => "lt"
  | gt => "gt"
  | le => "le"
  | ge => "ge"

/-- All tests, in the order of their positions. -/
def all : List Comparison := [eq, neq, lt, gt, le, ge]

/-- The test of that name. -/
def ofLabel? (s : String) : Option Comparison := all.find? (·.label == s)

/-- Reads a test. -/
def decode? (how : Leniency) (d : Data) : Option Comparison :=
  (d.variant? (all.map label)).bind fun (name, payload) =>
    (ofLabel? name).bind (how.constant? payload)

end Comparison

/-- Reads a symbol. -/
def Symbol.decode? (d : Data) : Option Symbol := (d.nat?.bind word32?).map Symbol.mk

/-- Reads a term, going down at most the given number of levels. -/
def Term.decodeTo? (how : Leniency) : Nat → Data → Option Term
  | 0, _ => none
  | n + 1, d =>
    match d.variant? ["concrete_int", "symbol", "compare"] with
    | some ("concrete_int", some v) => v.int64?.map .int
    | some ("symbol", some v) => (Symbol.decode? v).map .symbol
    | some ("compare", some v) => do
      let fields ← how.fields? ["lhs", "op", "rhs"] v
      let lhs ← required fields "lhs" (decodeTo? how n)
      let op ← required fields "op" (Comparison.decode? how)
      let rhs ← required fields "rhs" (decodeTo? how n)
      return .compare lhs op rhs
    | _ => none

/-- Reads a term. -/
def Term.decode? (how : Leniency) (d : Data) : Option Term := decodeTo? how d.depth d

mutual

/-- Reads a region, going down at most the given number of levels. -/
def Region.decodeTo? (how : Leniency) : Nat → Data → Option Region
  | 0, _ => none
  | n + 1, d =>
    match d.variant? ["var", "symbolic", "element"] with
    | some ("var", some v) => do
      let fields ← how.fields? ["name"] v
      return .var (← required fields "name" Data.text?)
    | some ("symbolic", some v) => do
      let fields ← how.fields? ["symbol"] v
      return .symbolic (← required fields "symbol" Symbol.decode?)
    | some ("element", some v) => do
      let fields ← how.fields? ["base", "index"] v
      let base ← required fields "base" (Region.decodeTo? how n)
      let index ← required fields "index" (Value.decodeTo? how n)
      return .element base index
    | _ => none

/-- Reads a value, going down at most the given number of levels. -/
def Value.decodeTo? (how : Leniency) : Nat → Data → Option Value
  | 0, _ => none
  | n + 1, d =>
    match d.variant? ["non_loc", "loc", "unknown", "undefined"] with
    | some ("non_loc", some v) => (Term.decode? how v).map .number
    | some ("loc", some v) =>
      match v.variant? ["region", "null"] with
      | some ("region", some r) => (Region.decodeTo? how n r).map .pointer
      | some ("null", payload) => how.constant? payload .null
      | _ => none
    | some ("unknown", payload) => how.constant? payload .unknown
    | some ("undefined", payload) => how.constant? payload .undefined
    | _ => none

end

/-- Reads a region. -/
def Region.decode? (how : Leniency) (d : Data) : Option Region := Region.decodeTo? how d.depth d

/-- Reads a value. -/
def Value.decode? (how : Leniency) (d : Data) : Option Value :=
  Value.decodeTo? how (d.depth + 1) d

/-- Reads a condition. -/
def Condition.decode? (d : Data) : Option Condition := do
  let fields ← d.record? ["symbol", "op", "bound"]
  let symbol ← required fields "symbol" Symbol.decode?
  let op ← required fields "op" (Comparison.decode? .strict)
  let bound ← required fields "bound" Data.int64?
  return ⟨symbol, op, bound⟩

end TaintReplay
