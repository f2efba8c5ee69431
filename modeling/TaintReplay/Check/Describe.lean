import TaintReplay.Check.Invisible
import TaintReplay.Check.Registry

/-!
# Describing a registry

One line for a log: the checkers with their descriptions, and the number of
handlers for each kind of event that has any. Texts are quoted, with
backslashes, quotes and invisible characters escaped.
-/

namespace TaintReplay

/-- A character inside quotes. -/
def describeChar (c : Char) : String :=
  match c with
  | '"' => "\\\""
  | '\\' => "\\\\"
  | '\n' => "\\n"
  | '\r' => "\\r"
  | '\t' => "\\t"
  | '\x00' => "\\0"
  | c =>
    if isInvisible c then
      "\\u\x7b" ++ String.ofList (Nat.toDigits 16 c.toNat) ++ "\x7d"
    else c.toString

/-- A text in quotes. -/
def describeText (s : String) : String :=
  "\"" ++ String.join (s.toList.map describeChar) ++ "\""

/-- A list in brackets. -/
def describeList (items : List String) : String := "[" ++ ", ".intercalate items ++ "]"

namespace EventKind

/-- The name of a kind of event in a description. -/
def describe : EventKind → String
  | preCall => "PreCall"
  | postCall => "PostCall"
  | location => "Location"

end EventKind

/-- A checker with its description. -/
def CheckerInfo.describe (i : CheckerInfo) : String :=
  "CheckerInfo \x7b name: " ++ describeText i.name ++ ", description: " ++
    describeText i.description ++ " \x7d"

namespace Registry

/-- The whole registry in one line. -/
def describe {γ : Type u} (r : Registry γ) : String :=
  let counts := EventKind.all.filterMap fun k =>
    if r.handlerCount k = 0 then none
    else some ("(" ++ k.describe ++ ", " ++ toString (r.handlerCount k) ++ ")")
  "CheckerRegistry \x7b checkers: " ++ describeList (r.checkers.map CheckerInfo.describe) ++
    ", handlers: " ++ describeList counts ++ " \x7d"

end Registry

end TaintReplay
