import TaintReplay.Notation.Json.Token

/-!
# JSON — from tokens to data

The tokens are taken one by one, with the lists and maps that are open kept
on a stack. Every token either completes a value or says what is expected
next; the text is read when one value is complete and nothing is open.

Lists and maps nested deeper than `nestingLimit` are not read, and so may
only stand where they are skipped.
-/

namespace TaintReplay.Json

/-- A list or a map that is open, its parts in reverse. -/
inductive Frame where
  | list (items : List Data)
  /-- A map that waits for the value of a key. -/
  | map (entries : List (Data × Data)) (key : Data)

/-- What is expected next; the open lists and maps, innermost first. -/
inductive Reader where
  | value (frames : List Frame)
  /-- A first item, or the end of the list. -/
  | firstItem (frames : List Frame)
  /-- A key; before the first one, the end of the map too. -/
  | key (entries : List (Data × Data)) (mayEnd : Bool) (frames : List Frame)
  | colon (entries : List (Data × Data)) (key : Data) (frames : List Frame)
  /-- What follows a complete value. -/
  | after (d : Data) (frames : List Frame)

namespace Reader

/-- The value of a string token. -/
def ofString : Option String → Data
  | some s => .text s
  | none => .unreadable

/-- A token where a value is expected. -/
def startValue (frames : List Frame) : Token → Option Reader
  | .string s => some (after (ofString s) frames)
  | .literal d => some (after d frames)
  | .listStart => some (firstItem frames)
  | .mapStart => some (key [] true frames)
  | _ => none

/-- A token, and what is expected after it. -/
def feed (r : Reader) (t : Token) : Option Reader :=
  match r with
  | value frames => startValue frames t
  | firstItem frames =>
    match t with
    | .listEnd => some (after (.list []) frames)
    | t => startValue (.list [] :: frames) t
  | key entries mayEnd frames =>
    match t with
    | .string s => some (colon entries (ofString s) frames)
    | .mapEnd => if mayEnd then some (after (.map entries.reverse) frames) else none
    | _ => none
  | colon entries k frames =>
    match t with
    | .colon => some (value (.map entries k :: frames))
    | _ => none
  | after d frames =>
    match frames, t with
    | .list items :: frames, .comma => some (value (.list (d :: items) :: frames))
    | .list items :: frames, .listEnd => some (after (.list (d :: items).reverse) frames)
    | .map entries k :: frames, .comma => some (key ((k, d) :: entries) false frames)
    | .map entries k :: frames, .mapEnd =>
      some (after (.map ((k, d) :: entries).reverse) frames)
    | _, _ => none

/-- The value that was read, if nothing is open. -/
def finish : Reader → Option Data
  | after d [] => some d
  | _ => none

end Reader

/-- The value of a text, however deep. -/
def parse? (text : String) : Option Data :=
  (tokens? text.toList).bind fun ts => (ts.foldlM Reader.feed (.value [])).bind Reader.finish

/-- How deep lists and maps may be nested. -/
def nestingLimit : Nat := 127

/-- The value of a text, readable down to the nesting limit. -/
def read? (text : String) : Option Data := (parse? text).map (Data.truncate nestingLimit)

end TaintReplay.Json
