import TaintReplay.Notation.Yaml.Cursor

/-!
# YAML — the text of a scalar

Scalars are written plain, in quotes, or as a block. In the first two a line
end folds: one alone reads as a space, more than one as one less. What has
been passed over but not yet decided on is a `Gap`; the next character of the
scalar, if there is one, fills it in.

In a block every line keeps its text. A literal block keeps the line ends as
well, a folded one folds those between two lines that do not start with a
blank. What becomes of the line ends at the end of a block is its `Chomping`.
-/

namespace TaintReplay.Yaml

/-- What was passed over since the last character of a scalar. -/
inductive Gap where
  | none
  /-- Blanks, in reverse. -/
  | blanks (cs : List Char)
  /-- A line end, unless an escape took it back, and the further line ends in
  reverse; blanks next to them do not count. -/
  | lines (first : Option Char) (more : List Char)

namespace Gap

/-- The gap with a blank passed. -/
def blank (g : Gap) (c : Char) : Gap :=
  match g with
  | none => blanks [c]
  | blanks cs => blanks (c :: cs)
  | lines first more => lines first more

/-- The gap with a line end passed. -/
def newline (g : Gap) (c : Char) : Gap :=
  match g with
  | none | blanks _ => lines (some c) []
  | lines first more => lines first (c :: more)

/-- The text, in reverse, with the gap filled in. -/
def fill (g : Gap) (text : List Char) : List Char :=
  match g with
  | none => text
  | blanks cs => cs ++ text
  | lines (some '\n') [] => ' ' :: text
  | lines (some '\n') more => more ++ text
  | lines (some c) more => more ++ c :: text
  | lines Option.none more => more ++ text

/-- Whether there is a gap at all. -/
def isOpen : Gap → Bool
  | none => false
  | _ => true

/-- Whether a line end was passed. -/
def crossedLine : Gap → Bool
  | lines .. => true
  | _ => false

end Gap

/-- A scalar that was read, and the place after it. -/
structure Scanned where
  text : String
  after : Cursor
  /-- Whether line ends were passed since the last character. -/
  crossedLine : Bool := false

/-- The text so far, reversed, as a scalar ending at a place. -/
def scanned (text : List Char) (after : Cursor) (crossedLine : Bool) : Scanned :=
  ⟨String.ofList text.reverse, after, crossedLine⟩

/-! ## Plain scalars -/

/-- The characters with a meaning inside brackets. -/
def isFlowMark (c : Char) : Bool :=
  c == ',' || c == '[' || c == ']' || c == '{' || c == '}'

/-- Whether a plain scalar ends before what stands here: a colon that ends a
word, or inside brackets a mark. -/
def endsPlain (flow : Bool) : List Char → Bool
  | [] => true
  | c :: cs => (c == ':' && endsWord cs) || (flow && isFlowMark c)

/-- Whether a colon stands here before something that it may not stand
before inside brackets. -/
def isStrayColon : List Char → Bool
  | ':' :: c :: _ => isFlowMark c || c == '?'
  | _ => false

/-- Reads a plain scalar on. After a gap it ends at a document mark, at a
comment, and outside brackets at a lesser indentation; a tab may not stand in
the indentation. -/
def plain? (flow : Bool) (indent : Nat) :
    List Char → Position → (text : List Char) → Gap → Option Scanned
  | [], p, text, gap => some (scanned text ⟨[], p⟩ gap.crossedLine)
  | c :: cs, p, text, gap =>
    if isBlank c then
      if gap.crossedLine && p.column < indent && c == '\t' then none
      else plain? flow indent cs (p.next c) text (gap.blank c)
    else if isBreak c then plain? flow indent cs p.newline text (gap.newline c)
    else if (gap.isOpen && ((!flow && p.column < indent) ||
        (p.column == 0 && isDocumentMark (c :: cs)) || c == '#')) then
      some (scanned text ⟨c :: cs, p⟩ gap.crossedLine)
    else if flow && isStrayColon (c :: cs) then none
    else if endsPlain flow (c :: cs) then some (scanned text ⟨c :: cs, p⟩ gap.crossedLine)
    else plain? flow indent cs (p.next c) (c :: gap.fill text) .none

/-! ## Quoted scalars -/

/-- Reads a scalar in single quotes on; a quote in it is written twice. -/
def singleQuoted? : List Char → Position → (text : List Char) → Gap → Option Scanned
  | [], _, _, _ => none
  | '\'' :: '\'' :: cs, p, text, gap =>
    singleQuoted? cs (p.skip 2) ('\'' :: gap.fill text) .none
  | c :: cs, p, text, gap =>
    if isBlank c then singleQuoted? cs (p.next c) text (gap.blank c)
    else if isBreak c then singleQuoted? cs p.newline text (gap.newline c)
    else if p.column == 0 && isDocumentMark (c :: cs) then none
    else if c == '\'' then some (scanned (gap.fill text) ⟨cs, p.next c⟩ false)
    else singleQuoted? cs (p.next c) (c :: gap.fill text) .none

/-- The character that a one-letter escape stands for. -/
def escaped? : Char → Option Char
  | '0' => some '\x00'
  | 'a' => some '\x07'
  | 'b' => some '\x08'
  | 't' => some '\t'
  | '\t' => some '\t'
  | 'n' => some '\n'
  | 'v' => some '\x0b'
  | 'f' => some '\x0c'
  | 'r' => some '\r'
  | 'e' => some '\x1b'
  | ' ' => some ' '
  | '"' => some '"'
  | '/' => some '/'
  | '\\' => some '\\'
  | 'N' => some '\u0085'
  | '_' => some '\u00a0'
  | 'L' => some '\u2028'
  | 'P' => some '\u2029'
  | _ => none

/-- The character with the number written in the digits. -/
def numbered? (digits : List Char) : Option Char :=
  (digits? 16 digits).bind fun n => if n.isValidChar then some (Char.ofNat n) else none

/-- Reads a scalar in double quotes on. A backslash begins an escape; before
a line end it takes the line end back. -/
def doubleQuoted? : List Char → Position → (text : List Char) → Gap → Option Scanned
  | [], _, _, _ => none
  | '\\' :: 'x' :: a :: b :: cs, p, text, gap =>
    (numbered? [a, b]).bind fun c => doubleQuoted? cs (p.skip 4) (c :: gap.fill text) .none
  | '\\' :: 'u' :: a :: b :: c :: d :: cs, p, text, gap =>
    (numbered? [a, b, c, d]).bind fun c =>
      doubleQuoted? cs (p.skip 6) (c :: gap.fill text) .none
  | '\\' :: 'U' :: a :: b :: c :: d :: e :: f :: g :: h :: cs, p, text, gap =>
    (numbered? [a, b, c, d, e, f, g, h]).bind fun c =>
      doubleQuoted? cs (p.skip 10) (c :: gap.fill text) .none
  | '\\' :: c :: cs, p, text, gap =>
    if isBreak c then doubleQuoted? cs p.newline (gap.fill text) (.lines none [])
    else (escaped? c).bind fun e => doubleQuoted? cs (p.skip 2) (e :: gap.fill text) .none
  | c :: cs, p, text, gap =>
    if isBlank c then doubleQuoted? cs (p.next c) text (gap.blank c)
    else if isBreak c then doubleQuoted? cs p.newline text (gap.newline c)
    else if p.column == 0 && isDocumentMark (c :: cs) then none
    else if c == '"' then some (scanned (gap.fill text) ⟨cs, p.next c⟩ false)
    else if c == '\\' then none
    else doubleQuoted? cs (p.next c) (c :: gap.fill text) .none

/-! ## Blocks -/

/-- What becomes of the line ends at the end of a block. -/
inductive Chomping where
  /-- None stays. -/
  | strip
  /-- The one of the last line stays. -/
  | clip
  /-- All stay. -/
  | keep
deriving DecidableEq

/-- The first line of a block: how its end is chomped, and how many columns
it is indented by, if it says so. -/
structure BlockHeader where
  chomping : Chomping := .clip
  increment : Option Nat := none

namespace BlockHeader

/-- The chomping that a sign asks for. -/
def chomping? : Char → Option Chomping
  | '-' => some .strip
  | '+' => some .keep
  | _ => none

/-- The increment that a digit asks for, which is not zero. -/
def increment? (c : Char) : Option Nat := (digitValue? 10 c).filter (0 < ·)

/-- Reads a header: a sign and a digit in either order, both optional. -/
def read? (k : Cursor) : Option (BlockHeader × Cursor) :=
  match k.rest with
  | [] => some ({}, k)
  | c :: cs =>
    match chomping? c with
    | some chomping =>
      match cs with
      | d :: _ =>
        if isDecimal d then
          (increment? d).map fun n => ({ chomping, increment := some n }, k.drop 2)
        else some ({ chomping }, k.drop 1)
      | [] => some ({ chomping }, k.drop 1)
    | none =>
      if isDecimal c then
        (increment? c).map fun n =>
          match cs.head?.bind chomping? with
          | some chomping => ({ chomping, increment := some n }, k.drop 2)
          | none => ({ increment := some n }, k.drop 1)
      else some ({}, k)

end BlockHeader

/-- Passes the empty lines at the start of a block whose indentation is known
or, if `indent` is none, still to be found. Gives the place after them, the
line ends in reverse, and the greatest column reached. -/
def leadingLines? (indent : Option Nat) :
    List Char → Position → (greatest : Nat) → (breaks : List Char) →
    Option (Cursor × List Char × Nat)
  | [], p, greatest, breaks => some (⟨[], p⟩, breaks, max greatest p.column)
  | c :: cs, p, greatest, breaks =>
    let indented := indent.all (p.column < ·)
    if c == ' ' && indented then leadingLines? indent cs (p.next c) greatest breaks
    else if c == '\t' && indented then none
    else if isBreak c then
      leadingLines? indent cs p.newline (max greatest p.column) (c :: breaks)
    else some (⟨c :: cs, p⟩, breaks, max greatest p.column)

/-- A block in the course of its reading. -/
structure Block where
  /-- The text so far, in reverse. -/
  text : List Char := []
  /-- The line end of the last line. -/
  last : Option Char := none
  /-- The line ends after it, in reverse. -/
  more : List Char := []
  /-- Whether the last line started with a blank. -/
  startedBlank : Bool := false

namespace Block

/-- The block at the start of a line whose first character is given. -/
def openLine (literal : Bool) (b : Block) (c : Char) : Block :=
  let folded := !literal && b.last == some '\n' && !b.startedBlank && !isBlank c
  let text :=
    if folded then (if b.more.isEmpty then ' ' :: b.text else b.more ++ b.text)
    else b.more ++ b.last.toList ++ b.text
  { text, startedBlank := isBlank c }

/-- The text of a block that ends here. -/
def close (chomping : Chomping) (b : Block) : List Char :=
  match chomping with
  | .strip => b.text
  | .clip => b.last.toList ++ b.text
  | .keep => b.more ++ b.last.toList ++ b.text

end Block

/-- Reads the lines of a block on, up to the first that is indented less. A
line is open while its characters are read. -/
def blockLines? (literal : Bool) (indent : Nat) :
    List Char → Position → (isOpen : Bool) → Block → Option (Block × Cursor)
  | [], p, _, b => some (b, ⟨[], p⟩)
  | c :: cs, p, isOpen, b =>
    if isOpen then
      if isBreak c then blockLines? literal indent cs p.newline false { b with last := some c }
      else blockLines? literal indent cs (p.next c) true { b with text := c :: b.text }
    else if c == ' ' && p.column < indent then
      blockLines? literal indent cs (p.next c) false b
    else if c == '\t' && p.column < indent then none
    else if isBreak c then
      blockLines? literal indent cs p.newline false { b with more := c :: b.more }
    else if p.column == indent then
      let b := b.openLine literal c
      blockLines? literal indent cs (p.next c) true { b with text := c :: b.text }
    else some (b, ⟨c :: cs, p⟩)

/-- Reads a block whose sign has been passed, `parent` being the column that
the block it stands in begins at, if it stands in one. Nothing but a comment
may follow the header. -/
def block? (literal : Bool) (parent : Option Nat) (k : Cursor) : Option Scanned := do
  let (header, k) ← BlockHeader.read? k
  let k := (k.skipBlanks true).skipComment
  let k ← if k.rest.isEmpty then some k else k.newline?
  let indent := header.increment.map fun n => parent.getD 0 + n
  let (k, more, greatest) ← leadingLines? indent k.rest k.position 0 []
  let indent := indent.getD (max greatest (max (parent.map (· + 1) |>.getD 0) 1))
  let (b, k) ← blockLines? literal indent k.rest k.position false { more }
  return scanned (b.close header.chomping) k false

end TaintReplay.Yaml
