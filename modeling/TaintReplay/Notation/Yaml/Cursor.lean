import TaintReplay.Notation.Numeral

/-!
# YAML — characters and positions

Before anything else the line ends of a text are made one, and a character
that YAML does not allow refuses the whole text. The text is then read by a
`Cursor`, which knows its `Position`: line and column, for indentation is
structure, and the bytes of the line so far, for a key must be short.
-/

namespace TaintReplay.Yaml

/-- Whether the character may occur in a text. -/
def isAllowed (c : Char) : Bool :=
  let v := c.toNat
  v == 0x09 || v == 0x0A || v == 0x0D || (0x20 ≤ v && v ≤ 0x7E) || v == 0x85 ||
    (0xA0 ≤ v && v ≤ 0xD7FF) || (0xE000 ≤ v && v ≤ 0xFFFD) || 0x10000 ≤ v

/-- The text with every line end a line feed: a carriage return, alone or
before a line feed, and the next-line control count as one. -/
def unifyLines : List Char → List Char
  | '\r' :: '\n' :: cs => '\n' :: unifyLines cs
  | '\r' :: cs => '\n' :: unifyLines cs
  | '\x85' :: cs => '\n' :: unifyLines cs
  | c :: cs => c :: unifyLines cs
  | [] => []

/-- The characters of a text, or nothing if one is not allowed. -/
def characters? (text : String) : Option (List Char) :=
  if text.toList.all isAllowed then some (unifyLines text.toList) else none

/-- Whether the character ends a line: a line feed, or one of the line and
paragraph separators. -/
def isBreak (c : Char) : Bool := c == '\n' || c == '\u2028' || c == '\u2029'

/-- Whether the character is a space or a tab. -/
def isBlank (c : Char) : Bool := c == ' ' || c == '\t'

/-- Whether a word ends here: at a blank, at the end of the line, at the end
of the text. -/
def endsWord : List Char → Bool
  | [] => true
  | c :: _ => isBlank c || isBreak c

/-- Whether a mark that begins or ends a document stands here. -/
def isDocumentMark : List Char → Bool
  | '-' :: '-' :: '-' :: cs => endsWord cs
  | '.' :: '.' :: '.' :: cs => endsWord cs
  | _ => false

/-- Where a character stands: its line, its column, and how many bytes of the
line come before it. -/
structure Position where
  line : Nat := 0
  column : Nat := 0
  offset : Nat := 0

namespace Position

/-- The position after a character of the line. -/
def next (p : Position) (c : Char) : Position :=
  { p with column := p.column + 1, offset := p.offset + c.utf8Size }

/-- The position after some characters of one byte each. -/
def skip (p : Position) (n : Nat) : Position :=
  { p with column := p.column + n, offset := p.offset + n }

/-- The start of the next line. -/
def newline (p : Position) : Position := { line := p.line + 1 }

end Position

/-- A place in a text: what follows, and where it stands. -/
structure Cursor where
  rest : List Char
  position : Position := {}

namespace Cursor

/-- The column of the place. -/
def column (k : Cursor) : Nat := k.position.column

/-- The place after the given number of characters of the line. -/
def drop (k : Cursor) (n : Nat) : Cursor :=
  ⟨k.rest.drop n, (k.rest.take n).foldl Position.next k.position⟩

/-- The place after a byte order mark, if one stands at the start of the
line. It takes up a column. -/
def skipMark (k : Cursor) : Cursor :=
  if k.column == 0 && k.rest.head? == some '\uFEFF' then k.drop 1 else k

/-- The place after a run of spaces, and of tabs if they are allowed. -/
def skipBlanks (tabs : Bool) (k : Cursor) : Cursor :=
  k.drop (k.rest.takeWhile fun c => c == ' ' || (tabs && c == '\t')).length

/-- The place at the end of the line. -/
def skipLine (k : Cursor) : Cursor :=
  k.drop (k.rest.takeWhile fun c => !isBreak c).length

/-- The place after a comment, if one stands here. -/
def skipComment (k : Cursor) : Cursor :=
  match k.rest with
  | '#' :: _ => k.skipLine
  | _ => k

/-- The place after a line end, if one stands here. -/
def newline? (k : Cursor) : Option Cursor :=
  match k.rest with
  | c :: cs => if isBreak c then some ⟨cs, k.position.newline⟩ else none
  | [] => none

end Cursor

end TaintReplay.Yaml
