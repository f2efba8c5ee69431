import TaintReplay.Notation.Yaml.Scalar

/-!
# YAML — from characters to tokens

The tokens make the structure explicit that indentation only suggests: a
block list or map starts and ends with a token of its own. A block is open
for as long as lines are indented to its column; opening and closing blocks
goes by comparing columns (`Scanner.openBlock`, `Scanner.closeBlocks`).

A scalar is known to be a key only when the colon after it is seen. So the
place before whatever may be a key is remembered (`KeyPlace`), and the colon
inserts the key token there. A key stands on one line and is at most 1024
bytes long. Where an enclosing block map can only go on with a key, a
place given up without a colon is an error.

Tags and directives are not part of this notation.
-/

namespace TaintReplay.Yaml

/-- The pieces of a YAML text. -/
inductive Token where
  | documentStart
  | documentEnd
  /-- Nothing follows. -/
  | streamEnd
  | blockListStart
  | blockMapStart
  /-- The end of a block list or map. -/
  | blockEnd
  /-- A dash before an item. -/
  | dash
  | flowListStart
  | flowListEnd
  | flowMapStart
  | flowMapEnd
  | comma
  /-- A key follows. -/
  | key
  /-- The value of a key follows. -/
  | value
  | anchor (name : String)
  | reference (name : String)
  | scalar (text : String) (isPlain : Bool)
deriving DecidableEq, Inhabited

/-- A place that becomes a key's if a colon follows. -/
structure KeyPlace where
  /-- How many tokens stand before it. -/
  tokens : Nat
  position : Position
  /-- Whether nothing but a key may stand there. -/
  required : Bool

/-- A text in the course of its scanning. -/
structure Scanner where
  cursor : Cursor
  /-- How many brackets are open. -/
  flow : Nat := 0
  /-- The columns of the open blocks, innermost first. -/
  blocks : List Nat := []
  /-- Whether a key may stand here. -/
  keyAllowed : Bool := true
  /-- The latest place that may be a key's: outside brackets, and inside each
  pair that is open; innermost first. -/
  places : List (Option KeyPlace) := [none]
  /-- The tokens, in reverse. -/
  tokens : List Token := []
  count : Nat := 0

namespace Scanner

/-- Appends a token. -/
def emit (s : Scanner) (t : Token) : Scanner :=
  { s with tokens := t :: s.tokens, count := s.count + 1 }

/-- Inserts a token after the first `n`. -/
def insert (s : Scanner) (n : Nat) (t : Token) : Scanner :=
  { s with tokens := s.tokens.insertIdx (s.count - n) t, count := s.count + 1 }

/-- Goes on at another place. -/
def move (s : Scanner) (k : Cursor) : Scanner := { s with cursor := k }

/-- Says whether a key may stand at the next place. -/
def allowKey (s : Scanner) (allowed : Bool) : Scanner := { s with keyAllowed := allowed }

/-- Whether the scanner is outside all brackets. -/
def inBlock (s : Scanner) : Bool := s.flow == 0

/-! ## Blocks -/

/-- Opens a block at the column, if none is open there, with its token after
the first `n`. -/
def openBlock (s : Scanner) (column n : Nat) (t : Token) : Scanner :=
  if s.inBlock && s.blocks.head?.all (· < column) then
    { s with blocks := column :: s.blocks }.insert n t
  else s

/-- Closes the blocks that begin right of the column. -/
def closeBlocks (s : Scanner) (column : Nat) : Scanner :=
  if s.inBlock then
    let closed := s.blocks.takeWhile (column < ·)
    closed.foldl (fun s _ => s.emit .blockEnd) { s with blocks := s.blocks.drop closed.length }
  else s

/-- Closes all blocks. -/
def closeAll (s : Scanner) : Scanner :=
  if s.inBlock then s.blocks.foldl (fun s _ => s.emit .blockEnd) { s with blocks := [] } else s

/-! ## Keys -/

/-- Gives up the latest place, which must not be required. -/
def dropPlace (s : Scanner) : Option Scanner :=
  match s.places with
  | some p :: places => if p.required then none else some { s with places := none :: places }
  | _ => some s

/-- Remembers the place here, if a key may stand here. -/
def savePlace (s : Scanner) : Option Scanner :=
  if s.keyAllowed then
    s.dropPlace.map fun s =>
      let required := s.inBlock && s.blocks.head? == some s.cursor.column
      { s with places := some ⟨s.count, s.cursor.position, required⟩ :: s.places.tail }
  else some s

/-- Whether a colon here comes too late for the place. -/
def isStale (s : Scanner) (p : KeyPlace) : Bool :=
  p.position.line < s.cursor.position.line ||
    p.position.offset + 1024 < s.cursor.position.offset

/-- Gives up every place that a colon here comes too late for. -/
def dropStale (s : Scanner) : Option Scanner :=
  if s.places.any (·.any fun p => p.required && s.isStale p) then none
  else some { s with places := s.places.map (·.filter (!s.isStale ·)) }

/-! ## Tokens -/

/-- Passes blanks, comments, empty lines and byte order marks. Outside brackets
a tab may not stand where a key may, and a new line allows a key. The fuel
bounds the number of lines. -/
def skip (s : Scanner) : Nat → Scanner
  | 0 => s
  | fuel + 1 =>
    let k := (s.cursor.skipMark.skipBlanks (!s.inBlock || !s.keyAllowed)).skipComment
    match k.newline? with
    | some k => ({ s with cursor := k, keyAllowed := s.inBlock || s.keyAllowed } : Scanner).skip fuel
    | none => s.move k

/-- A mark between documents; it ends every block. -/
def documentMark (s : Scanner) (t : Token) : Option Scanner :=
  s.closeAll.dropPlace.map fun s => ((s.allowKey false).emit t).move (s.cursor.drop 3)

/-- The end of the text. -/
def finish (s : Scanner) : Option Scanner :=
  s.closeAll.dropPlace.map fun s => (s.allowKey false).emit .streamEnd

/-- An opening bracket; what it opens may be a key. -/
def openFlow (s : Scanner) (t : Token) : Option Scanner :=
  s.savePlace.map fun s =>
    { s with
      flow := s.flow + 1
      places := none :: s.places
      keyAllowed := true
      cursor := s.cursor.drop 1 }.emit t

/-- A closing bracket. -/
def closeFlow (s : Scanner) (t : Token) : Option Scanner :=
  s.dropPlace.map fun s =>
    { s with
      flow := s.flow - 1
      places := if s.inBlock then s.places else s.places.tail
      keyAllowed := false
      cursor := s.cursor.drop 1 }.emit t

/-- A comma between brackets. -/
def comma (s : Scanner) : Option Scanner :=
  s.dropPlace.map fun s => ((s.allowKey true).emit .comma).move (s.cursor.drop 1)

/-- A dash before an item, which opens a block list. -/
def dash (s : Scanner) : Option Scanner :=
  if s.inBlock && !s.keyAllowed then none
  else
    (s.openBlock s.cursor.column s.count .blockListStart).dropPlace.map fun s =>
      ((s.allowKey true).emit .dash).move (s.cursor.drop 1)

/-- A question mark before a key, which opens a block map. -/
def explicitKey (s : Scanner) : Option Scanner :=
  if s.inBlock && !s.keyAllowed then none
  else
    (s.openBlock s.cursor.column s.count .blockMapStart).dropPlace.map fun s =>
      ((s.allowKey s.inBlock).emit .key).move (s.cursor.drop 1)

/-- A colon. The latest place becomes a key's, and opens a block map; without
a place the key was written before, or is missing. -/
def value (s : Scanner) : Option Scanner :=
  let s? :=
    match s.places with
    | some p :: places =>
      let s := { s with places := none :: places, keyAllowed := false }
      some ((s.insert p.tokens .key).openBlock p.position.column p.tokens .blockMapStart)
    | _ =>
      if s.inBlock && !s.keyAllowed then none
      else some ((s.openBlock s.cursor.column s.count .blockMapStart).allowKey s.inBlock)
  s?.map fun s => (s.emit .value).move (s.cursor.drop 1)

/-- Whether the character may stand in the name of an anchor. -/
def isNameChar (c : Char) : Bool := c.isAlphanum || c == '_' || c == '-'

/-- Whether the name of an anchor may end before what stands here. -/
def endsName (cs : List Char) : Bool :=
  endsWord cs || cs.head?.any "?:,]\x7d%@`".toList.contains

/-- An anchor or an alias; its name follows the sign. -/
def named (s : Scanner) (token : String → Token) : Option Scanner :=
  s.savePlace.bind fun s =>
    let k := s.cursor.drop 1
    let name := k.rest.takeWhile isNameChar
    let k := k.drop name.length
    if name.isEmpty || !endsName k.rest then none
    else some (((s.allowKey false).emit (token (String.ofList name))).move k)

/-- A scalar in quotes, the opening one being here. -/
def quoted (s : Scanner)
    (read : List Char → Position → List Char → Gap → Option Scanned) :
    Option Scanner :=
  s.savePlace.bind fun s =>
    let k := s.cursor.drop 1
    (read k.rest k.position [] .none).map fun r =>
      ((s.allowKey false).emit (.scalar r.text false)).move r.after

/-- A plain scalar. A line end after it allows a key. -/
def plain (s : Scanner) : Option Scanner :=
  s.savePlace.bind fun s =>
    let indent := s.blocks.head?.map (· + 1) |>.getD 0
    (plain? (!s.inBlock) indent s.cursor.rest s.cursor.position [] .none).map fun r =>
      ((s.allowKey r.crossedLine).emit (.scalar r.text true)).move r.after

/-- A block scalar, its sign being here. -/
def block (s : Scanner) (literal : Bool) : Option Scanner :=
  s.dropPlace.bind fun s =>
    (block? literal s.blocks.head? (s.cursor.drop 1)).map fun r =>
      ((s.allowKey true).emit (.scalar r.text false)).move r.after

/-- The characters that no plain scalar starts with, whatever follows. -/
def isReserved (c : Char) : Bool := ",[]\x7b\x7d#&*!|>'\"%@`".toList.contains c

/-- The next token. -/
def next (s : Scanner) : Option Scanner :=
  match s.cursor.rest with
  | [] => s.finish
  | c :: cs =>
    if s.cursor.column == 0 && c == '%' then none
    else if s.cursor.column == 0 && isDocumentMark (c :: cs) then
      s.documentMark (if c == '-' then .documentStart else .documentEnd)
    else if c == '[' then s.openFlow .flowListStart
    else if c == '{' then s.openFlow .flowMapStart
    else if c == ']' then s.closeFlow .flowListEnd
    else if c == '}' then s.closeFlow .flowMapEnd
    else if c == ',' then s.comma
    else if c == '-' && endsWord cs then s.dash
    else if c == '?' && (!s.inBlock || endsWord cs) then s.explicitKey
    else if c == ':' && (!s.inBlock || endsWord cs) then s.value
    else if c == '*' then s.named .reference
    else if c == '&' then s.named .anchor
    else if c == '|' && s.inBlock then s.block true
    else if c == '>' && s.inBlock then s.block false
    else if c == '\'' then s.quoted singleQuoted?
    else if c == '"' then s.quoted doubleQuoted?
    else if isReserved c || isBlank c || isBreak c then none
    else s.plain

/-- The tokens from here on, each after the blanks before it and the blocks
that end at it. The fuel bounds the characters that are left. -/
def run (s : Scanner) : Nat → Option (List Token)
  | 0 => none
  | fuel + 1 => do
    let s ← (s.skip (fuel + 1)).dropStale
    let next ← (s.closeBlocks s.cursor.column).next
    if s.cursor.rest.isEmpty then some next.tokens.reverse else next.run fuel

end Scanner

/-- The tokens of a text, the end of the stream being the last. Each but that
one takes a character. -/
def tokens? (cs : List Char) : Option (List Token) :=
  ({ cursor := { rest := cs } } : Scanner).run (cs.length + 1)

end TaintReplay.Yaml
