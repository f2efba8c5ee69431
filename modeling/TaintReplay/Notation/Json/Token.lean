import TaintReplay.Notation.Json.Number

/-!
# JSON — from characters to tokens

The characters are taken one by one; what a character means hangs on what it
stands in: between tokens, in a string, in an escape, in a number, in a
word. A number ends at the first character that cannot belong to one.

A string with half of a surrogate pair in it has no text, yet it is a string:
it may stand where it is skipped. The same goes for a number out of range.
-/

namespace TaintReplay.Json

/-- The pieces of a JSON text. -/
inductive Token where
  | listStart
  | listEnd
  | mapStart
  | mapEnd
  | comma
  | colon
  /-- A string; one without a text is none. -/
  | string (s : Option String)
  /-- Any other value that is neither list nor map. -/
  | literal (d : Data)
deriving Inhabited

/-- The characters read of a string: in reverse, whether all are whole, and
the first half of a surrogate pair if that came last. -/
structure Partial where
  chars : List Char := []
  whole : Bool := true
  high : Option Nat := none

namespace Partial

/-- Gives up a first half that the second did not follow. -/
def settle (p : Partial) : Partial :=
  if p.high.isSome then { p with whole := false, high := none } else p

/-- The string with one more character. -/
def push (p : Partial) (c : Char) : Partial :=
  let p := p.settle
  { p with chars := c :: p.chars }

/-- The string with one more 16-bit unit. Two halves make one character. -/
def pushUnit (p : Partial) (u : Nat) : Partial :=
  if 0xD800 ≤ u ∧ u < 0xDC00 then { p.settle with high := some u }
  else if 0xDC00 ≤ u ∧ u < 0xE000 then
    match p.high with
    | some h =>
      { p with
        chars := Char.ofNat (0x10000 + (h - 0xD800) * 0x400 + (u - 0xDC00)) :: p.chars
        high := none }
    | none => { p with whole := false }
  else p.push (Char.ofNat u)

/-- The text of the finished string. -/
def text? (p : Partial) : Option String :=
  let p := p.settle
  if p.whole then some (String.ofList p.chars.reverse) else none

end Partial

/-- What the next character stands in. -/
inductive Mode where
  | between
  | string (p : Partial)
  /-- After a backslash. -/
  | escape (p : Partial)
  /-- In the digits of a 16-bit unit. -/
  | unit (p : Partial) (left value : Nat)
  /-- In a number; its characters in reverse. -/
  | number (chars : List Char)
  /-- In a word with a meaning; what of it is missing. -/
  | word (missing : List Char) (meaning : Data)

/-- A text in the course of its reading; the tokens in reverse. -/
structure Lexer where
  mode : Mode := .between
  tokens : List Token := []

/-- Whether the character may belong to a number. -/
def isNumeric (c : Char) : Bool :=
  isDecimal c || c == '-' || c == '+' || c == '.' || c == 'e' || c == 'E'

/-- Whether the character separates tokens and is none. -/
def isSpace (c : Char) : Bool := c == ' ' || c == '\t' || c == '\n' || c == '\r'

namespace Lexer

/-- The text with one more token. -/
def emit (l : Lexer) (t : Token) : Lexer := { mode := .between, tokens := t :: l.tokens }

/-- The text read on in another mode. -/
def enter (l : Lexer) (mode : Mode) : Lexer := { l with mode }

/-- A character between tokens. -/
def start (l : Lexer) (c : Char) : Option Lexer :=
  if isSpace c then some (l.enter .between)
  else if c == '-' || isDecimal c then some (l.enter (.number [c]))
  else
    match c with
    | '[' => some (l.emit .listStart)
    | ']' => some (l.emit .listEnd)
    | '{' => some (l.emit .mapStart)
    | '}' => some (l.emit .mapEnd)
    | ',' => some (l.emit .comma)
    | ':' => some (l.emit .colon)
    | '"' => some (l.enter (.string {}))
    | 't' => some (l.enter (.word ['r', 'u', 'e'] (.bool true)))
    | 'f' => some (l.enter (.word ['a', 'l', 's', 'e'] (.bool false)))
    | 'n' => some (l.enter (.word ['u', 'l', 'l'] .null))
    | _ => none

/-- The character that a short escape stands for. -/
def escaped? : Char → Option Char
  | '"' => some '"'
  | '\\' => some '\\'
  | '/' => some '/'
  | 'b' => some '\x08'
  | 'f' => some '\x0c'
  | 'n' => some '\n'
  | 'r' => some '\r'
  | 't' => some '\t'
  | _ => none

/-- The text with one more character read. -/
def feed (l : Lexer) (c : Char) : Option Lexer :=
  match l.mode with
  | .between => l.start c
  | .string p =>
    if c == '"' then some (l.emit (.string p.text?))
    else if c == '\\' then some (l.enter (.escape p))
    else if c.toNat < 0x20 then none
    else some (l.enter (.string (p.push c)))
  | .escape p =>
    if c == 'u' then some (l.enter (.unit p 4 0))
    else (escaped? c).map fun e => l.enter (.string (p.push e))
  | .unit p left value =>
    (digitValue? 16 c).map fun v =>
      let value := value * 16 + v
      if left ≤ 1 then l.enter (.string (p.pushUnit value))
      else l.enter (.unit p (left - 1) value)
  | .number cs =>
    if isNumeric c then some (l.enter (.number (c :: cs)))
    else (number? cs.reverse).bind fun d => (l.emit (.literal d)).start c
  | .word missing meaning =>
    match missing with
    | [] => none
    | [m] => if c = m then some (l.emit (.literal meaning)) else none
    | m :: ms => if c = m then some (l.enter (.word ms meaning)) else none

/-- The tokens of a text that ends here, in reverse. -/
def finish (l : Lexer) : Option (List Token) :=
  match l.mode with
  | .between => some l.tokens
  | .number cs => (number? cs.reverse).map fun d => .literal d :: l.tokens
  | _ => none

end Lexer

/-- The tokens of a text. -/
def tokens? (cs : List Char) : Option (List Token) :=
  ((cs.foldlM Lexer.feed {}).bind Lexer.finish).map List.reverse

end TaintReplay.Json
