import TaintReplay.Notation.Data
import TaintReplay.Notation.Numeral

/-!
# JSON — from data to text

The text is written without spaces. In a string the quote, the backslash and
the control characters are escaped, in their short form where there is one;
everything else stands for itself. What cannot be read has no text of its own
and is written as null.
-/

namespace TaintReplay.Json

/-- How a character is written inside a string. -/
def escape (c : Char) : List Char :=
  match c with
  | '"' => ['\\', '"']
  | '\\' => ['\\', '\\']
  | '\x08' => ['\\', 'b']
  | '\x0c' => ['\\', 'f']
  | '\n' => ['\\', 'n']
  | '\r' => ['\\', 'r']
  | '\t' => ['\\', 't']
  | c =>
    if c.toNat < 0x20 then
      ['\\', 'u', '0', '0', digitChar (c.toNat / 16), digitChar (c.toNat % 16)]
    else [c]

/-- A string in quotes. -/
def quote (s : String) : List Char := '"' :: s.toList.flatMap escape ++ ['"']

/-- An integer in decimal. -/
def integer (n : Int) : List Char :=
  if n < 0 then '-' :: Nat.toDigits 10 n.natAbs else Nat.toDigits 10 n.natAbs

mutual

/-- The characters of a value. -/
def write : Data → List Char
  | .null => ['n', 'u', 'l', 'l']
  | .bool true => ['t', 'r', 'u', 'e']
  | .bool false => ['f', 'a', 'l', 's', 'e']
  | .int n => integer n
  | .minusZero => ['0']
  | .text s => quote s
  | .list items => '[' :: writeItems items ++ [']']
  | .map entries => '{' :: writeEntries entries ++ ['}']
  | .real | .unreadable => ['n', 'u', 'l', 'l']

/-- The items with commas between them. -/
def writeItems : List Data → List Char
  | [] => []
  | [d] => write d
  | d :: ds => write d ++ ',' :: writeItems ds

/-- The entries with commas between them. -/
def writeEntries : List (Data × Data) → List Char
  | [] => []
  | [(k, v)] => write k ++ ':' :: write v
  | (k, v) :: es => write k ++ ':' :: write v ++ ',' :: writeEntries es

end

/-- The text of a value. -/
def text (d : Data) : String := String.ofList (write d)

end TaintReplay.Json
