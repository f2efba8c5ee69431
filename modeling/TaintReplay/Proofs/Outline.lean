import TaintReplay.Config.Document
/-!
# Outlines — documents with a line for each field

A configuration is written as a block: each field has a line, with a scalar behind the
colon, or more lines below it, one for each name of a list or for each field of a map
that is indented further. An `Outline` is what such a document says. Its text
(`Outline.text`), its tokens (`Outline.tokens`) and its node (`Outline.node`) are three
renderings of it; the scanner takes the first to the second, the loader the second to the
third.
-/

namespace TaintReplay.Yaml

/-! ## Words -/

/-- Whether the character may stand in a word. -/
def isWordChar (c : Char) : Bool := c.isAlphanum || c == '_' || c == '.'

/-- **A word**: characters that read as one scalar, wherever it stands. -/
structure IsWord (cs : List Char) : Prop where
  nonempty : cs ≠ []
  /-- A dot in front may begin a mark. -/
  head : cs.head? ≠ some '.'
  chars : ∀ c ∈ cs, isWordChar c = true

/-- A character with a meaning of its own is none of a word. -/
theorem beq_eq_false_of_isWordChar {c d : Char} (hc : isWordChar c = true)
    (hd : isWordChar d = false) : (c == d) = false := by
  rw [beq_eq_false_iff_ne]
  rintro rfl
  rw [hc] at hd
  cases hd

theorem contains_eq_false_of_isWordChar {c : Char} {ds : List Char} (hc : isWordChar c = true)
    (hds : ds.all (!isWordChar ·) = true) : ds.contains c = false := by
  rw [Bool.eq_false_iff, Ne, List.contains_iff_mem]
  intro hmem
  have hnone := List.all_eq_true.1 hds c hmem
  rw [hc] at hnone
  cases hnone

theorem IsWord.exists_cons {cs : List Char} (h : IsWord cs) :
    ∃ c cs', cs = c :: cs' ∧ isWordChar c = true := by
  cases cs with
  | nil => exact absurd rfl h.nonempty
  | cons c cs => exact ⟨c, cs, rfl, h.chars c (List.mem_cons_self ..)⟩

theorem isBlank_of_isWordChar {c : Char} (hc : isWordChar c = true) : isBlank c = false := by
  rw [isBlank, beq_eq_false_of_isWordChar hc rfl, beq_eq_false_of_isWordChar hc rfl, Bool.or_self]

theorem isBreak_of_isWordChar {c : Char} (hc : isWordChar c = true) : isBreak c = false := by
  rw [isBreak, beq_eq_false_of_isWordChar hc rfl, beq_eq_false_of_isWordChar hc rfl,
    beq_eq_false_of_isWordChar hc rfl]
  rfl

/-! ## Outlines -/

/-- Whether a name is written in quotes: whether it would not be text otherwise. -/
def isQuoted (s : String) : Bool := isNull s || (bool? s).isSome

theorem toList_quoteName (s : String) :
    (quoteName s).toList = if isQuoted s then '\'' :: (s.toList ++ ['\'']) else s.toList := by
  rw [quoteName, isQuoted]
  split
  · simp
  · rfl

example : quoteName "null" = "'null'" ∧ quoteName "no" = "no" := by decide

/-- **What a field holds**: a scalar, a list of names, or fields of its own. -/
inductive Outline where
  | scalar (text : String)
  | names (items : List String)
  | fields (entries : List (String × Outline))

/-- The line of an item. -/
def itemText (indent : Nat) (s : String) : List Char :=
  List.replicate indent ' ' ++ '-' :: ' ' :: ((quoteName s).toList ++ ['\n'])

/-- The tokens of an item. -/
def itemTokens (s : String) : List Token := [.dash, .scalar s (!isQuoted s)]

/-- The node of an item. -/
def itemNode (s : String) : Node := .scalar none s (!isQuoted s)

namespace Outline

mutual

/-- What follows the colon of a field that is indented so. -/
def text (indent : Nat) : Outline → List Char
  | scalar s => ' ' :: (s.toList ++ ['\n'])
  | names [] => [' ', '[', ']', '\n']
  | names (s :: ss) => '\n' :: (s :: ss).flatMap (itemText indent)
  | fields entries => '\n' :: textOf (indent + 2) entries

/-- The lines of the fields. -/
def textOf (indent : Nat) : List (String × Outline) → List Char
  | [] => []
  | (name, b) :: es =>
    List.replicate indent ' ' ++ (name.toList ++ ':' :: b.text indent) ++ textOf indent es

end

theorem text_fields (indent : Nat) (es : List (String × Outline)) :
    (fields es).text indent = '\n' :: textOf (indent + 2) es := by
  rw [text]

mutual

/-- The tokens of what a field holds. -/
def tokens : Outline → List Token
  | scalar s => [.scalar s true]
  | names [] => [.flowListStart, .flowListEnd]
  | names (s :: ss) => (s :: ss).flatMap itemTokens
  | fields entries => .blockMapStart :: tokensOf entries ++ [.blockEnd]

/-- The tokens of the fields. -/
def tokensOf : List (String × Outline) → List Token
  | [] => []
  | (name, b) :: es => .key :: .scalar name true :: .value :: b.tokens ++ tokensOf es

end

mutual

/-- The node of what a field holds. -/
def node : Outline → Node
  | scalar s => .scalar none s true
  | names items => .list none (items.map itemNode)
  | fields entries => .map none (nodesOf entries)

/-- The nodes of the fields. -/
def nodesOf : List (String × Outline) → List (Node × Node)
  | [] => []
  | (name, b) :: es => (.scalar none name true, b.node) :: nodesOf es

end

mutual

/-- **What can be written**: each scalar is a word, and no map is empty. -/
def Legible : Outline → Prop
  | scalar s => IsWord s.toList
  | names items => ∀ s ∈ items, IsWord s.toList
  | fields entries => entries ≠ [] ∧ LegibleAll entries

/-- Each field can be written. A key must not be too long for its colon. -/
def LegibleAll : List (String × Outline) → Prop
  | [] => True
  | (name, b) :: es =>
    (IsWord name.toList ∧ name.toList.length ≤ 256) ∧ b.Legible ∧ LegibleAll es

end

mutual

/-- How deep the lists and maps are nested. -/
def height : Outline → Nat
  | scalar _ => 0
  | names _ => 1
  | fields entries => heightOf entries + 1

/-- The greatest height among the fields. -/
def heightOf : List (String × Outline) → Nat
  | [] => 0
  | (_, b) :: es => max b.height (heightOf es)

end

end Outline

end TaintReplay.Yaml
