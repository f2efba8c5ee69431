/-!
# Edit distance, and the nearest name

`editDistance` counts the characters to insert, delete or replace to turn one
text into another, one row of the table at a time. `nearest?` picks, out of
the known names within a third of their own length, the one nearest to a given
name; of equally near ones, the first in order.
-/

namespace TaintReplay

/-- A row of the table after its first cell: for each character of the second
text the distance, given the cells above and the cell to the left. Equal
characters cost nothing; otherwise one more than the least of the three
neighbours. -/
def editCells (c : Char) : List Char → (diagonal : Nat) → (above : List Nat) → (left : Nat) →
    List Nat
  | y :: ys, diagonal, up :: above, left =>
    let cell := if c = y then diagonal else 1 + min diagonal (min up left)
    cell :: editCells c ys up above cell
  | _, _, _, _ => []

/-- The row for a text with one more character, from the row without it. -/
def editRow (ys : List Char) (c : Char) : List Nat → List Nat
  | first :: above => (first + 1) :: editCells c ys first above (first + 1)
  | [] => []

/-- The least number of characters to insert, delete or replace. -/
def editDistance (a b : String) : Nat :=
  let ys := b.toList
  (a.toList.foldl (fun row c => editRow ys c row) (List.range (ys.length + 1))).getLastD 0

/-- The smaller candidate: nearer, or as near and first in order. -/
def nearer (a b : Nat × String) : Nat × String :=
  if b.1 < a.1 ∨ (b.1 = a.1 ∧ b.2 < a.2) then b else a

/-- The known names within reach, with their distances. -/
def candidates (name : String) (known : List String) : List (Nat × String) :=
  (known.map fun k => (editDistance name k, k)).filter fun c => decide (c.1 ≤ c.2.length / 3)

/-- The known name that was probably meant. -/
def nearest? (name : String) (known : List String) : Option String :=
  match candidates name known with
  | [] => none
  | c :: cs => some (cs.foldl nearer c).2

end TaintReplay
