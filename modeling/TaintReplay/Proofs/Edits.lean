import TaintReplay.Config.Distance
import Mathlib.Order.Bounds.Basic
import Mathlib.Order.MinMax
/-!
# Edits — the distance of two texts is the least number of edits

An edit inserts, deletes or replaces one character anywhere in a text, and edits are made
one after the other (`Edits`). The distance that the table computes is the least number of
edits that turn one text into the other (`isLeast_editDistance`).

The recurrence of the table stands between the two. It counts edits that will do
(`edits_levenshtein`), and no fewer will, since one edit changes it by one at most
(`Edit.levenshtein_le`). The rows of the table are its values on initial segments: `cells`
says what a row holds, and each cell is computed from the old cells above it and the new one
on its left (`editCells_cells`). The recurrence takes texts apart from the front, so that
the segments appear backwards in it; edits do not mind (`Edits.reverse`).
-/

namespace TaintReplay

/-- One character is inserted, deleted, or replaced. -/
inductive Edit : List Char → List Char → Prop where
  | insert (front back : List Char) (c : Char) : Edit (front ++ back) (front ++ c :: back)
  | delete (front back : List Char) (c : Char) : Edit (front ++ c :: back) (front ++ back)
  | replace (front back : List Char) (c d : Char) :
    Edit (front ++ c :: back) (front ++ d :: back)

/-- So many edits, one after the other. -/
inductive Edits : Nat → List Char → List Char → Prop where
  | none (xs : List Char) : Edits 0 xs xs
  | step {n : Nat} {xs ys zs : List Char} : Edit xs ys → Edits n ys zs → Edits (n + 1) xs zs

variable {n : Nat} {x y c d : Char} {xs ys zs : List Char}

theorem Edit.cons (h : Edit xs ys) (x : Char) : Edit (x :: xs) (x :: ys) := by
  cases h with
  | insert front back c => exact .insert (x :: front) back c
  | delete front back c => exact .delete (x :: front) back c
  | replace front back c d => exact .replace (x :: front) back c d

theorem Edit.reverse (h : Edit xs ys) : Edit xs.reverse ys.reverse := by
  cases h with
  | insert front back c => simpa using Edit.insert back.reverse front.reverse c
  | delete front back c => simpa using Edit.delete back.reverse front.reverse c
  | replace front back c d => simpa using Edit.replace back.reverse front.reverse c d

/-- Edits leave alone what stands in front. -/
theorem Edits.cons (h : Edits n xs ys) (x : Char) : Edits n (x :: xs) (x :: ys) := by
  induction h with
  | none xs => exact .none _
  | step hedit _ ih => exact .step (hedit.cons x) ih

/-- **Edits can be made on the texts read backwards.** -/
theorem Edits.reverse (h : Edits n xs ys) : Edits n xs.reverse ys.reverse := by
  induction h with
  | none xs => exact .none _
  | step hedit _ ih => exact .step hedit.reverse ih

theorem Edits.reverse_iff : Edits n xs.reverse ys.reverse ↔ Edits n xs ys := by
  refine ⟨fun h => ?_, Edits.reverse⟩
  simpa using h.reverse

/-! ## The recurrence -/

/-- The recurrence of the table. Equal characters in front cost nothing; otherwise it is one
more than the least of what remains after the first character is replaced, deleted, or
inserted. -/
def levenshtein : List Char → List Char → Nat
  | [], ys => ys.length
  | x :: xs, [] => xs.length + 1
  | x :: xs, y :: ys =>
    if x = y then levenshtein xs ys
    else 1 + min (levenshtein xs ys) (min (levenshtein xs (y :: ys)) (levenshtein (x :: xs) ys))
termination_by xs ys => xs.length + ys.length

@[simp] theorem levenshtein_nil_left (ys : List Char) : levenshtein [] ys = ys.length := by
  rw [levenshtein]

@[simp] theorem levenshtein_nil_right (xs : List Char) : levenshtein xs [] = xs.length := by
  cases xs with
  | nil => rw [levenshtein]
  | cons x xs =>
    rw [levenshtein]
    rfl

theorem levenshtein_cons_cons (x y : Char) (xs ys : List Char) :
    levenshtein (x :: xs) (y :: ys) =
      if x = y then levenshtein xs ys
      else 1 + min (levenshtein xs ys)
        (min (levenshtein xs (y :: ys)) (levenshtein (x :: xs) ys)) := by
  rw [levenshtein]

theorem edits_nil_left (ys : List Char) : Edits ys.length [] ys := by
  induction ys with
  | nil => exact .none []
  | cons y ys ih => exact .step (.insert [] [] y) (ih.cons y)

theorem edits_nil_right (xs : List Char) : Edits xs.length xs [] := by
  induction xs with
  | nil => exact .none []
  | cons x xs ih => exact .step (.delete [] xs x) ih

/-- **So many edits will do.** -/
theorem edits_levenshtein (xs ys : List Char) : Edits (levenshtein xs ys) xs ys := by
  fun_induction levenshtein xs ys with
  | case1 ys => exact edits_nil_left ys
  | case2 x xs => exact edits_nil_right (x :: xs)
  | case3 xs y ys ih => exact ih.cons y
  | case4 x xs y ys _ ihreplace ihdelete ihinsert =>
    have hreplace := Edits.step (.replace [] xs x y) (ihreplace.cons y)
    have hdelete := Edits.step (.delete [] xs x) ihdelete
    have hinsert := Edits.step (.insert [] (x :: xs) y) (ihinsert.cons y)
    rw [Nat.add_comm]
    rcases min_choice (levenshtein xs ys)
      (min (levenshtein xs (y :: ys)) (levenshtein (x :: xs) ys)) with h | h
    · rwa [h]
    · rw [h]
      rcases min_choice (levenshtein xs (y :: ys)) (levenshtein (x :: xs) ys) with h | h
      · rwa [h]
      · rwa [h]

/-! ## No fewer will do -/

theorem levenshtein_self (xs : List Char) : levenshtein xs xs = 0 := by
  induction xs with
  | nil => rw [levenshtein_nil_left, List.length_nil]
  | cons x xs ih => rw [levenshtein_cons_cons, if_pos rfl, ih]

theorem levenshtein_comm (xs ys : List Char) : levenshtein xs ys = levenshtein ys xs := by
  fun_induction levenshtein xs ys with
  | case1 ys => rw [levenshtein_nil_right]
  | case2 x xs => rw [levenshtein_nil_left, List.length_cons]
  | case3 xs y ys ih => rw [levenshtein_cons_cons, if_pos rfl, ih]
  | case4 x xs y ys hne ihreplace ihdelete ihinsert =>
    rw [levenshtein_cons_cons, if_neg (Ne.symm hne), ihreplace, ihdelete, ihinsert,
      Nat.min_comm (levenshtein (y :: ys) xs)]

/-- A character more on the left costs one edit at most, and so does one less on the right.
The two are proved together: where two characters are equal, each needs the other. -/
theorem levenshtein_cons_le (xs ys : List Char) :
    (∀ c, levenshtein (c :: xs) ys ≤ levenshtein xs ys + 1) ∧
      ∀ c, levenshtein xs ys ≤ levenshtein xs (c :: ys) + 1 := by
  induction xs generalizing ys with
  | nil =>
    refine ⟨fun c => ?_, fun c => ?_⟩
    · cases ys with
      | nil => simp
      | cons y ys =>
        rw [levenshtein_cons_cons]
        simp only [levenshtein_nil_left, List.length_cons]
        split <;> omega
    · simp only [levenshtein_nil_left, List.length_cons]
      omega
  | cons x xs ih =>
    have hright : ∀ ys c, levenshtein (x :: xs) ys ≤ levenshtein (x :: xs) (c :: ys) + 1 := by
      intro ys c
      have hless := (ih ys).1 x
      have hmore := (ih ys).2 c
      rw [levenshtein_cons_cons]
      split <;> omega
    refine ⟨fun c => ?_, hright ys⟩
    cases ys with
    | nil => simp
    | cons y ys =>
      have hmore := hright ys y
      rw [levenshtein_cons_cons c]
      split <;> omega

/-- If replacing one text by another costs one edit at most, whatever the text they are
compared with, then so it does behind the same characters. -/
theorem levenshtein_append_le (h : ∀ zs, levenshtein xs zs ≤ levenshtein ys zs + 1)
    (front zs : List Char) :
    levenshtein (front ++ xs) zs ≤ levenshtein (front ++ ys) zs + 1 := by
  induction front generalizing zs with
  | nil => exact h zs
  | cons x front ih =>
    induction zs with
    | nil => simpa using ih []
    | cons z zs ihz =>
      have hreplace := ih zs
      have hdelete := ih (z :: zs)
      simp only [List.cons_append] at ihz ⊢
      rw [levenshtein_cons_cons, levenshtein_cons_cons]
      split <;> omega

/-- A character in place of another costs one edit at most. -/
theorem levenshtein_replace_le (c d : Char) (xs zs : List Char) :
    levenshtein (c :: xs) zs ≤ levenshtein (d :: xs) zs + 1 := by
  induction zs with
  | nil => simp
  | cons z zs ih =>
    have hright := (levenshtein_cons_le xs zs).2 z
    have hleft := (levenshtein_cons_le zs xs).2 d
    rw [levenshtein_comm zs, levenshtein_comm zs] at hleft
    rw [levenshtein_cons_cons, levenshtein_cons_cons]
    split <;> split <;> omega

/-- **An edit brings a text nearer to another by one at most.** -/
theorem Edit.levenshtein_le (h : Edit xs ys) (zs : List Char) :
    levenshtein xs zs ≤ levenshtein ys zs + 1 := by
  cases h with
  | insert front back c =>
    refine levenshtein_append_le (fun zs => ?_) front zs
    rw [levenshtein_comm back, levenshtein_comm (c :: back)]
    exact (levenshtein_cons_le zs back).2 c
  | delete front back c =>
    exact levenshtein_append_le (fun zs => (levenshtein_cons_le back zs).1 c) front zs
  | replace front back c d =>
    exact levenshtein_append_le (levenshtein_replace_le c d back) front zs

/-- **So no fewer edits will do.** -/
theorem Edits.levenshtein_le (h : Edits n xs ys) : levenshtein xs ys ≤ n := by
  induction h with
  | none xs => rw [levenshtein_self]
  | @step n xs ys zs hedit _ ih =>
    have hnear := hedit.levenshtein_le zs
    omega

/-- **The recurrence counts the least number of edits.** -/
theorem isLeast_levenshtein (xs ys : List Char) :
    IsLeast {n | Edits n xs ys} (levenshtein xs ys) :=
  ⟨edits_levenshtein xs ys, fun _ h => h.levenshtein_le⟩

/-- It is the same backwards. -/
theorem levenshtein_reverse (xs ys : List Char) :
    levenshtein xs.reverse ys.reverse = levenshtein xs ys := by
  refine IsLeast.unique ?_ (isLeast_levenshtein xs ys)
  simpa only [Edits.reverse_iff] using isLeast_levenshtein xs.reverse ys.reverse

/-! ## The table -/

/-- The row of the table for the text `xs`, read backwards, after its cell for `done`, also
read backwards: the distances of `xs` to `done` with one more character of `ys` after the
other. -/
def cells (xs done : List Char) : List Char → List Nat
  | [] => []
  | y :: ys => levenshtein xs (y :: done) :: cells xs (y :: done) ys

/-- **A row is computed from the row above.** When a cell is computed, the cell above and
its left neighbour still hold the text without its last character, and the cell on
the left already the text with it. -/
theorem editCells_cells (c : Char) (xs done ys : List Char) :
    editCells c ys (levenshtein xs done) (cells xs done ys) (levenshtein (c :: xs) done) =
      cells (c :: xs) done ys := by
  induction ys generalizing done with
  | nil => rfl
  | cons y ys ih => rw [cells, cells, editCells, ← levenshtein_cons_cons, ih]

theorem editRow_cells (c : Char) (xs ys : List Char) :
    editRow ys c (levenshtein xs [] :: cells xs [] ys) =
      levenshtein (c :: xs) [] :: cells (c :: xs) [] ys := by
  have hfirst : levenshtein xs [] + 1 = levenshtein (c :: xs) [] := by simp
  rw [editRow, hfirst, editCells_cells]

/-- **After some characters the row is that of the text they make.** -/
theorem foldl_editRow (cs xs ys : List Char) :
    cs.foldl (fun row c => editRow ys c row) (levenshtein xs [] :: cells xs [] ys) =
      levenshtein (cs.reverse ++ xs) [] :: cells (cs.reverse ++ xs) [] ys := by
  induction cs generalizing xs with
  | nil => rfl
  | cons c cs ih => rw [List.foldl_cons, editRow_cells, ih, List.reverse_cons, List.append_assoc,
      List.singleton_append]

/-- The first row counts up. -/
theorem cells_nil (done ys : List Char) :
    cells [] done ys = List.range' (done.length + 1) ys.length := by
  induction ys generalizing done with
  | nil => rfl
  | cons y ys ih => rw [cells, ih, levenshtein_nil_left, List.length_cons, List.length_cons,
      List.range'_succ]

/-- The last cell is for the whole text. -/
theorem getLastD_cells (xs done ys : List Char) (n : Nat) :
    (levenshtein xs done :: cells xs done ys).getLastD n =
      levenshtein xs (ys.reverse ++ done) := by
  induction ys generalizing done n with
  | nil => rfl
  | cons y ys ih => rw [cells, List.getLastD_cons, ih, List.reverse_cons, List.append_assoc,
      List.singleton_append]

/-- **The table computes the recurrence.** -/
theorem editDistance_eq (a b : String) : editDistance a b = levenshtein a.toList b.toList := by
  have hstart : List.range (b.toList.length + 1) = levenshtein [] [] :: cells [] [] b.toList := by
    rw [cells_nil, List.range_eq_range', List.range'_succ, levenshtein_nil_left]
    rfl
  rw [editDistance, hstart, foldl_editRow, getLastD_cells, List.append_nil, List.append_nil,
    levenshtein_reverse]

/-- **The distance is the least number of edits** that turn one text into the other. -/
theorem isLeast_editDistance (a b : String) :
    IsLeast {n | Edits n a.toList b.toList} (editDistance a b) := by
  rw [editDistance_eq]
  exact isLeast_levenshtein a.toList b.toList

example : editDistance "ntohl" "ntohs" = 1 ∧ editDistance "memcpy" "memmove" = 4 := by decide

end TaintReplay
