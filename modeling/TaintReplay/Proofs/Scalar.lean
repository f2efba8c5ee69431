import TaintReplay.Proofs.Outline
/-!
# Scalars — words, and what is passed over around them

Three things are read of the text of an outline before it comes to tokens: positions,
which only columns and lines of are ever asked (`Position.after`); what is passed over,
spaces and line ends, up to a character that is not (`Solid`); and scalars. A word is read
up to a colon, or to the end of its line and on to the next one that is not indented more
(`plain?_newline`), or to the closing quote.
-/

namespace TaintReplay.Yaml

variable {c : Char} {cs rest word : List Char} {p : Position} {n m : Nat}

/-! ## Positions -/

namespace Position

/-- The position after some characters of the line. -/
def after (p : Position) (cs : List Char) : Position := cs.foldl next p

@[simp] theorem line_next (p : Position) (c : Char) : (p.next c).line = p.line := rfl

@[simp] theorem column_next (p : Position) (c : Char) : (p.next c).column = p.column + 1 := rfl

@[simp] theorem offset_next (p : Position) (c : Char) :
    (p.next c).offset = p.offset + c.utf8Size := rfl

theorem after_cons (p : Position) (c : Char) (cs : List Char) :
    p.after (c :: cs) = (p.next c).after cs := rfl

@[simp] theorem line_after (p : Position) (cs : List Char) : (p.after cs).line = p.line := by
  induction cs generalizing p with
  | nil => rfl
  | cons c cs ih => rw [after_cons, ih, line_next]

@[simp] theorem column_after (p : Position) (cs : List Char) :
    (p.after cs).column = p.column + cs.length := by
  induction cs generalizing p with
  | nil => rfl
  | cons c cs ih =>
    rw [after_cons, ih, column_next, List.length_cons]
    omega

theorem offset_after_le (p : Position) (cs : List Char) :
    (p.after cs).offset ≤ p.offset + 4 * cs.length := by
  induction cs generalizing p with
  | nil => exact Nat.le_refl _
  | cons c cs ih =>
    have hrest := ih (p.next c)
    have hsize : c.utf8Size ≤ 4 := c.utf8Size_le_four
    rw [offset_next] at hrest
    rw [after_cons, List.length_cons]
    omega

/-- Spaces are one byte each. -/
theorem after_spaces (p : Position) (n : Nat) : p.after (List.replicate n ' ') = p.skip n := by
  induction n generalizing p with
  | zero => rfl
  | succ n ih =>
    have hsize : (' ' : Char).utf8Size = 1 := by decide
    rw [List.replicate_succ, after_cons, ih, skip, skip, column_next, offset_next, hsize,
      line_next, Nat.add_assoc, Nat.add_assoc, Nat.add_comm 1 n]

end Position

/-! ## What is passed over -/

/-- **What a token may start with**: the end of the text, or a character that is not
passed over. -/
def Solid (cs : List Char) : Prop :=
  ∀ c ∈ cs.head?, isBlank c = false ∧ isBreak c = false ∧ c ≠ '#' ∧ c ≠ '\uFEFF'

theorem solid_nil : Solid [] := nofun

theorem solid_cons (h : isBlank c = false ∧ isBreak c = false ∧ c ≠ '#' ∧ c ≠ '\uFEFF') :
    Solid (c :: cs) := by
  intro d hd
  cases hd
  exact h

theorem solid_of_isWord (h : IsWord word) : Solid (word ++ rest) := by
  obtain ⟨c, cs, rfl, hc⟩ := h.exists_cons
  refine solid_cons ⟨isBlank_of_isWordChar hc, isBreak_of_isWordChar hc, ?_, ?_⟩
  · exact beq_eq_false_iff_ne.1 (beq_eq_false_of_isWordChar hc rfl)
  · exact beq_eq_false_iff_ne.1 (beq_eq_false_of_isWordChar hc rfl)

namespace Cursor

/-- The first characters of the line are passed. -/
theorem drop_append (cs rest : List Char) (p : Position) :
    (⟨cs ++ rest, p⟩ : Cursor).drop cs.length = ⟨rest, p.after cs⟩ := by
  simp [drop, Position.after]

theorem skipMark_eq_self (h : ∀ c ∈ cs.head?, c ≠ '\uFEFF') :
    (⟨cs, p⟩ : Cursor).skipMark = ⟨cs, p⟩ := by
  have hmark : (cs.head? == some '\uFEFF') = false := by
    rw [beq_eq_false_iff_ne]
    intro hhead
    exact h _ hhead rfl
  rw [skipMark, hmark, Bool.and_false]
  rfl

theorem skipBlanks_spaces (tabs : Bool) (n : Nat) (h : Solid cs) :
    (⟨List.replicate n ' ' ++ cs, p⟩ : Cursor).skipBlanks tabs = ⟨cs, p.skip n⟩ := by
  have hspaces : ∀ c ∈ List.replicate n ' ', (c == ' ' || (tabs && c == '\t')) = true := by
    intro c hc
    rw [(List.mem_replicate.1 hc).2]
    rfl
  have hstop : cs.takeWhile (fun c => c == ' ' || (tabs && c == '\t')) = [] := by
    cases cs with
    | nil => rfl
    | cons c cs =>
      have hblank := (h c rfl).1
      rw [isBlank, Bool.or_eq_false_iff] at hblank
      rw [List.takeWhile_cons, hblank.1, hblank.2, Bool.and_false]
      rfl
  rw [skipBlanks, List.takeWhile_append_of_pos hspaces, hstop, List.append_nil, drop_append,
    Position.after_spaces]

theorem skipComment_eq_self (h : Solid cs) : (⟨cs, p⟩ : Cursor).skipComment = ⟨cs, p⟩ := by
  unfold skipComment
  split
  · rename_i hhead
    exact absurd rfl (h '#' (by rw [show cs = _ from hhead]; rfl)).2.2.1
  · rfl

theorem newline?_eq_none (h : Solid cs) : (⟨cs, p⟩ : Cursor).newline? = none := by
  cases cs with
  | nil => rfl
  | cons c cs =>
    have hbreak := (h c rfl).2.1
    simp [newline?, hbreak]

end Cursor

/-! ## Scalars -/

/-- The characters of a word are taken one by one. -/
theorem plain?_word (word : List Char) (h : ∀ c ∈ word, isWordChar c = true) (p : Position)
    (text : List Char) :
    plain? false n (word ++ rest) p text .none =
      plain? false n rest (p.after word) (word.reverse ++ text) .none := by
  induction word generalizing p text with
  | nil => rfl
  | cons c cs ih =>
    obtain ⟨hc, hcs⟩ := List.forall_mem_cons.1 h
    have hcolon : endsPlain false (c :: (cs ++ rest)) = false := by
      rw [endsPlain, beq_eq_false_of_isWordChar hc rfl]
      rfl
    have htake : plain? false n (c :: (cs ++ rest)) p text .none =
        plain? false n (cs ++ rest) (p.next c) (c :: text) .none := by
      rw [plain?, isBlank_of_isWordChar hc, isBreak_of_isWordChar hc, hcolon]
      rfl
    rw [List.cons_append, htake, ih hcs, Position.after_cons, List.reverse_cons,
      List.append_assoc, List.singleton_append]

/-- A plain scalar ends before a colon that ends a word. -/
theorem plain?_colon (h : endsWord cs = true) (text : List Char) :
    plain? false n (':' :: cs) p text .none = some (scanned text ⟨':' :: cs, p⟩ false) := by
  have hends : endsPlain false (':' :: cs) = true := by
    rw [endsPlain, h]
    rfl
  rw [plain?, hends]
  rfl

/-- Behind its line, it ends where a line is not indented more. -/
theorem plain?_spaces {first : Option Char} {more : List Char} (h : Solid rest) (m : Nat)
    (p : Position) (hcolumn : p.column + m < n) (text : List Char) :
    plain? false n (List.replicate m ' ' ++ rest) p text (.lines first more) =
      some (scanned text ⟨rest, p.skip m⟩ true) := by
  induction m generalizing p with
  | zero =>
    cases rest with
    | nil => rfl
    | cons c rest =>
      obtain ⟨hblank, hbreak, -⟩ := h c rfl
      have hindent : decide (p.column < n) = true := decide_eq_true hcolumn
      rw [List.replicate_zero, List.nil_append, plain?, hblank, hbreak, hindent]
      rfl
  | succ m ih =>
    have hsize : (' ' : Char).utf8Size = 1 := by decide
    have hspace : plain? false n (' ' :: (List.replicate m ' ' ++ rest)) p text
        (.lines first more) = plain? false n (List.replicate m ' ' ++ rest) (p.next ' ') text
          (.lines first more) := by
      rw [plain?, show (' ' == '\t') = false from rfl, Bool.and_false]
      rfl
    have hskip : (p.next ' ').skip m = p.skip (m + 1) := by
      rw [Position.skip, Position.skip, Position.column_next, Position.offset_next, hsize,
        Position.line_next, Nat.add_assoc, Nat.add_assoc, Nat.add_comm 1 m]
    rw [List.replicate_succ, List.cons_append, hspace,
      ih _ (by rw [Position.column_next]; omega), hskip]

theorem plain?_newline (h : Solid rest) (hm : m < n) (text : List Char) :
    plain? false n ('\n' :: (List.replicate m ' ' ++ rest)) p text .none =
      some (scanned text ⟨rest, p.newline.skip m⟩ true) := by
  have hbreak : plain? false n ('\n' :: (List.replicate m ' ' ++ rest)) p text .none =
      plain? false n (List.replicate m ' ' ++ rest) p.newline text (.lines (some '\n') []) := rfl
  rw [hbreak]
  exact plain?_spaces h m p.newline (by rw [Position.newline, Nat.zero_add]; exact hm) text

/-- **A word in quotes** ends at the closing one. -/
theorem singleQuoted?_word (word : List Char) (h : ∀ c ∈ word, isWordChar c = true)
    (p : Position) (hp : 0 < p.column) (text : List Char) :
    singleQuoted? (word ++ '\'' :: '\n' :: rest) p text .none =
      some (scanned (word.reverse ++ text) ⟨'\n' :: rest, (p.after word).next '\''⟩ false) := by
  induction word generalizing p text with
  | nil =>
    have hzero : (p.column == 0) = false := beq_eq_false_iff_ne.2 (by omega)
    rw [List.nil_append, singleQuoted?, hzero]
    · rfl
    · nofun
  | cons c cs ih =>
    obtain ⟨hc, hcs⟩ := List.forall_mem_cons.1 h
    have hzero : (p.column == 0) = false := beq_eq_false_iff_ne.2 (by omega)
    have htake : singleQuoted? (c :: (cs ++ '\'' :: '\n' :: rest)) p text .none =
        singleQuoted? (cs ++ '\'' :: '\n' :: rest) (p.next c) (c :: text) .none := by
      rw [singleQuoted?, isBlank_of_isWordChar hc, isBreak_of_isWordChar hc, hzero,
        beq_eq_false_of_isWordChar hc rfl]
      · rfl
      · rintro _ rfl
        cases hc
    rw [List.cons_append, htake, ih hcs _ (by rw [Position.column_next]; omega),
      Position.after_cons, List.reverse_cons, List.append_assoc, List.singleton_append]

end TaintReplay.Yaml
