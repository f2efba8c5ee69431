import TaintReplay.Proofs.Scalar
/-!
# Scanning — the lines of an outline give its tokens

Where a line begins, the scanner is in one of few states: all that it remembers are the
columns of the open blocks and the tokens so far. `Lines` says of a text that begins with a
line which tokens come of it from such a state, however much fuel there is. Each line of an
outline takes the scanner from one such state to the next, so the lemmas are read from the
end: what holds behind a line holds before it, with its tokens taken off
(`Scanner.lines_field`, `tokens?_textOf`).
-/

namespace TaintReplay.Yaml

variable {c : Char} {cs rest word : List Char} {p : Position} {n m : Nat}

namespace Scanner

/-! ## Blanks -/

section Blanks

variable (s : Scanner) {fuel : Nat}

theorem skip_spaces (n : Nat) (h : Solid cs) :
    (s.move ⟨List.replicate n ' ' ++ cs, p⟩).skip (fuel + 1) = s.move ⟨cs, p.skip n⟩ := by
  have hmark : ∀ c ∈ (List.replicate n ' ' ++ cs).head?, c ≠ '\uFEFF' := by
    intro c hc
    cases n with
    | zero => exact (h c hc).2.2.2
    | succ n =>
      cases hc
      decide
  rw [skip]
  simp only [move]
  rw [Cursor.skipMark_eq_self hmark, Cursor.skipBlanks_spaces _ n h, Cursor.skipComment_eq_self h,
    Cursor.newline?_eq_none h]

/-- A line end is passed together with the indentation of the next line. -/
theorem skip_newline (n : Nat) (h : Solid cs) :
    (s.move ⟨'\n' :: (List.replicate n ' ' ++ cs), p⟩).skip (fuel + 2) =
      (s.allowKey (s.inBlock || s.keyAllowed)).move ⟨cs, p.newline.skip n⟩ := by
  have hmark : (⟨'\n' :: (List.replicate n ' ' ++ cs), p⟩ : Cursor).skipMark =
      ⟨'\n' :: (List.replicate n ' ' ++ cs), p⟩ := Cursor.skipMark_eq_self (by simp)
  have hend (tabs : Bool) : (((⟨'\n' :: (List.replicate n ' ' ++ cs), p⟩ : Cursor).skipBlanks
      tabs).skipComment).newline? = some ⟨List.replicate n ' ' ++ cs, p.newline⟩ := by
    cases tabs <;> rfl
  rw [skip]
  simp only [move]
  rw [hmark, hend]
  exact skip_spaces (s.allowKey (s.inBlock || s.keyAllowed)) n h

end Blanks

/-! ## The scanner outside brackets -/

variable {s t : Scanner} {bs outer : List Nat} {ts all : List Token} {a : Bool}
variable {k : Option KeyPlace}

/-- The scanner outside brackets: where it is, the columns of the open blocks, the tokens
so far, whether a key may stand here, and the latest place of a key. -/
def outside (cs : List Char) (p : Position) (bs : List Nat) (ts : List Token) (a : Bool)
    (k : Option KeyPlace) : Scanner where
  cursor := ⟨cs, p⟩
  blocks := bs
  keyAllowed := a
  places := [k]
  tokens := ts
  count := ts.length

theorem dropStale_none : (outside cs p bs ts a none).dropStale = some (outside cs p bs ts a none) :=
  rfl

/-- A key is still waited for on its line. -/
theorem dropStale_fresh {q : KeyPlace} (hline : p.line ≤ q.position.line)
    (hoffset : p.offset ≤ q.position.offset + 1024) :
    (outside cs p bs ts a (some q)).dropStale = some (outside cs p bs ts a (some q)) := by
  have hfresh : (outside cs p bs ts a (some q)).isStale q = false := by
    have hsame : ¬ q.position.line < p.line := by omega
    have hnear : ¬ q.position.offset + 1024 < p.offset := by omega
    simp [isStale, outside, hsame, hnear]
  simp [dropStale, outside] at hfresh ⊢
  simp [hfresh]

/-- On a later line it is given up, if it was not required. -/
theorem dropStale_stale {q : KeyPlace} (hline : q.position.line < p.line)
    (hrequired : q.required = false) :
    (outside cs p bs ts a (some q)).dropStale = some (outside cs p bs ts a none) := by
  have hstale : (outside cs p bs ts a (some q)).isStale q = true := by
    simp [isStale, outside, hline]
  simp [dropStale, outside, hrequired] at hstale ⊢
  simp [hstale]

/-- Blocks that begin no further to the right stay open. -/
theorem closeBlocks_eq_self {column : Nat} (h : ∀ b ∈ bs.head?, b ≤ column) :
    (outside cs p bs ts a k).closeBlocks column = outside cs p bs ts a k := by
  have hnone : bs.takeWhile (column < ·) = [] := by
    cases bs with
    | nil => rfl
    | cons b bs =>
      have hle : ¬ column < b := Nat.not_lt.2 (h b rfl)
      simp [hle]
  simp [closeBlocks, outside, inBlock, hnone]

/-- A block that begins further to the right is closed, and the others are seen to. -/
theorem closeBlocks_cons {column b : Nat} (h : column < b) :
    (outside cs p (b :: bs) ts a k).closeBlocks column =
      (outside cs p bs (.blockEnd :: ts) a k).closeBlocks column := by
  simp [closeBlocks, outside, inBlock, h, emit]

/-! ## Runs -/

/-- What is done where blanks have been passed: a token is read, then the run goes on. -/
def turn (s : Scanner) (fuel : Nat) : Option (List Token) := do
  let next ← (s.closeBlocks s.cursor.column).next
  if s.cursor.rest.isEmpty then some next.tokens.reverse else next.run fuel

theorem run_succ (s : Scanner) (fuel : Nat) :
    s.run (fuel + 1) = (s.skip (fuel + 1)).dropStale.bind (·.turn fuel) := rfl

/-- **From here on the scanner gives those tokens**, however much fuel there is. -/
def Yields (s : Scanner) (all : List Token) : Prop :=
  ∀ fuel, s.cursor.rest.length < fuel → s.run fuel = some all

/-- The same, where blanks have been passed. -/
def Turns (s : Scanner) (all : List Token) : Prop :=
  ∀ fuel, s.cursor.rest.length ≤ fuel → s.turn fuel = some all

/-- Blanks are passed. -/
theorem Turns.yields (h : t.Turns all) (hle : t.cursor.rest.length ≤ s.cursor.rest.length)
    (hskip : ∀ fuel, s.cursor.rest.length ≤ fuel → (s.skip (fuel + 1)).dropStale = some t) :
    s.Yields all := by
  intro fuel hfuel
  obtain ⟨fuel, rfl⟩ : ∃ f, fuel = f + 1 := ⟨fuel - 1, by omega⟩
  rw [run_succ, hskip fuel (by omega)]
  exact h fuel (by omega)

/-- A token is read. -/
theorem Yields.turns (h : t.Yields all) (hlt : t.cursor.rest.length < s.cursor.rest.length)
    (hnext : (s.closeBlocks s.cursor.column).next = some t) : s.Turns all := by
  intro fuel hfuel
  have hmore : s.cursor.rest.isEmpty = false := by
    cases hrest : s.cursor.rest with
    | nil =>
      rw [hrest] at hlt
      exact absurd hlt (Nat.not_lt_zero _)
    | cons c cs => rfl
  rw [turn, hnext]
  simp only [Option.bind_eq_bind, Option.bind_some, hmore]
  exact h fuel (by omega)

/-- Spaces are passed within a line. -/
theorem Turns.yields_spaces {k' : Option KeyPlace} (n : Nat) (hsolid : Solid cs)
    (hdrop : (outside cs (p.skip n) bs ts a k).dropStale =
      some (outside cs (p.skip n) bs ts a k'))
    (h : (outside cs (p.skip n) bs ts a k').Turns all) :
    (outside (List.replicate n ' ' ++ cs) p bs ts a k).Yields all := by
  refine h.yields ?_ fun fuel _ => ?_
  · simp [outside]
  · have hskip : (outside (List.replicate n ' ' ++ cs) p bs ts a k).skip (fuel + 1) =
        outside cs (p.skip n) bs ts a k := skip_spaces (outside cs p bs ts a k) n hsolid
    rw [hskip, hdrop]

/-- A token is read that does not end a block. -/
theorem Yields.turns_outside (h : t.Yields all) (hhead : ∀ b ∈ bs.head?, b ≤ p.column)
    (hlt : t.cursor.rest.length < cs.length) (hnext : (outside cs p bs ts a k).next = some t) :
    (outside cs p bs ts a k).Turns all := by
  refine h.turns hlt ?_
  have hcolumn : (outside cs p bs ts a k).cursor.column = p.column := rfl
  rw [hcolumn, closeBlocks_eq_self hhead, hnext]

/-- The innermost block begins no further to the right. -/
theorem head?_le {b column : Nat} (h : b ≤ column) : ∀ b' ∈ (b :: outer).head?, b' ≤ column := by
  intro b' hb'
  cases hb'
  exact h

/-! ## Tokens -/

/-- The place that is remembered for what is read here. -/
def keyPlace (p : Position) (bs : List Nat) (ts : List Token) (a : Bool) : Option KeyPlace :=
  if a then some ⟨ts.length, p, bs.head? == some p.column⟩ else none

theorem savePlace_outside :
    (outside cs p bs ts a none).savePlace = some (outside cs p bs ts a (keyPlace p bs ts a)) := by
  cases a <;> rfl

/-- A word is read as a plain scalar, whatever follows. -/
theorem next_word (h : IsWord word) (tail : List Char) :
    (outside (word ++ tail) p bs ts a none).next =
      (outside (word ++ tail) p bs ts a none).plain := by
  obtain ⟨c, cs, rfl, hc⟩ := h.exists_cons
  have hdot : c ≠ '.' := fun heq => h.head (by rw [heq]; rfl)
  have hmark : isDocumentMark (c :: (cs ++ tail)) = false := by
    unfold isDocumentMark
    split
    · rename_i heq
      rw [(List.cons.inj heq).1] at hc
      cases hc
    · rename_i heq
      exact absurd (List.cons.inj heq).1 hdot
    · rfl
  have hreserved : isReserved c = false := by
    refine contains_eq_false_of_isWordChar hc ?_
    decide
  have hbeq : ∀ d, isWordChar d = false → (c == d) = false :=
    fun d hd => beq_eq_false_of_isWordChar hc hd
  simp [next, outside, hmark, hreserved, isBlank_of_isWordChar hc, isBreak_of_isWordChar hc,
    hbeq, isWordChar]

/-- The scanner behind a plain scalar. -/
theorem plain_outside (bs : List Nat) {r : Scanned}
    (h : plain? false ((bs.head?.map (· + 1)).getD 0) cs p [] .none = some r) :
    (outside cs p bs ts a none).plain = some (outside r.after.rest r.after.position bs
      (.scalar r.text true :: ts) r.crossedLine (keyPlace p bs ts a)) := by
  rw [plain, savePlace_outside, Option.bind_some]
  simp only [outside, inBlock] at h ⊢
  simp only [beq_self_eq_true, Bool.not_true, h, Option.map_some]
  rfl

/-- The scanner behind a scalar in single quotes. -/
theorem next_quote {r : Scanned} (h : singleQuoted? cs (p.next '\'') [] .none = some r) :
    (outside ('\'' :: cs) p bs ts a none).next = some (outside r.after.rest r.after.position bs
      (.scalar r.text false :: ts) false (keyPlace p bs ts a)) := by
  have hnext : (outside ('\'' :: cs) p bs ts a none).next =
      (outside ('\'' :: cs) p bs ts a none).quoted singleQuoted? := by
    simp [next, outside, isDocumentMark, inBlock]
  have hdrop : (⟨'\'' :: cs, p⟩ : Cursor).drop 1 = ⟨cs, p.next '\''⟩ := rfl
  rw [hnext, quoted, savePlace_outside, Option.bind_some]
  simp only [outside, hdrop, h, Option.map_some]
  rfl

/-- A dash before an item of an open list, or of one that needs no block of its own. -/
theorem next_dash :
    (outside ('-' :: ' ' :: cs) p (p.column :: outer) ts true none).next =
      some (outside (' ' :: cs) (p.next '-') (p.column :: outer) (.dash :: ts) true none) := by
  have hnext : (outside ('-' :: ' ' :: cs) p (p.column :: outer) ts true none).next =
      (outside ('-' :: ' ' :: cs) p (p.column :: outer) ts true none).dash := by
    simp [next, outside, isDocumentMark, endsWord, isBlank]
  rw [hnext]
  simp [dash, outside, inBlock, openBlock, Cursor.column, dropPlace, allowKey, emit, move,
    Cursor.drop]

/-- **How a key meets the blocks**: the one at its column is open, or opens with it. -/
inductive Enters (n : Nat) (outer : List Nat) (ts : List Token) :
    List Nat → List Token → Prop
  | stays : Enters n outer ts (n :: outer) ts
  | opens (h : ∀ b ∈ outer.head?, b < n) : Enters n outer ts outer (.blockMapStart :: ts)

theorem Enters.head_le {ts' : List Token} (h : Enters n outer ts bs ts') :
    ∀ b ∈ bs.head?, b ≤ n := by
  intro b hb
  cases h with
  | stays =>
    cases hb
    exact Nat.le_refl n
  | opens h => exact Nat.le_of_lt (h b hb)

/-- A colon makes a key of the scalar before it. -/
theorem next_colon {ts' : List Token} {name : String} {isPlain required : Bool} {q : Position}
    (henter : Enters q.column outer ts bs ts') (hcs : endsWord cs = true) :
    (outside (':' :: cs) p bs (.scalar name isPlain :: ts) a (some ⟨ts.length, q, required⟩)).next =
      some (outside cs (p.next ':') (q.column :: outer)
        (.value :: .scalar name isPlain :: .key :: ts') false none) := by
  have hnext : (outside (':' :: cs) p bs (.scalar name isPlain :: ts) a
      (some ⟨ts.length, q, required⟩)).next = (outside (':' :: cs) p bs
        (.scalar name isPlain :: ts) a (some ⟨ts.length, q, required⟩)).value := by
    simp [next, outside, isDocumentMark, inBlock, hcs]
  rw [hnext]
  cases henter with
  | stays =>
    simp [value, outside, insert, openBlock, inBlock, emit, move, Cursor.drop]
  | opens h =>
    have hopen : bs.head?.all (· < q.column) = true := by
      cases bs with
      | nil => rfl
      | cons b bs => exact decide_eq_true (h b rfl)
    have hcount : ts.length + 1 + 1 - ts.length = 2 := by omega
    simp [value, outside, insert, openBlock, inBlock, emit, move, Cursor.drop, hopen, hcount]

/-! ## Lines -/

/-- **The text begins with a line, and the scanner goes on from it to all the tokens.** The
line is not indented by more than the bound. -/
def Lines (bound : Nat) (cs : List Char) (bs : List Nat) (ts all : List Token) : Prop :=
  ∃ n rest, cs = List.replicate n ' ' ++ rest ∧ Solid rest ∧ n ≤ bound ∧
    ∀ p : Position, p.column = n → (outside rest p bs ts true none).Turns all

theorem Lines.mono {b b' : Nat} (h : Lines b cs bs ts all) (hle : b ≤ b') :
    Lines b' cs bs ts all := by
  obtain ⟨n, rest, hcs, hsolid, hn, hturns⟩ := h
  exact ⟨n, rest, hcs, hsolid, Nat.le_trans hn hle, hturns⟩

/-- A place of a key that a later line gives up. -/
def Passing (p : Position) (k : Option KeyPlace) : Prop :=
  ∀ q ∈ k, q.required = false ∧ q.position.line ≤ p.line

theorem passing_none : Passing p none := nofun

/-- What stands to the right of the innermost block need not be a key. -/
theorem passing_keyPlace {b : Nat} {p' : Position} (hcolumn : b < p.column)
    (hline : p.line ≤ p'.line) : Passing p' (keyPlace p (b :: bs) ts a) := by
  intro q hq
  cases a with
  | false => cases hq
  | true =>
    cases hq
    refine ⟨?_, hline⟩
    have hne : b ≠ p.column := Nat.ne_of_lt hcolumn
    simp [hne]

theorem dropStale_passing {p' : Position} (h : Passing p k) (hline : p.line < p'.line) :
    (outside cs p' bs ts a k).dropStale = some (outside cs p' bs ts a none) := by
  cases k with
  | none => rfl
  | some q =>
    obtain ⟨hrequired, hle⟩ := h q rfl
    exact dropStale_stale (Nat.lt_of_le_of_lt hle hline) hrequired

/-- A line that is read up to its end. -/
theorem Lines.yields_newline {bound : Nat} (h : Lines bound cs bs ts all) (hk : Passing p k) :
    (outside ('\n' :: cs) p bs ts a k).Yields all := by
  obtain ⟨n, rest, rfl, hsolid, -, hturns⟩ := h
  have hcolumn : (p.newline.skip n).column = n := Nat.zero_add n
  refine (hturns (p.newline.skip n) hcolumn).yields ?_ fun fuel hfuel => ?_
  · simp only [outside, List.length_cons, List.length_append]
    omega
  · obtain ⟨fuel, rfl⟩ : ∃ f, fuel = f + 1 := ⟨fuel - 1, by
      simp only [outside, List.length_cons] at hfuel
      omega⟩
    have hskip : (outside ('\n' :: (List.replicate n ' ' ++ rest)) p bs ts a k).skip (fuel + 2) =
        outside rest (p.newline.skip n) bs ts true k :=
      skip_newline (outside rest p bs ts a k) n hsolid
    rw [hskip]
    exact dropStale_passing hk (Nat.lt_succ_self p.line)

/-- **A word that ends its line.** The line below must not be indented more than the
block, or the word would go on there. -/
theorem Lines.turns_word {b : Nat}
    (h : Lines b cs (b :: outer) (.scalar (String.ofList word) true :: ts) all)
    (hword : IsWord word) (hp : b < p.column) :
    (outside (word ++ '\n' :: cs) p (b :: outer) ts a none).Turns all := by
  obtain ⟨n, rest, rfl, hsolid, hn, hturns⟩ := h
  let p' := (p.after word).newline.skip n
  have hcolumn : p'.column = n := Nat.zero_add n
  have hline : p.line < p'.line := by
    have hsame : (p.after word).line = p.line := Position.line_after p word
    show p.line < (p.after word).line + 1
    omega
  have hread : plain? false (b + 1) (word ++ '\n' :: (List.replicate n ' ' ++ rest)) p [] .none =
      some (scanned word.reverse ⟨rest, p'⟩ true) := by
    rw [plain?_word word hword.chars, plain?_newline hsolid (Nat.lt_succ_of_le hn),
      List.append_nil]
  have htext : (scanned word.reverse ⟨rest, p'⟩ true).text = String.ofList word := by
    rw [scanned, List.reverse_reverse]
  have hend : (outside rest p' (b :: outer) (.scalar (String.ofList word) true :: ts) true
      (keyPlace p (b :: outer) ts a)).Yields all :=
    Turns.yields_spaces 0 hsolid (dropStale_passing (passing_keyPlace hp (Nat.le_refl _)) hline)
      (hturns p' hcolumn)
  refine hend.turns_outside (head?_le (Nat.le_of_lt hp)) ?_ ?_
  · simp only [outside, List.length_cons, List.length_append]
    omega
  · rw [next_word hword, plain_outside (b :: outer) hread, htext]
    rfl

/-- A word in quotes that ends its line. -/
theorem Lines.turns_quote {b bound : Nat}
    (h : Lines bound cs (b :: outer) (.scalar (String.ofList word) false :: ts) all)
    (hword : IsWord word) (hp : b < p.column) :
    (outside ('\'' :: (word ++ '\'' :: '\n' :: cs)) p (b :: outer) ts a none).Turns all := by
  let p' := ((p.next '\'').after word).next '\''
  have hline : p'.line = p.line := by
    rw [Position.line_next, Position.line_after, Position.line_next]
  have hread : singleQuoted? (word ++ '\'' :: '\n' :: cs) (p.next '\'') [] .none =
      some (scanned word.reverse ⟨'\n' :: cs, p'⟩ false) := by
    rw [singleQuoted?_word word hword.chars _ (Nat.succ_pos _), List.append_nil]
  have htext : (scanned word.reverse ⟨'\n' :: cs, p'⟩ false).text = String.ofList word := by
    rw [scanned, List.reverse_reverse]
  have hpassing : Passing p' (keyPlace p (b :: outer) ts a) :=
    passing_keyPlace hp (Nat.le_of_eq hline.symm)
  have hend := h.yields_newline (a := false) hpassing
  refine hend.turns_outside (head?_le (Nat.le_of_lt hp)) ?_ ?_
  · simp only [outside, List.length_cons, List.length_append]
    omega
  · rw [next_quote hread, htext]
    rfl

/-- A name that ends its line, in quotes or not. -/
theorem Lines.turns_name {b : Nat} {s : String}
    (h : Lines b cs (b :: outer) (.scalar s (!isQuoted s) :: ts) all) (hs : IsWord s.toList)
    (hp : b < p.column) :
    (outside ((quoteName s).toList ++ '\n' :: cs) p (b :: outer) ts a none).Turns all := by
  rw [← s.ofList_toList] at h
  cases hquoted : isQuoted s with
  | true =>
    rw [String.ofList_toList, hquoted, ← s.ofList_toList] at h
    have hturns := h.turns_quote hs hp (a := a)
    rw [toList_quoteName, if_pos hquoted]
    simpa using hturns
  | false =>
    rw [String.ofList_toList, hquoted, ← s.ofList_toList] at h
    have hturns := h.turns_word hs hp (a := a)
    rw [toList_quoteName, hquoted]
    exact hturns

theorem solid_quoteName {s : String} (hs : IsWord s.toList) :
    Solid ((quoteName s).toList ++ rest) := by
  rw [toList_quoteName]
  split
  · exact solid_cons (by decide)
  · exact solid_of_isWord hs

/-- **The line of an item.** -/
theorem Lines.item {s : String} (h : Lines n cs (n :: outer) ((itemTokens s).reverse ++ ts) all)
    (hs : IsWord s.toList) : Lines n (itemText n s ++ cs) (n :: outer) ts all := by
  refine ⟨n, '-' :: ' ' :: ((quoteName s).toList ++ '\n' :: cs), ?_, ?_, Nat.le_refl n, ?_⟩
  · simp [itemText]
  · exact solid_cons (by decide)
  · rintro p rfl
    have hp : p.column < ((p.next '-').skip 1).column := by
      show p.column < p.column + 1 + 1
      omega
    have hname : (outside ((quoteName s).toList ++ '\n' :: cs) ((p.next '-').skip 1)
        (p.column :: outer) (.dash :: ts) true none).Turns all := h.turns_name hs hp
    have hafter := hname.yields_spaces 1 (solid_quoteName hs) dropStale_none
    refine hafter.turns_outside (head?_le (Nat.le_refl p.column)) ?_ next_dash
    simp [outside]

theorem Lines.items (ss : List String) (hss : ∀ s ∈ ss, IsWord s.toList)
    (h : Lines n cs (n :: outer) ((ss.flatMap itemTokens).reverse ++ ts) all) :
    Lines n (ss.flatMap (itemText n) ++ cs) (n :: outer) ts all := by
  induction ss generalizing ts with
  | nil => exact h
  | cons s ss ih =>
    obtain ⟨hs, hrest⟩ := List.forall_mem_cons.1 hss
    rw [List.flatMap_cons, List.append_assoc]
    refine (ih hrest ?_).item hs
    simpa using h

/-! ## Fields -/

/-- The scanner behind an opening bracket. -/
def bracketed (cs : List Char) (p : Position) (bs : List Nat) (ts : List Token) : Scanner where
  cursor := ⟨cs, p⟩
  flow := 1
  blocks := bs
  keyAllowed := true
  places := [none, none]
  tokens := .flowListStart :: ts
  count := ts.length + 1

/-- Brackets with nothing in them, behind a colon. -/
theorem Lines.turns_brackets {b bound : Nat}
    (h : Lines bound cs (b :: outer) (.flowListEnd :: .flowListStart :: ts) all)
    (hp : b < p.column) :
    (outside ('[' :: ']' :: '\n' :: cs) p (b :: outer) ts false none).Turns all := by
  let inside := bracketed (']' :: '\n' :: cs) (p.next '[') (b :: outer) ts
  have hopen : (outside ('[' :: ']' :: '\n' :: cs) p (b :: outer) ts false none).next =
      some inside := by
    simp [next, outside, isDocumentMark, openFlow, savePlace, emit, Cursor.drop, inside, bracketed]
  have hclose : inside.next = some (outside ('\n' :: cs) ((p.next '[').next ']') (b :: outer)
      (.flowListEnd :: .flowListStart :: ts) false none) := by
    simp [next, outside, isDocumentMark, closeFlow, dropPlace, emit, Cursor.drop, inside, bracketed,
      inBlock]
  have hend := h.yields_newline (a := false) (passing_none (p := (p.next '[').next ']'))
  have hinside : inside.Turns all := by
    refine hend.turns ?_ hclose
    simp [outside, inside, bracketed]
  have hskip : inside.Yields all := by
    refine hinside.yields (Nat.le_refl _) fun fuel _ => ?_
    have hblanks : inside.skip (fuel + 1) = inside :=
      skip_spaces inside 0 (solid_cons (by decide))
    rw [hblanks]
    rfl
  refine hskip.turns_outside (head?_le (Nat.le_of_lt hp)) ?_ hopen
  simp [inside, bracketed]

/-- **A key and its colon**, with whatever follows on the line or below. -/
theorem Lines.key {ts' : List Token} {name : String} (hname : IsWord name.toList)
    (hlength : name.toList.length ≤ 256) (henter : Enters n outer ts bs ts')
    (hcs : endsWord cs = true)
    (h : ∀ p : Position, n < p.column → (outside cs p (n :: outer)
      (.value :: .scalar name true :: .key :: ts') false none).Yields all) :
    Lines n (List.replicate n ' ' ++ (name.toList ++ ':' :: cs)) bs ts all := by
  refine ⟨n, name.toList ++ ':' :: cs, rfl, solid_of_isWord hname, Nat.le_refl n, ?_⟩
  rintro p rfl
  have hread : plain? false ((bs.head?.map (· + 1)).getD 0) (name.toList ++ ':' :: cs) p [] .none =
      some (scanned name.toList.reverse ⟨':' :: cs, p.after name.toList⟩ false) := by
    rw [plain?_word _ hname.chars, plain?_colon hcs, List.append_nil]
  have htext : (scanned name.toList.reverse ⟨':' :: cs, p.after name.toList⟩ false).text =
      name := by
    rw [scanned, List.reverse_reverse, String.ofList_toList]
  have hcolumn : p.column ≤ (p.after name.toList).column := by
    rw [Position.column_after]
    omega
  have hcolon : (outside (':' :: cs) (p.after name.toList) bs (.scalar name true :: ts) false
      (keyPlace p bs ts true)).Turns all := by
    have hafter := h ((p.after name.toList).next ':') (Nat.lt_succ_of_le hcolumn)
    refine hafter.turns_outside (fun b hb => Nat.le_trans (henter.head_le b hb) hcolumn) ?_ ?_
    · simp [outside]
    · exact next_colon henter hcs
  have hnear : (p.after name.toList).offset ≤ p.offset + 1024 := by
    have hoffset := Position.offset_after_le p name.toList
    omega
  have hfresh : (outside (':' :: cs) (p.after name.toList) bs (.scalar name true :: ts) false
      (keyPlace p bs ts true)).dropStale = some (outside (':' :: cs) (p.after name.toList) bs
        (.scalar name true :: ts) false (keyPlace p bs ts true)) :=
    dropStale_fresh (Nat.le_of_eq (Position.line_after p name.toList)) hnear
  have hscalar := hcolon.yields_spaces 0 (solid_cons (by decide)) hfresh
  refine hscalar.turns_outside henter.head_le ?_ ?_
  · have hpos := List.length_pos_iff.2 hname.nonempty
    simp only [outside, List.length_cons, List.length_append, List.replicate_zero, List.nil_append]
    omega
  · rw [next_word hname, plain_outside bs hread, htext]
    rfl

/-- **A block ends** where a line is indented less. -/
theorem Lines.dedent (h : Lines n cs (n :: outer) (.blockEnd :: ts) all) (hm : n < m) :
    Lines n cs (m :: n :: outer) ts all := by
  obtain ⟨n', rest, hcs, hsolid, hn, hturns⟩ := h
  refine ⟨n', rest, hcs, hsolid, hn, fun p hp fuel hfuel => ?_⟩
  have hlt : p.column < m := by omega
  have hclose : (outside rest p (m :: n :: outer) ts true none).turn fuel =
      (outside rest p (n :: outer) (.blockEnd :: ts) true none).turn fuel := by
    unfold turn
    change ((outside rest p (m :: n :: outer) ts true none).closeBlocks p.column).next >>= _ =
      ((outside rest p (n :: outer) (.blockEnd :: ts) true none).closeBlocks p.column).next >>= _
    rw [closeBlocks_cons hlt]
    rfl
  rw [hclose]
  exact hturns p hp fuel hfuel

mutual

/-- **The lines of a field give its tokens**, whether its key opens the block or goes on
with it. -/
theorem lines_field : (b : Outline) → b.Legible → {n : Nat} → {name : String} →
    {outer bs : List Nat} → {ts ts' all : List Token} → {cs : List Char} →
      IsWord name.toList → name.toList.length ≤ 256 → Enters n outer ts bs ts' →
      Lines n cs (n :: outer)
        ((.key :: .scalar name true :: .value :: b.tokens).reverse ++ ts') all →
      Lines n (List.replicate n ' ' ++ (name.toList ++ ':' :: (b.text n ++ cs))) bs ts all
  | .scalar s, hb, n, name, outer, bs, ts, ts', all, cs, hname, hlength, henter, h => by
    have hs : IsWord s.toList := by simpa only [Outline.Legible] using hb
    have hlines : Lines n cs (n :: outer) (.scalar (String.ofList s.toList) true ::
        .value :: .scalar name true :: .key :: ts') all := by
      simpa [Outline.tokens] using h
    refine Lines.key hname hlength henter (by simp [Outline.text, endsWord, isBlank]) ?_
    intro p hp
    have hword := hlines.turns_word hs (p := p.skip 1) (a := false) (Nat.lt_succ_of_lt hp)
    have hyields := hword.yields_spaces 1 (solid_of_isWord hs) dropStale_none
    simpa [Outline.text] using hyields
  | .names [], _, n, name, outer, bs, ts, ts', all, cs, hname, hlength, henter, h => by
    have hlines : Lines n cs (n :: outer) (.flowListEnd :: .flowListStart :: .value ::
        .scalar name true :: .key :: ts') all := by
      simpa [Outline.tokens] using h
    refine Lines.key hname hlength henter (by simp [Outline.text, endsWord, isBlank]) ?_
    intro p hp
    have hbrackets := hlines.turns_brackets (p := p.skip 1) (Nat.lt_succ_of_lt hp)
    exact hbrackets.yields_spaces 1 (solid_cons (by decide)) dropStale_none
  | .names (s :: ss), hb, n, name, outer, bs, ts, ts', all, cs, hname, hlength, henter, h => by
    have hss : ∀ x ∈ s :: ss, IsWord x.toList := by simpa only [Outline.Legible] using hb
    have hlines : Lines n cs (n :: outer) (((s :: ss).flatMap itemTokens).reverse ++
        (.value :: .scalar name true :: .key :: ts')) all := by
      simpa [Outline.tokens] using h
    refine Lines.key hname hlength henter (by simp [Outline.text, endsWord, isBreak]) ?_
    intro p hp
    have hyields := (hlines.items (s :: ss) hss).yields_newline (a := false)
      (passing_none (p := p))
    simpa only [Outline.text, List.cons_append] using hyields
  | .fields [], hb, _, _, _, _, _, _, _, _, _, _, _, _ => by
    simp [Outline.Legible] at hb
  | .fields ((key, b) :: es), hb, n, name, outer, bs, ts, ts', all, cs, hname, hlength, henter,
      h => by
    obtain ⟨-, ⟨hkey, hkeyLength⟩, hlegible, hrest⟩ :
        (key, b) :: es ≠ [] ∧ Outline.LegibleAll ((key, b) :: es) := by
      simpa only [Outline.Legible] using hb
    -- the inner block ends behind its last line
    have hend : Lines n cs ((n + 2) :: n :: outer) ((Outline.tokensOf ((key, b) :: es)).reverse ++
        .blockMapStart :: .value :: .scalar name true :: .key :: ts') all := by
      refine Lines.dedent ?_ (by omega)
      simpa [Outline.tokens] using h
    have hothers : Lines (n + 2) (Outline.textOf (n + 2) es ++ cs) ((n + 2) :: n :: outer)
        ((.key :: .scalar key true :: .value :: b.tokens).reverse ++
          .blockMapStart :: .value :: .scalar name true :: .key :: ts') all := by
      refine lines_fields es hrest ?_
      simpa [Outline.tokensOf] using hend.mono (Nat.le_add_right n 2)
    have hopens : ∀ b' ∈ (n :: outer).head?, b' < n + 2 := by
      intro b' hb'
      cases hb'
      omega
    have hfirst := lines_field b hlegible hkey hkeyLength (.opens hopens) hothers
    refine Lines.key hname hlength henter (by simp [Outline.text, endsWord, isBreak]) ?_
    intro p hp
    have hyields := hfirst.yields_newline (a := false) (passing_none (p := p))
    simpa [Outline.text, Outline.textOf] using hyields

/-- The lines of more fields of an open block. -/
theorem lines_fields : (es : List (String × Outline)) → Outline.LegibleAll es → {n : Nat} →
    {outer : List Nat} → {ts all : List Token} → {cs : List Char} →
      Lines n cs (n :: outer) ((Outline.tokensOf es).reverse ++ ts) all →
      Lines n (Outline.textOf n es ++ cs) (n :: outer) ts all
  | [], _, _, _, _, _, _, h => h
  | (name, b) :: es, hes, n, outer, ts, all, cs, h => by
    obtain ⟨⟨hname, hlength⟩, hb, hrest⟩ := hes
    have hfield := lines_field b hb hname hlength .stays
      (lines_fields es hrest (by simpa [Outline.tokensOf] using h))
    simpa [Outline.textOf] using hfield

end

/-- A text is scanned from its first line. -/
theorem Lines.tokens?_eq_some {bound : Nat} (h : Lines bound cs [] [] all) :
    tokens? cs = some all := by
  obtain ⟨n, rest, rfl, hsolid, -, hturns⟩ := h
  have hstart : (outside (List.replicate n ' ' ++ rest) {} [] [] true none).Yields all :=
    (hturns (({} : Position).skip n) (Nat.zero_add n)).yields_spaces n hsolid dropStale_none
  exact hstart _ (Nat.lt_succ_self _)

/-- The end of the text ends the outermost block. -/
theorem lines_end (ts : List Token) :
    Lines 0 [] [0] ts (ts.reverse ++ [.blockEnd, .streamEnd]) := by
  refine ⟨0, [], rfl, solid_nil, Nat.le_refl 0, fun p hp fuel _ => ?_⟩
  have hclose : (outside [] p [0] ts true none).closeBlocks p.column =
      outside [] p [0] ts true none := closeBlocks_eq_self (head?_le (Nat.zero_le _))
  have hcolumn : (outside [] p [0] ts true none).cursor.column = p.column := rfl
  have hnext : (outside [] p [0] ts true none).next =
      some (outside [] p [] (.streamEnd :: .blockEnd :: ts) false none) := rfl
  rw [turn, hcolumn, hclose, hnext]
  simp [outside]

end Scanner

/-- **The text of an outline gives its tokens.** -/
theorem tokens?_textOf {es : List (String × Outline)} (hne : es ≠ [])
    (h : Outline.LegibleAll es) :
    tokens? (Outline.textOf 0 es) =
      some (.blockMapStart :: Outline.tokensOf es ++ [.blockEnd, .streamEnd]) := by
  obtain ⟨⟨name, b⟩, es, rfl⟩ := List.exists_cons_of_ne_nil hne
  obtain ⟨⟨hname, hlength⟩, hb, hrest⟩ := h
  have hend : Scanner.Lines 0 [] [0] ((Outline.tokensOf es).reverse ++
      ((.key :: .scalar name true :: .value :: b.tokens).reverse ++ [.blockMapStart]))
      (.blockMapStart :: Outline.tokensOf ((name, b) :: es) ++ [.blockEnd, .streamEnd]) := by
    have hlast := Scanner.lines_end (.blockMapStart :: Outline.tokensOf ((name, b) :: es)).reverse
    simpa [Outline.tokensOf] using hlast
  have hothers := Scanner.lines_fields es hrest hend
  have hopens : Scanner.Enters 0 [] [] [] [.blockMapStart] := .opens nofun
  have hlines := Scanner.lines_field b hb hname hlength hopens hothers
  have htext : List.replicate 0 ' ' ++ (name.toList ++ ':' :: (b.text 0 ++
      (Outline.textOf 0 es ++ []))) = Outline.textOf 0 ((name, b) :: es) := by
    simp [Outline.textOf]
  rw [htext] at hlines
  exact hlines.tokens?_eq_some

end TaintReplay.Yaml
