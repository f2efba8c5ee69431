import TaintReplay.Notation.Json.Writer
import TaintReplay.Proofs.Reading
/-!
# JSON — what is written is read back

Between data and its text stand the tokens (`tokens`). The characters of a value lex to
its tokens, and leave what follows untouched (`scan_write`). That needs care with numbers
only: a number ends where a character cannot belong to one, so what follows it must not
go on with one (`Delimits`). The tokens in turn make the value complete, whatever is
open around it (`foldlM_tokens`).

Not everything can be written: a key must be a text, an integer must fit a machine word,
and what was not readable has no text of its own (`Data.Writable`).
-/

namespace TaintReplay

mutual

/-- **What can be written in JSON** and read back. -/
def Data.Writable : Data → Prop
  | .null | .bool _ | .text _ => True
  | .int n => -(1 <<< 63 : Nat) ≤ n ∧ n < UInt64.size
  | .minusZero | .real | .unreadable => False
  | .list items => Data.WritableItems items
  | .map entries => Data.WritableEntries entries

/-- Each item can be written. -/
def Data.WritableItems : List Data → Prop
  | [] => True
  | d :: ds => d.Writable ∧ Data.WritableItems ds

/-- Each key is a text, and each value can be written. -/
def Data.WritableEntries : List (Data × Data) → Prop
  | [] => True
  | (k, v) :: es => (∃ s, k = .text s) ∧ v.Writable ∧ Data.WritableEntries es

end

namespace Json

variable {c : Char} {cs rest : List Char} {ts : List Token} {p : Partial} {d : Data}

mutual

/-- The tokens of a value. -/
def tokens : Data → List Token
  | .text s => [.string (some s)]
  | .list items => .listStart :: tokensOfItems items ++ [.listEnd]
  | .map entries => .mapStart :: tokensOfEntries entries ++ [.mapEnd]
  | d => [.literal d]

/-- The tokens of the items, with commas between them. -/
def tokensOfItems : List Data → List Token
  | [] => []
  | [d] => tokens d
  | d :: ds => tokens d ++ .comma :: tokensOfItems ds

/-- The tokens of the entries, with commas between them. -/
def tokensOfEntries : List (Data × Data) → List Token
  | [] => []
  | [(k, v)] => tokens k ++ .colon :: tokens v
  | (k, v) :: es => tokens k ++ .colon :: tokens v ++ .comma :: tokensOfEntries es

end

theorem tokensOfItems_cons_cons (d e : Data) (ds : List Data) :
    tokensOfItems (d :: e :: ds) = tokens d ++ .comma :: tokensOfItems (e :: ds) := rfl

theorem tokensOfEntries_cons_cons (k v : Data) (e : Data × Data) (es : List (Data × Data)) :
    tokensOfEntries ((k, v) :: e :: es) =
      tokens k ++ .colon :: tokens v ++ .comma :: tokensOfEntries (e :: es) := rfl

theorem writeItems_cons_cons (d e : Data) (ds : List Data) :
    writeItems (d :: e :: ds) = write d ++ ',' :: writeItems (e :: ds) := rfl

theorem writeEntries_cons_cons (k v : Data) (e : Data × Data) (es : List (Data × Data)) :
    writeEntries ((k, v) :: e :: es) =
      write k ++ ':' :: write v ++ ',' :: writeEntries (e :: es) := rfl

/-! ## Characters -/

/-- The tokens of a text that is being read, with what is still to come; in reverse. -/
def scan (l : Lexer) (cs : List Char) : Option (List Token) :=
  (cs.foldlM Lexer.feed l).bind Lexer.finish

theorem scan_cons (l : Lexer) (c : Char) (cs : List Char) :
    scan l (c :: cs) = (l.feed c).bind fun l => scan l cs := by
  rw [scan, List.foldlM_cons]
  cases l.feed c <;> rfl

/-- What follows a value does not go on with a number. -/
def Delimits (rest : List Char) : Prop := ∀ c ∈ rest.head?, isNumeric c = false

theorem delimits_nil : Delimits [] := nofun

theorem delimits_cons (h : isNumeric c = false) : Delimits (c :: cs) := by
  intro x hx
  cases hx
  exact h

/-- Between tokens, a sign is a token of its own. -/
theorem scan_sign (c : Char) (t : Token)
    (h : Lexer.start ⟨.between, ts⟩ c = some (Lexer.emit ⟨.between, ts⟩ t)) :
    scan ⟨.between, ts⟩ (c :: cs) = scan ⟨.between, t :: ts⟩ cs := by
  rw [scan_cons, Lexer.feed, h]
  rfl

/-! ### Strings -/

/-- The value of a digit below sixteen is read back. -/
theorem digitValue?_digitChar : ∀ v < 16, digitValue? 16 (digitChar v) = some v := by decide

/-- A character that is neither half of a pair is pushed as it is. -/
theorem pushUnit_of_lt (h : c.toNat < 0x20) : p.pushUnit c.toNat = p.push c := by
  rw [Partial.pushUnit, if_neg (by omega), if_neg (by omega), Char.ofNat_toNat]

theorem push_of_settled (h : p.high = none) : p.push c = { p with chars := c :: p.chars } := by
  simp [Partial.push, Partial.settle, h]

/-- A digit of a unit that is not complete with it. -/
theorem scan_unit {left value v : Nat} (hleft : 1 < left) (hv : digitValue? 16 c = some v) :
    scan ⟨.unit p left value, ts⟩ (c :: rest) =
      scan ⟨.unit p (left - 1) (value * 16 + v), ts⟩ rest := by
  rw [scan_cons]
  simp only [Lexer.feed, hv, Option.map_some, Option.bind_some, if_neg (Nat.not_le.2 hleft)]
  rfl

/-- The last digit of a unit. -/
theorem scan_unit_last {value v : Nat} (hv : digitValue? 16 c = some v) :
    scan ⟨.unit p 1 value, ts⟩ (c :: rest) =
      scan ⟨.string (p.pushUnit (value * 16 + v)), ts⟩ rest := by
  rw [scan_cons]
  simp only [Lexer.feed, hv, Option.map_some, Option.bind_some, if_pos (Nat.le_refl 1)]
  rfl

/-- A control character is read back from the digits of its unit. -/
theorem scan_control (h : c.toNat < 0x20) :
    scan ⟨.string p, ts⟩ ('\\' :: 'u' :: '0' :: '0' ::
        digitChar (c.toNat / 16) :: digitChar (c.toNat % 16) :: rest) =
      scan ⟨.string (p.push c), ts⟩ rest := by
  have hzero : digitValue? 16 '0' = some 0 := by decide
  have hcode : (((0 * 16 + 0) * 16 + 0) * 16 + c.toNat / 16) * 16 + c.toNat % 16 = c.toNat := by
    omega
  have hopen : scan ⟨.string p, ts⟩ ('\\' :: 'u' :: '0' :: '0' :: digitChar (c.toNat / 16) ::
      digitChar (c.toNat % 16) :: rest) = scan ⟨.unit p 4 0, ts⟩ ('0' :: '0' ::
        digitChar (c.toNat / 16) :: digitChar (c.toNat % 16) :: rest) := by
    rw [scan_cons, scan_cons]
    rfl
  rw [hopen, scan_unit (by decide) hzero, scan_unit (by decide) hzero,
    scan_unit (by decide) (digitValue?_digitChar _ (by omega)),
    scan_unit_last (digitValue?_digitChar _ (by omega)), hcode, pushUnit_of_lt h]

/-- Any other character that needs no escape stands for itself. -/
theorem scan_plain (hquote : c ≠ '"') (hbackslash : c ≠ '\\') (h : ¬ c.toNat < 0x20) :
    scan ⟨.string p, ts⟩ (c :: rest) = scan ⟨.string (p.push c), ts⟩ rest := by
  rw [scan_cons]
  simp only [Lexer.feed, beq_iff_eq, hquote, hbackslash, h, if_false]
  rfl

/-- **A character of a string is read back from the way it is written.** -/
theorem scan_escape (c : Char) :
    scan ⟨.string p, ts⟩ (escape c ++ rest) = scan ⟨.string (p.push c), ts⟩ rest := by
  unfold escape
  split
  case h_8 hquote hbackslash _ _ _ _ _ =>
    split
    · exact scan_control ‹_›
    · exact scan_plain hquote hbackslash ‹_›
  all_goals
    simp only [List.cons_append, List.nil_append, scan_cons]
    rfl

/-- The rest of a string is read up to its closing quote. -/
theorem scan_escapes (cs : List Char) (hhigh : p.high = none) (hwhole : p.whole = true) :
    scan ⟨.string p, ts⟩ (cs.flatMap escape ++ '"' :: rest) =
      scan ⟨.between, .string (some (String.ofList (p.chars.reverse ++ cs))) :: ts⟩ rest := by
  induction cs generalizing p with
  | nil =>
    rw [List.flatMap_nil, List.nil_append, scan_cons]
    have htext : p.text? = some (String.ofList p.chars.reverse) := by
      simp [Partial.text?, Partial.settle, hhigh, hwhole]
    simp [Lexer.feed, Lexer.emit, htext]
  | cons c cs ih =>
    rw [List.flatMap_cons, List.append_assoc, scan_escape, push_of_settled hhigh]
    refine (ih (p := { p with chars := c :: p.chars }) hhigh hwhole).trans ?_
    simp

/-- **A string is one token**, whatever follows. -/
theorem scan_quote (s : String) :
    scan ⟨.between, ts⟩ (quote s ++ rest) = scan ⟨.between, .string (some s) :: ts⟩ rest := by
  have hopen : scan ⟨.between, ts⟩ (quote s ++ rest) =
      scan ⟨.string {}, ts⟩ (s.toList.flatMap escape ++ '"' :: rest) := by
    rw [quote, List.append_assoc, List.cons_append, scan_cons]
    rfl
  rw [hopen, scan_escapes s.toList rfl rfl]
  simp

/-! ### Numbers -/

/-- Digits of a number are taken one by one. -/
theorem scan_digits (cs taken : List Char) (h : ∀ c ∈ cs, c.isDigit = true) :
    scan ⟨.number taken, ts⟩ (cs ++ rest) = scan ⟨.number (cs.reverse ++ taken), ts⟩ rest := by
  induction cs generalizing taken with
  | nil => rfl
  | cons c cs ih =>
    obtain ⟨hc, hcs⟩ := List.forall_mem_cons.1 h
    have hnumeric : isNumeric c = true := by simp [isNumeric, isDecimal_of_isDigit hc]
    rw [List.cons_append, scan_cons]
    simp only [Lexer.feed, hnumeric, if_true, Option.bind_some]
    refine (ih (c :: taken) hcs).trans ?_
    rw [List.reverse_cons, List.append_assoc, List.singleton_append]

/-- **A number ends where it cannot go on.** -/
theorem scan_number {taken : List Char} (hd : number? taken.reverse = some d)
    (hrest : Delimits rest) :
    scan ⟨.number taken, ts⟩ rest = scan ⟨.between, .literal d :: ts⟩ rest := by
  cases rest with
  | nil => simp [scan, Lexer.finish, hd]
  | cons c rest =>
    have hc : isNumeric c = false := hrest c rfl
    rw [scan_cons, scan_cons]
    simp [Lexer.feed, hc, hd, Lexer.emit]

/-- Digits alone are the whole of a number. -/
theorem span_toDigits (n : Nat) :
    (Nat.toDigits 10 n).takeWhile isDecimal = Nat.toDigits 10 n ∧
      (Nat.toDigits 10 n).dropWhile isDecimal = [] := by
  have hall : ∀ c ∈ Nat.toDigits 10 n, isDecimal c = true :=
    fun c hc => isDecimal_of_isDigit (isDigit_of_mem_toDigits hc)
  have hwhole : (Nat.toDigits 10 n ++ []).takeWhile isDecimal = Nat.toDigits 10 n ++ [] :=
    List.takeWhile_append_of_pos hall
  have htail : (Nat.toDigits 10 n ++ []).dropWhile isDecimal = [] :=
    List.dropWhile_append_of_pos hall
  rw [List.append_nil] at hwhole htail
  exact ⟨hwhole, htail⟩

theorem not_padded_toDigits (n : Nat) :
    ¬ ((Nat.toDigits 10 n).head? = some '0' ∧ 1 < (Nat.toDigits 10 n).length) := by
  rintro ⟨hhead, hlength⟩
  have hone := length_toDigits_of_head? hhead
  omega

/-- **A natural number is read back from its digits.** -/
theorem number?_toDigits {n : Nat} (hn : n < UInt64.size) :
    number? (Nat.toDigits 10 n) = some (.int n) := by
  obtain ⟨hwhole, htail⟩ := span_toDigits n
  unfold number?
  split
  rename_i negative magnitude hsplit
  split at hsplit
  · -- a digit is no minus sign
    rename_i hminus
    have hdigit : ('-' : Char).isDigit = true :=
      isDigit_of_mem_toDigits (n := n) (by rw [hminus]; exact List.mem_cons_self ..)
    cases hdigit
  · cases hsplit
    simp only [hwhole, htail]
    simp [not_padded_toDigits n, digits?_toDigits, fraction, Decimal.exponent?, hn]

/-- And a negative one behind a minus sign. -/
theorem number?_neg_toDigits {n : Nat} (hpos : 0 < n) (hn : n ≤ 1 <<< 63) :
    number? ('-' :: Nat.toDigits 10 n) = some (.int (-(n : Int))) := by
  obtain ⟨hwhole, htail⟩ := span_toDigits n
  have hrange : decide (0 < n ∧ n ≤ 1 <<< 63) = true := decide_eq_true ⟨hpos, hn⟩
  unfold number?
  simp only [hwhole, htail, digits?_toDigits, Option.bind_eq_bind, Option.bind_some, hrange]
  simp [not_padded_toDigits n, fraction, Decimal.exponent?]

/-- A number starts at a minus sign or a digit. -/
theorem scan_numeral (hc : c = '-' ∨ c.isDigit = true) :
    scan ⟨.between, ts⟩ (c :: cs) = scan ⟨.number [c], ts⟩ cs := by
  have hspace : isSpace c = false := by
    rw [Bool.eq_false_iff]
    intro h
    simp only [isSpace, Bool.or_eq_true, beq_iff_eq] at h
    rcases h with ((rfl | rfl) | rfl) | rfl <;> simp at hc
  have hstart : (c == '-' || isDecimal c) = true := by
    rcases hc with rfl | hc
    · rfl
    · simp [isDecimal_of_isDigit hc]
  rw [scan_cons]
  simp only [Lexer.feed, Lexer.start, hspace, hstart, if_true, Bool.false_eq_true, if_false,
    Option.bind_some]
  rfl

/-- **An integer is one token**, if it fits a machine word and what follows cannot belong
to it. -/
theorem scan_integer {n : Int} (hn : (Data.int n).Writable) (hrest : Delimits rest) :
    scan ⟨.between, ts⟩ (integer n ++ rest) = scan ⟨.between, .literal (.int n) :: ts⟩ rest := by
  obtain ⟨hlow, hhigh⟩ : -(1 <<< 63 : Nat) ≤ n ∧ n < UInt64.size := by
    simpa only [Data.Writable] using hn
  have hdigits : ∀ c ∈ Nat.toDigits 10 n.natAbs, c.isDigit = true :=
    fun _ => isDigit_of_mem_toDigits
  unfold integer
  split
  · have hread : number? ('-' :: Nat.toDigits 10 n.natAbs) = some (.int n) := by
      rw [number?_neg_toDigits (by omega) (by omega)]
      congr 2
      omega
    rw [List.cons_append, scan_numeral (.inl rfl), scan_digits _ _ hdigits]
    refine scan_number ?_ hrest
    simpa using hread
  · have hread : number? (Nat.toDigits 10 n.natAbs) = some (.int n) := by
      rw [number?_toDigits (by omega)]
      congr 2
      omega
    cases hsplit : Nat.toDigits 10 n.natAbs with
    | nil => exact absurd hsplit Nat.toDigits_ne_nil
    | cons c cs =>
      rw [hsplit] at hdigits hread
      obtain ⟨hc, hcs⟩ := List.forall_mem_cons.1 hdigits
      rw [List.cons_append, scan_numeral (.inr hc), scan_digits _ _ hcs]
      refine scan_number ?_ hrest
      simpa using hread

/-! ### Values -/

mutual

/-- **The characters of a value lex to its tokens**, and leave what follows untouched. -/
theorem scan_write : (d : Data) → d.Writable → (ts : List Token) → {rest : List Char} →
    Delimits rest →
      scan ⟨.between, ts⟩ (write d ++ rest) = scan ⟨.between, (tokens d).reverse ++ ts⟩ rest
  | .null, _, _, _, _ => rfl
  | .bool true, _, _, _, _ => rfl
  | .bool false, _, _, _, _ => rfl
  | .int _, h, _, _, hrest => scan_integer h hrest
  | .text s, _, _, _, _ => scan_quote s
  | .list items, h, ts, rest, _ => by
    have hitems : Data.WritableItems items := by simpa only [Data.Writable] using h
    rw [write, List.append_assoc, List.cons_append, List.singleton_append,
      scan_sign '[' .listStart rfl, scan_writeItems items hitems _ (delimits_cons rfl)]
    refine (scan_sign ']' .listEnd rfl).trans ?_
    simp [tokens]
  | .map entries, h, ts, rest, _ => by
    have hentries : Data.WritableEntries entries := by simpa only [Data.Writable] using h
    rw [write, List.append_assoc, List.cons_append, List.singleton_append,
      scan_sign '{' .mapStart rfl, scan_writeEntries entries hentries _ (delimits_cons rfl)]
    refine (scan_sign '}' .mapEnd rfl).trans ?_
    simp [tokens]

/-- The characters of the items lex to their tokens. -/
theorem scan_writeItems : (ds : List Data) → Data.WritableItems ds → (ts : List Token) →
    {rest : List Char} → Delimits rest →
      scan ⟨.between, ts⟩ (writeItems ds ++ rest) =
        scan ⟨.between, (tokensOfItems ds).reverse ++ ts⟩ rest
  | [], _, _, _, _ => rfl
  | [d], h, ts, _, hrest => scan_write d h.1 ts hrest
  | d :: e :: ds, h, ts, rest, hrest => by
    rw [writeItems_cons_cons, List.append_assoc, List.cons_append,
      scan_write d h.1 ts (delimits_cons rfl), scan_sign ',' .comma rfl,
      scan_writeItems (e :: ds) h.2 _ hrest]
    simp [tokensOfItems_cons_cons]

/-- The characters of the entries lex to their tokens. -/
theorem scan_writeEntries : (es : List (Data × Data)) → Data.WritableEntries es →
    (ts : List Token) → {rest : List Char} → Delimits rest →
      scan ⟨.between, ts⟩ (writeEntries es ++ rest) =
        scan ⟨.between, (tokensOfEntries es).reverse ++ ts⟩ rest
  | [], _, _, _, _ => rfl
  | [(k, v)], h, ts, rest, hrest => by
    obtain ⟨⟨s, rfl⟩, hv, -⟩ := h
    rw [writeEntries, write, List.append_assoc, List.cons_append, scan_quote,
      scan_sign ':' .colon rfl, scan_write v hv _ hrest]
    simp [tokensOfEntries, tokens]
  | (k, v) :: e :: es, h, ts, rest, hrest => by
    obtain ⟨⟨s, rfl⟩, hv, hes⟩ := h
    rw [writeEntries_cons_cons, write]
    simp only [List.append_assoc, List.cons_append]
    rw [scan_quote, scan_sign ':' .colon rfl, scan_write v hv _ (delimits_cons rfl),
      scan_sign ',' .comma rfl, scan_writeEntries (e :: es) hes _ hrest]
    simp [tokensOfEntries_cons_cons, tokens]

end

/-! ## Tokens -/

/-- Where a list may end, its first item is read as any other. -/
theorem foldlM_firstItem (d : Data) (ds : List Data) (frames : List Frame) (rest : List Token) :
    (tokensOfItems (d :: ds) ++ rest).foldlM Reader.feed (.firstItem frames) =
      (tokensOfItems (d :: ds) ++ rest).foldlM Reader.feed (.value (.list [] :: frames)) := by
  cases ds <;> cases d <;> rfl

mutual

/-- **The tokens of a value make it complete**, whatever is open around it. -/
theorem foldlM_tokens : (d : Data) → d.Writable → (frames : List Frame) → (rest : List Token) →
    (tokens d ++ rest).foldlM Reader.feed (.value frames) =
      rest.foldlM Reader.feed (.after d frames)
  | .null, _, _, _ => rfl
  | .bool _, _, _, _ => rfl
  | .int _, _, _, _ => rfl
  | .text _, _, _, _ => rfl
  | .list [], _, _, _ => rfl
  | .list (d :: ds), h, frames, rest => by
    have hitems : Data.WritableItems (d :: ds) := by simpa only [Data.Writable] using h
    rw [tokens, List.append_assoc]
    refine (foldlM_firstItem d ds frames _).trans ?_
    exact foldlM_tokensOfItems (d :: ds) nofun hitems [] frames rest
  | .map [], _, _, _ => rfl
  | .map (e :: es), h, frames, rest => by
    have hentries : Data.WritableEntries (e :: es) := by simpa only [Data.Writable] using h
    rw [tokens, List.append_assoc]
    exact foldlM_tokensOfEntries (e :: es) nofun hentries [] true frames rest

/-- The tokens of the items complete the list that is open. -/
theorem foldlM_tokensOfItems : (ds : List Data) → ds ≠ [] → Data.WritableItems ds →
    (items : List Data) → (frames : List Frame) → (rest : List Token) →
      (tokensOfItems ds ++ .listEnd :: rest).foldlM Reader.feed (.value (.list items :: frames)) =
        rest.foldlM Reader.feed (.after (.list (items.reverse ++ ds)) frames)
  | [], hne, _, _, _, _ => absurd rfl hne
  | [d], _, h, items, frames, rest => by
    refine (foldlM_tokens d h.1 (.list items :: frames) (.listEnd :: rest)).trans ?_
    change rest.foldlM Reader.feed (.after (.list (d :: items).reverse) frames) = _
    rw [List.reverse_cons]
  | d :: e :: ds, _, h, items, frames, rest => by
    rw [tokensOfItems_cons_cons, List.append_assoc, List.cons_append, foldlM_tokens d h.1]
    refine (foldlM_tokensOfItems (e :: ds) nofun h.2 (d :: items) frames rest).trans ?_
    rw [List.reverse_cons, List.append_assoc, List.singleton_append]

/-- The tokens of the entries complete the map that is open. -/
theorem foldlM_tokensOfEntries : (es : List (Data × Data)) → es ≠ [] →
    Data.WritableEntries es → (entries : List (Data × Data)) → (mayEnd : Bool) →
      (frames : List Frame) → (rest : List Token) →
        (tokensOfEntries es ++ .mapEnd :: rest).foldlM Reader.feed (.key entries mayEnd frames) =
          rest.foldlM Reader.feed (.after (.map (entries.reverse ++ es)) frames)
  | [], hne, _, _, _, _, _ => absurd rfl hne
  | [(k, v)], _, h, entries, mayEnd, frames, rest => by
    obtain ⟨⟨s, rfl⟩, hv, -⟩ := h
    rw [tokensOfEntries, tokens, List.append_assoc]
    refine (foldlM_tokens v hv (.map entries (.text s) :: frames) (.mapEnd :: rest)).trans ?_
    change rest.foldlM Reader.feed (.after (.map ((.text s, v) :: entries).reverse) frames) = _
    rw [List.reverse_cons]
  | (k, v) :: e :: es, _, h, entries, mayEnd, frames, rest => by
    obtain ⟨⟨s, rfl⟩, hv, hes⟩ := h
    rw [tokensOfEntries_cons_cons, tokens]
    simp only [List.append_assoc, List.cons_append, List.nil_append]
    refine (foldlM_tokens v hv (.map entries (.text s) :: frames) _).trans ?_
    refine (foldlM_tokensOfEntries (e :: es) nofun hes ((.text s, v) :: entries) false frames
      rest).trans ?_
    rw [List.reverse_cons, List.append_assoc, List.singleton_append]

end

/-! ## Texts -/

/-- **What is written is read back.** -/
theorem parse?_text (h : d.Writable) : parse? (text d) = some d := by
  have hscan : scan {} (write d) = some (tokens d).reverse := by
    have hwrite := scan_write d h [] delimits_nil
    rwa [List.append_nil, List.append_nil] at hwrite
  have htokens : tokens? (text d).toList = some (tokens d) := by
    rw [tokens?, text, String.toList_ofList]
    change (scan {} (write d)).map List.reverse = some (tokens d)
    rw [hscan, Option.map_some, List.reverse_reverse]
  have hread := foldlM_tokens d h [] []
  rw [List.append_nil] at hread
  rw [parse?, htokens, Option.bind_some, hread]
  rfl

/-- **And all of it**, if it is not nested too deep. -/
theorem read?_text (h : d.Writable) (hdepth : d.depth ≤ nestingLimit) :
    read? (text d) = some d := by
  rw [read?, parse?_text h, Option.map_some, Data.truncate_of_depth_le d hdepth]

end Json

end TaintReplay
