import TaintReplay.Decode.Format
/-!
# Reading — numbers and lists are read back

What both notations have in common. A natural number is written in decimal, as a run of
digits without a zero in front (`head?_toDigits_ne_zero`), and the digits amount to the
number (`digits?_toDigits`). A list is read item by item, so that it is read back if its
items are (`mapM_eq_pure_self`).
-/

namespace TaintReplay

/-! ## Lists and words -/

/-- Items that are left as they are make up the list they were. -/
theorem mapM_eq_pure_self {m : Type → Type} [Monad m] [LawfulMonad m] {α : Type} {f : α → m α}
    {xs : List α} (h : ∀ x ∈ xs, f x = pure x) : xs.mapM f = pure xs := by
  induction xs with
  | nil => exact List.mapM_nil
  | cons x xs ih =>
    obtain ⟨hx, hxs⟩ := List.forall_mem_cons.1 h
    rw [List.mapM_cons, hx, pure_bind, ih hxs, pure_bind]

theorem word32?_toNat (w : UInt32) : word32? w.toNat = some w := by
  rw [word32?, if_pos w.toNat_lt, UInt32.ofNat_toNat]

theorem word64?_toNat (w : UInt64) : word64? w.toNat = some w := by
  rw [word64?, if_pos w.toNat_lt, UInt64.ofNat_toNat]

/-! ## Numerals -/

variable {c : Char} {cs : List Char} {n : Nat}

/-- The value of a decimal digit is what it stands behind zero. -/
theorem digitValue?_of_isDigit (h : c.isDigit = true) :
    digitValue? 10 c = some (c.toNat - '0'.toNat) := by
  have hrange : '0' ≤ c ∧ c ≤ '9' := by
    simpa [Char.isDigit, Char.le_def] using h
  have hupper : c.toNat ≤ 57 := hrange.2
  have hsmall : c.toNat - '0'.toNat < 10 := by
    have hzero : '0'.toNat = 48 := rfl
    omega
  simp only [digitValue?, if_pos hrange, Option.filter_some, decide_eq_true hsmall, if_true]

theorem isDecimal_of_isDigit (h : c.isDigit = true) : isDecimal c = true := by
  simp [isDecimal, digitValue?_of_isDigit h]

/-- Decimal digits are added up from the left. -/
theorem foldlM_digitValue?_of_isDigit (h : ∀ c ∈ cs, c.isDigit = true) (n : Nat) :
    cs.foldlM (fun n c => (digitValue? 10 c).map (n * 10 + ·)) n =
      some (Nat.ofDigitChars 10 cs n) := by
  induction cs generalizing n with
  | nil => rfl
  | cons c cs ih =>
    obtain ⟨hc, hcs⟩ := List.forall_mem_cons.1 h
    rw [List.foldlM_cons, digitValue?_of_isDigit hc]
    refine (ih hcs _).trans ?_
    rw [Nat.ofDigitChars, Nat.ofDigitChars, List.foldl_cons, Nat.mul_comm]

theorem isDigit_of_mem_toDigits (h : c ∈ Nat.toDigits 10 n) : c.isDigit = true :=
  Nat.isDigit_of_mem_toDigits (by decide) (by decide) h

/-- **The digits of a number amount to it.** -/
theorem digits?_toDigits (n : Nat) : digits? 10 (Nat.toDigits 10 n) = some n := by
  have hne : (Nat.toDigits 10 n).isEmpty = false := by
    simp [Nat.toDigits_ne_nil]
  rw [digits?, hne]
  refine (foldlM_digitValue?_of_isDigit (fun _ => isDigit_of_mem_toDigits) 0).trans ?_
  rw [Nat.ofDigitChars_toDigits (by decide) (by decide)]

/-- **Only zero starts with a zero.** -/
theorem head?_toDigits_ne_zero (h : 0 < n) : (Nat.toDigits 10 n).head? ≠ some '0' := by
  induction n using Nat.strongRecOn with
  | ind n ih =>
    rcases Nat.lt_or_ge n 10 with hlt | hge
    · rw [Nat.toDigits_of_lt_base hlt]
      intro hzero
      have hchar : n.digitChar = '0' := Option.some.inj hzero
      have hvalue : n.digitChar.toNat = 48 + n := Nat.toNat_digitChar_of_lt_ten hlt
      rw [hchar] at hvalue
      have hcode : '0'.toNat = 48 := rfl
      omega
    · -- the first digit is that of the number without its last one
      have hinit := ih (n / 10) (by omega) (by omega)
      rw [Nat.toDigits_of_base_le (by decide) hge, List.head?_append]
      cases hhead : (Nat.toDigits 10 (n / 10)).head? with
      | none => exact absurd (List.head?_eq_none_iff.1 hhead) Nat.toDigits_ne_nil
      | some c => simpa [hhead] using hinit

/-- A zero in front is the only digit. -/
theorem length_toDigits_of_head? (h : (Nat.toDigits 10 n).head? = some '0') :
    (Nat.toDigits 10 n).length = 1 := by
  obtain rfl | hpos := Nat.eq_zero_or_pos n
  · rfl
  · exact absurd h (head?_toDigits_ne_zero hpos)

/-- The digits are a zero alone, or start with another digit. -/
theorem toDigits_cases (n : Nat) :
    Nat.toDigits 10 n = ['0'] ∨
      ∃ c cs, Nat.toDigits 10 n = c :: cs ∧ c.isDigit = true ∧ c ≠ '0' := by
  cases hdigits : Nat.toDigits 10 n with
  | nil => exact absurd hdigits Nat.toDigits_ne_nil
  | cons c cs =>
    have hdigit : c.isDigit = true :=
      isDigit_of_mem_toDigits (n := n) (by rw [hdigits]; exact List.mem_cons_self ..)
    by_cases hc : c = '0'
    · have hlength : (Nat.toDigits 10 n).length = 1 :=
        length_toDigits_of_head? (by rw [hdigits, hc]; rfl)
      rw [hdigits, List.length_cons, Nat.add_eq_right, List.length_eq_zero_iff] at hlength
      rw [hc, hlength]
      exact .inl rfl
    · exact .inr ⟨c, cs, rfl, hdigit, hc⟩

end TaintReplay
