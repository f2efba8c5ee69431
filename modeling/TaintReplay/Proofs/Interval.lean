import TaintReplay.State.Interval
/-!
# Intervals — the sets they stand for

An interval is read through the integers it contains. Meeting two intervals
meets their sets (`contains_inter`), and the interval of a condition contains
exactly the integers the condition holds of (`contains_of_ofCondition?`). The
two questions asked of the ends are then questions about the set: crossed ends
are the empty set (`isEmpty_iff`), and ends that meet are a singleton
(`contains_of_point?`). The converse of the last fails where an end is
missing, which is what `exists_two_or_open` keeps track of. The laws of the sets
and of the ends are put together in `denotes_set`.
-/

namespace TaintReplay

namespace Interval

variable {i : Interval} {c : Condition} {p v : Int64}

/-- Membership, read at the two ends. -/
theorem contains_iff : i.contains v = true ↔
    (∀ l, i.lower = some l → l ≤ v) ∧ ∀ u, i.upper = some u → v ≤ u := by
  simp [contains, Option.all_eq_true]

@[simp] theorem contains_unbounded : unbounded.contains v = true := by
  simp [unbounded, contains]

@[simp] theorem contains_empty : empty.contains v = false := by
  rw [Bool.eq_false_iff, ne_eq, contains_iff]
  rintro ⟨hl, hu⟩
  have h1 : (1 : Int64) ≤ v := hl 1 rfl
  have h0 : v ≤ 0 := hu 0 rfl
  grind

/-! ## Meeting -/

theorem max_le_end {a b : Int64} : max a b ≤ v ↔ a ≤ v ∧ b ≤ v := by
  change (if a ≤ b then b else a) ≤ v ↔ _
  split <;> grind

theorem le_min_end {a b : Int64} : v ≤ min a b ↔ v ≤ a ∧ v ≤ b := by
  change v ≤ (if a ≤ b then a else b) ↔ _
  split <;> grind

/-- Two ends are met by an end that asks for both, if the choice between two
present ends does. -/
theorem meetEnd_iff {pick : Int64 → Int64 → Int64} {R : Int64 → Prop}
    (hpick : ∀ a b, R (pick a b) ↔ R a ∧ R b) {x y : Option Int64} :
    (∀ e, meetEnd pick x y = some e → R e) ↔
      (∀ e, x = some e → R e) ∧ ∀ e, y = some e → R e := by
  cases x <;> cases y <;> simp [meetEnd, hpick]

/-- **Meeting intervals meets their sets.** -/
@[simp] theorem contains_inter (a b : Interval) (v : Int64) :
    (a.inter b).contains v = (a.contains v && b.contains v) := by
  rw [Bool.eq_iff_iff, Bool.and_eq_true, contains_iff, contains_iff, contains_iff]
  simp only [inter]
  rw [meetEnd_iff (R := fun e => e ≤ v) fun _ _ => max_le_end,
    meetEnd_iff (R := fun e => v ≤ e) fun _ _ => le_min_end]
  exact and_and_and_comm

/-! Met intervals are known by their ends alone, so the order in which they are
met does not matter, nor how often. Their sets would not tell: all crossed ends
stand for one set. -/

theorem toInt_max_end (a b : Int64) : (max a b).toInt = max a.toInt b.toInt := by
  change (if a ≤ b then b else a).toInt = _
  split <;> rename_i h <;> rw [Int64.le_iff_toInt_le] at h <;> omega

theorem toInt_min_end (a b : Int64) : (min a b).toInt = min a.toInt b.toInt := by
  change (if a ≤ b then a else b).toInt = _
  split <;> rename_i h <;> rw [Int64.le_iff_toInt_le] at h <;> omega

theorem max_end_self (a : Int64) : max a a = a := by
  rw [← Int64.toInt_inj, toInt_max_end, Int.max_self]

theorem max_end_comm (a b : Int64) : max a b = max b a := by
  rw [← Int64.toInt_inj, toInt_max_end, toInt_max_end, Int.max_comm]

theorem max_end_assoc (a b c : Int64) : max (max a b) c = max a (max b c) := by
  rw [← Int64.toInt_inj]
  simp only [toInt_max_end, Int.max_assoc]

theorem min_end_self (a : Int64) : min a a = a := by
  rw [← Int64.toInt_inj, toInt_min_end, Int.min_self]

theorem min_end_comm (a b : Int64) : min a b = min b a := by
  rw [← Int64.toInt_inj, toInt_min_end, toInt_min_end, Int.min_comm]

theorem min_end_assoc (a b c : Int64) : min (min a b) c = min a (min b c) := by
  rw [← Int64.toInt_inj]
  simp only [toInt_min_end, Int.min_assoc]

theorem meetEnd_self {pick : Int64 → Int64 → Int64} (hpick : ∀ a, pick a a = a)
    (x : Option Int64) : meetEnd pick x x = x := by
  cases x <;> simp only [meetEnd]
  rw [hpick]

theorem meetEnd_comm {pick : Int64 → Int64 → Int64} (hpick : ∀ a b, pick a b = pick b a)
    (x y : Option Int64) : meetEnd pick x y = meetEnd pick y x := by
  cases x <;> cases y <;> simp only [meetEnd]
  rw [hpick]

theorem meetEnd_assoc {pick : Int64 → Int64 → Int64}
    (hpick : ∀ a b c, pick (pick a b) c = pick a (pick b c)) (x y z : Option Int64) :
    meetEnd pick (meetEnd pick x y) z = meetEnd pick x (meetEnd pick y z) := by
  cases x <;> cases y <;> cases z <;> simp [meetEnd, hpick]

theorem inter_self (a : Interval) : a.inter a = a := by
  rw [inter, meetEnd_self max_end_self, meetEnd_self min_end_self]

theorem inter_comm (a b : Interval) : a.inter b = b.inter a := by
  simp only [inter, Interval.mk.injEq]
  exact ⟨meetEnd_comm max_end_comm _ _, meetEnd_comm min_end_comm _ _⟩

theorem inter_assoc (a b c : Interval) : (a.inter b).inter c = a.inter (b.inter c) := by
  simp only [inter, Interval.mk.injEq]
  exact ⟨meetEnd_assoc max_end_assoc _ _ _, meetEnd_assoc min_end_assoc _ _ _⟩

/-- **Intervals may be met in any order.** -/
theorem inter_right_comm (a b c : Interval) : (a.inter b).inter c = (a.inter c).inter b := by
  rw [inter_assoc, inter_comm b c, inter_assoc]

/-! ## Conditions -/

/-- Every test but `!=` is an interval. -/
theorem ofCondition?_eq_none_iff : ofCondition? c = none ↔ c.op = .neq := by
  obtain ⟨s, op, b⟩ := c
  cases op <;> simp [ofCondition?]

/-- **The interval of a condition is the set of integers it holds of.** A
strict bound at the last integer has nowhere to move, and holds of none. -/
theorem contains_of_ofCondition? (h : ofCondition? c = some i) (v : Int64) :
    i.contains v = c.holds v := by
  obtain ⟨s, op, b⟩ := c
  cases op <;> simp only [ofCondition?, Option.some.injEq, reduceCtorEq] at h <;> subst h <;>
    rw [Bool.eq_iff_iff]
  case eq =>
    simp only [contains_iff, between, Condition.holds, Comparison.holds, Option.some.injEq,
      forall_eq', decide_eq_true_eq]
    grind
  case lt =>
    split
    · subst b
      simp [Condition.holds, Comparison.holds]
    · simp only [contains_iff, atMost, Condition.holds, Comparison.holds, Option.some.injEq,
        forall_eq', decide_eq_true_eq, reduceCtorEq, false_implies, implies_true, true_and]
      grind
  case le =>
    simp [contains_iff, atMost, Condition.holds, Comparison.holds]
  case gt =>
    split
    · subst b
      simp [Condition.holds, Comparison.holds]
    · simp only [contains_iff, atLeast, Condition.holds, Comparison.holds, Option.some.injEq,
        forall_eq', decide_eq_true_eq, reduceCtorEq, false_implies, implies_true, and_true]
      grind
  case ge =>
    simp [contains_iff, atLeast, Condition.holds, Comparison.holds]

/-! ## The ends -/

/-- **Crossed ends are the empty set.** -/
theorem isEmpty_iff : i.isEmpty = true ↔ ∀ v, i.contains v = false := by
  obtain ⟨l, u⟩ := i
  cases l with
  | none =>
    simp only [isEmpty, Bool.false_eq_true, false_iff]
    -- with an end open, the other end is a member, or any integer
    intro h
    cases u with
    | none => simpa [contains] using h 0
    | some u => simpa [contains] using h u
  | some l =>
    cases u with
    | none =>
      simp only [isEmpty, Bool.false_eq_true, false_iff]
      intro h
      simpa [contains] using h l
    | some u =>
      simp only [isEmpty, decide_eq_true_eq]
      constructor
      · intro hlt v
        rw [Bool.eq_false_iff, ne_eq, contains_iff]
        rintro ⟨h1, h2⟩
        have hl := h1 l rfl
        have hu := h2 u rfl
        grind
      · intro h
        have hl := h l
        simp only [contains, Option.all_some, Bool.and_eq_false_iff,
          decide_eq_false_iff_not] at hl
        grind

theorem isEmpty_eq_false_iff : i.isEmpty = false ↔ ∃ v, i.contains v = true := by
  rw [← Bool.not_eq_true, isEmpty_iff]
  simp

theorem point?_eq_some_iff : i.point? = some p ↔ i.lower = some p ∧ i.upper = some p := by
  obtain ⟨l, u⟩ := i
  cases l <;> cases u <;> simp [point?]
  grind

/-- Ends that meet are a singleton. -/
theorem contains_of_point? (h : i.point? = some p) : i.contains v = true ↔ v = p := by
  obtain ⟨hl, hu⟩ := point?_eq_some_iff.1 h
  simp only [contains_iff, hl, hu, Option.some.injEq, forall_eq']
  grind

/-- What is left when another interval is met was there before. -/
theorem isEmpty_of_inter {j : Interval} (h : (i.inter j).isEmpty = false) :
    i.isEmpty = false := by
  obtain ⟨v, hv⟩ := isEmpty_eq_false_iff.1 h
  rw [contains_inter, Bool.and_eq_true] at hv
  exact isEmpty_eq_false_iff.2 ⟨v, hv.1⟩

/-- So where either of two intervals has nothing, nothing is left. -/
theorem isEmpty_inter {j : Interval} (h : i.isEmpty = true ∨ j.isEmpty = true) :
    (i.inter j).isEmpty = true := by
  cases hij : (i.inter j).isEmpty with
  | true => rfl
  | false =>
    have hi : i.isEmpty = false := isEmpty_of_inter hij
    have hj : j.isEmpty = false := by
      rw [inter_comm] at hij
      exact isEmpty_of_inter hij
    simp [hi, hj] at h

/-- Ends that meet go on to meet, until nothing is left between them. -/
theorem point?_inter {j : Interval} (h : i.point? = some p) (hne : (i.inter j).isEmpty = false) :
    (i.inter j).point? = some p := by
  obtain ⟨hl, hu⟩ := point?_eq_some_iff.1 h
  obtain ⟨v, hv⟩ := isEmpty_eq_false_iff.1 hne
  rw [contains_inter, Bool.and_eq_true, contains_of_point? h] at hv
  obtain ⟨rfl, hj⟩ := hv
  -- the point lies between the ends of the other interval, which move nothing
  obtain ⟨hjl, hju⟩ := contains_iff.1 hj
  refine point?_eq_some_iff.2 ⟨?_, ?_⟩
  · cases hl' : j.lower with
    | none => simp [inter, hl, hl', meetEnd]
    | some l =>
      have hle := Int64.le_iff_toInt_le.1 (hjl l hl')
      simp only [inter, hl, hl', meetEnd, Option.some.injEq, ← Int64.toInt_inj, toInt_max_end]
      omega
  · cases hu' : j.upper with
    | none => simp [inter, hu, hu', meetEnd]
    | some u =>
      have hle := Int64.le_iff_toInt_le.1 (hju u hu')
      simp only [inter, hu, hu', meetEnd, Option.some.injEq, ← Int64.toInt_inj, toInt_min_end]
      omega

/-- **What ends that neither cross nor meet leave**: two integers at least,
or an end that is missing. -/
theorem exists_two_or_open (he : i.isEmpty = false) (hp : i.point? = none) :
    i.lower = none ∨ i.upper = none ∨
      ∃ v w, v ≠ w ∧ i.contains v = true ∧ i.contains w = true := by
  obtain ⟨l, u⟩ := i
  cases l with
  | none => exact Or.inl rfl
  | some l =>
    cases u with
    | none => exact Or.inr (Or.inl rfl)
    | some u =>
      refine Or.inr (Or.inr ⟨l, u, ?_, ?_, ?_⟩)
      · simpa [point?] using hp
      all_goals
        simp only [isEmpty, decide_eq_false_iff_not] at he
        simp only [contains, Option.all_some, Bool.and_eq_true, decide_eq_true_eq]
        grind

/-- **What the two tests of the ends tell of struck integers.** Where the lower
end is there, not to be empty and not to be one struck point means that some
integer is left unstruck, or that all are struck and the tests cannot tell:
they are two at least, or the upper end is open. -/
theorem spared_or_struck {Struck : Int64 → Prop} (hlow : i.lower ≠ none) :
    (i.isEmpty = false ∧ ∀ p, i.point? = some p → ¬ Struck p) ↔
      (∃ v, i.contains v = true ∧ ¬ Struck v) ∨
      ((∃ v, i.contains v = true) ∧ (∀ v, i.contains v = true → Struck v) ∧
        (i.upper = none ∨ ∃ v w, v ≠ w ∧ i.contains v = true ∧ i.contains w = true)) := by
  rw [isEmpty_eq_false_iff]
  constructor
  · rintro ⟨hin, hpt⟩
    by_cases hspared : ∃ v, i.contains v = true ∧ ¬ Struck v
    · exact Or.inl hspared
    · -- all are struck; so the ends do not meet, or their point would be spared
      have hall : ∀ v, i.contains v = true → Struck v :=
        fun v hv => Classical.byContradiction fun hn => hspared ⟨v, hv, hn⟩
      refine Or.inr ⟨hin, hall, ?_⟩
      have hnone : i.point? = none := by
        cases h : i.point? with
        | none => rfl
        | some p => exact absurd (hall p ((contains_of_point? h).2 rfl)) (hpt p h)
      exact (exists_two_or_open (isEmpty_eq_false_iff.2 hin) hnone).resolve_left hlow
  · rintro (⟨v, hv, hn⟩ | ⟨hin, hall, hopen | ⟨v, w, hne, hv, hw⟩⟩)
    · refine ⟨⟨v, hv⟩, fun p hp => ?_⟩
      rwa [← (contains_of_point? hp).1 hv]
    · refine ⟨hin, fun p hp => ?_⟩
      have hupper := (point?_eq_some_iff.1 hp).2
      rw [hopen] at hupper
      cases hupper
    · -- two integers are no single point
      refine ⟨⟨v, hv⟩, fun p hp => absurd ?_ hne⟩
      rw [(contains_of_point? hp).1 hv, (contains_of_point? hp).1 hw]

/-! ## Intervals and their sets -/

/-- **An interval stands for the set it contains.** A meet contains what both
operands contain, and the ends are crossed exactly if nothing is contained.
Every condition but `!=` has an interval, of exactly the integers it holds of.
And the ends of a meet do not tell in what order, how grouped or how often the
operands came; one that was empty leaves it empty. -/
theorem denotes_set (i j k : Interval) (c : Condition) :
    (∀ v, (i.inter j).contains v = true ↔ i.contains v = true ∧ j.contains v = true) ∧
      (i.isEmpty = true ↔ ∀ v, i.contains v = false) ∧
      (ofCondition? c = none ↔ c.op = .neq) ∧
      (∀ r, ofCondition? c = some r → ∀ v, r.contains v = true ↔ c.holds v = true) ∧
      i.inter j = j.inter i ∧ (i.inter j).inter k = i.inter (j.inter k) ∧ i.inter i = i ∧
      (i.isEmpty = true ∨ j.isEmpty = true → (i.inter j).isEmpty = true) := by
  refine ⟨fun v => ?_, isEmpty_iff, ofCondition?_eq_none_iff, fun r hr v => ?_,
    inter_comm i j, inter_assoc i j k, inter_self i, isEmpty_inter⟩
  · rw [contains_inter, Bool.and_eq_true]
  · rw [contains_of_ofCondition? hr]

/-- Past the last integer nothing is left, and a meet with nothing is empty,
however far up the other operand lies. -/
theorem denotes_set_pastLast :
    ofCondition? ⟨⟨0⟩, .gt, Int64.maxValue⟩ = some empty ∧
      (∀ v, empty.contains v = true ↔
        Condition.holds ⟨⟨0⟩, .gt, Int64.maxValue⟩ v = true) ∧
      empty.isEmpty = true ∧ ((atLeast Int64.maxValue).inter empty).isEmpty = true := by
  have hstrict : ofCondition? ⟨⟨0⟩, .gt, Int64.maxValue⟩ = some empty := by decide
  have hcrossed : empty.isEmpty = true := by decide
  obtain ⟨-, -, -, hset, -, -, -, hempty⟩ :=
    denotes_set (atLeast Int64.maxValue) empty unbounded ⟨⟨0⟩, .gt, Int64.maxValue⟩
  exact ⟨hstrict, hset empty hstrict, hcrossed, hempty (Or.inr hcrossed)⟩

end Interval

end TaintReplay
