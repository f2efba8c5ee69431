import TaintReplay.State.Constraints
import TaintReplay.Proofs.Interval
import Mathlib.Data.List.Induction
/-!
# The record of a path — what it holds after any run

A record is filled by entries: conditions, which are recorded while the budget
lasts, and symbols to blur. This file reads off what a record holds after any
list of entries. The first conditions, as many as the budget allows, are in it
and no others (`after_eq_recorded`), so that the integers it leaves to a symbol
are those the recorded conditions on the symbol allow (`allows_after_iff`); a
symbol is blurred if it was asked to be or if a condition on it came too late
(`isBlurred_after_iff`). Verdicts are then judged by what is allowed:
a condition found contradictory holds of no integer left to its symbol
(`not_holds_of_contradicts`).
-/

namespace TaintReplay

namespace Constraints

variable {k : Constraints} {c : Condition} {s : Symbol} {v : Int64}

/-- Whether the record leaves the integer to the symbol. -/
def allows (k : Constraints) (s : Symbol) (v : Int64) : Bool :=
  (k.interval s).contains v && !k.excludes s v

/-! ## One condition more -/

@[simp] theorem count_record : (k.record c).count = k.count + 1 := by
  unfold record
  split <;> rfl

@[simp] theorem budget_record : (k.record c).budget = k.budget := by
  unfold record
  split <;> rfl

@[simp] theorem blurred_record : (k.record c).blurred = k.blurred := by
  unfold record
  split <;> rfl

/-- Recording does not look at the blurred symbols. -/
theorem record_blurred (b : Std.ExtTreeSet Symbol) :
    ({ k with blurred := b } : Constraints).record c = { k.record c with blurred := b } := by
  unfold record
  split <;> rfl

/-- A condition that is a range narrows the interval of its symbol. -/
theorem interval_record_of_some {i : Interval} (h : Interval.ofCondition? c = some i) :
    (k.record c).interval s = if c.symbol = s then (k.interval s).inter i else k.interval s := by
  simp only [record, h, interval, Std.ExtTreeMap.getD_insert, Std.LawfulEqCmp.compare_eq_iff_eq]
  split
  · rename_i heq
    rw [heq]
  · rfl

/-- A `!=` narrows nothing. -/
theorem interval_record_of_none (h : Interval.ofCondition? c = none) :
    (k.record c).interval s = k.interval s := by
  simp only [record, h, interval]

/-- **What is recorded of ranges is their meaning.** -/
theorem contains_interval_record :
    ((k.record c).interval s).contains v = true ↔ (k.interval s).contains v = true ∧
      (c.symbol = s → c.op ≠ .neq → c.holds v = true) := by
  cases h : Interval.ofCondition? c with
  | none => simp [interval_record_of_none h, Interval.ofCondition?_eq_none_iff.1 h]
  | some i =>
    have hop : c.op ≠ .neq := fun hn => by simp [Interval.ofCondition?_eq_none_iff.2 hn] at h
    rw [interval_record_of_some h]
    split
    · rename_i hs
      simp [Interval.contains_of_ofCondition? h, hs, hop]
    · rename_i hs
      simp [hs]

/-- **An integer is excluded by its own `!=` only.** -/
theorem excludes_record :
    (k.record c).excludes s v = false ↔ k.excludes s v = false ∧ c ≠ ⟨s, .neq, v⟩ := by
  obtain ⟨cs, op, b⟩ := c
  cases h : Interval.ofCondition? ⟨cs, op, b⟩ with
  | some i =>
    have hop : op ≠ .neq := fun hn => by simp [Interval.ofCondition?, hn] at h
    simp [record, h, excludes, hop]
  | none =>
    obtain rfl : op = .neq := Interval.ofCondition?_eq_none_iff.1 h
    simp only [record, h, excludes, Std.ExtTreeMap.getD_insert, Std.LawfulEqCmp.compare_eq_iff_eq]
    split
    · rename_i hs
      subst hs
      simp [Std.ExtTreeSet.contains_insert, and_comm]
    · rename_i hs
      simp [hs]

theorem allows_iff : k.allows s v = true ↔
    (k.interval s).contains v = true ∧ k.excludes s v = false := by
  simp [allows]

/-- **Recording a condition keeps the integers it holds of.** -/
theorem allows_record :
    (k.record c).allows s v = true ↔
      k.allows s v = true ∧ (c.symbol = s → c.holds v = true) := by
  rw [allows_iff, allows_iff, contains_interval_record, excludes_record]
  by_cases hop : c.op = .neq
  · obtain ⟨cs, op, b⟩ := c
    subst hop
    simp only [ne_eq, not_true_eq_false, false_implies, implies_true, and_true, Condition.holds,
      Comparison.holds, decide_eq_true_eq, Condition.mk.injEq, true_and]
    grind
  · have hne : c ≠ ⟨s, .neq, v⟩ := fun he => hop (by rw [he])
    simp only [hop, hne, ne_eq, not_false_eq_true, and_true, true_implies]
    exact and_right_comm

/-! ## One condition, in or out of budget -/

theorem add_of_lt (h : k.count < k.budget) : k.add c = k.record c := if_pos h

theorem add_of_le (h : k.budget ≤ k.count) :
    k.add c = { k with blurred := k.blurred.insert c.symbol } :=
  if_neg (Nat.not_lt.2 h)

/-- **A symbol is blurred on request.** -/
theorem isBlurred_blur {ss : List Symbol} :
    (k.blur ss).isBlurred s = true ↔ k.isBlurred s = true ∨ s ∈ ss := by
  simp only [blur, isBlurred, Std.ExtTreeSet.contains_insertMany_list, Bool.or_eq_true,
    List.contains_iff_mem]

/-- **Or by a condition on it that comes too late.** -/
theorem isBlurred_add : (k.add c).isBlurred s = true ↔
    k.isBlurred s = true ∨ (k.budget ≤ k.count ∧ c.symbol = s) := by
  rcases Nat.lt_or_ge k.count k.budget with hlt | hge
  · rw [add_of_lt hlt, isBlurred, blurred_record, ← isBlurred]
    simp [Nat.not_le.2 hlt]
  · rw [add_of_le hge]
    simp only [isBlurred, Std.ExtTreeSet.contains_insert, Bool.or_eq_true, beq_iff_eq,
      Std.LawfulEqCmp.compare_eq_iff_eq, hge, true_and]
    exact or_comm

/-- Whatever the budget, an integer of which the condition holds is left. -/
theorem allows_add (h : k.allows s v = true) (hc : c.symbol = s → c.holds v = true) :
    (k.add c).allows s v = true := by
  rcases Nat.lt_or_ge k.count k.budget with hlt | hge
  · rw [add_of_lt hlt]
    exact allows_record.2 ⟨h, hc⟩
  · rw [add_of_le hge]
    exact h

/-! ## Verdicts -/

/-- **A contradicted condition holds of nothing that is left.** -/
theorem not_holds_of_contradicts (h : k.contradicts c = true)
    (hv : k.allows c.symbol v = true) : c.holds v = false := by
  obtain ⟨hin, hex⟩ := allows_iff.1 hv
  unfold contradicts at h
  split at h
  · rename_i hnone
    -- a `!=` against the one integer left
    have hp : (k.interval c.symbol).point? = some c.bound := by simpa using h
    have hvb : v = c.bound := (Interval.contains_of_point? hp).1 hin
    simp [Condition.holds, Interval.ofCondition?_eq_none_iff.1 hnone, Comparison.holds, hvb]
  · rename_i i hsome
    by_contra hh
    have hc : c.holds v = true := by simpa using hh
    have hboth : ((k.interval c.symbol).inter i).contains v = true := by
      simp [hin, Interval.contains_of_ofCondition? hsome, hc]
    rcases Bool.or_eq_true_iff.1 h with he | hp
    · rw [Interval.isEmpty_iff.1 he v] at hboth
      exact absurd hboth (by simp)
    · obtain ⟨p, hp1, hp2⟩ := Option.any_eq_true _ _ |>.1 hp
      have hvp : v = p := (Interval.contains_of_point? hp1).1 hboth
      rw [← hvp, hex] at hp2
      exact absurd hp2 (by simp)

theorem check_eq_infeasible_iff : k.check c = .infeasible ↔ k.contradicts c = true := by
  unfold check
  split <;> [skip; split] <;> simp_all

theorem check_eq_feasible_iff : k.check c = .feasible ↔
    k.contradicts c = false ∧ k.isBlurred c.symbol = false := by
  unfold check
  split <;> [skip; split] <;> simp_all

theorem check_eq_unknown_iff : k.check c = .unknown ↔
    k.contradicts c = false ∧ k.isBlurred c.symbol = true := by
  unfold check
  split <;> [skip; split] <;> simp_all

/-- **A range is not contradicted** if it leaves its symbol integers and, where
its ends meet, does not leave an excluded one. -/
theorem contradicts_eq_false_iff {i : Interval} (h : Interval.ofCondition? c = some i) :
    k.contradicts c = false ↔ ((k.interval c.symbol).inter i).isEmpty = false ∧
      ∀ p, ((k.interval c.symbol).inter i).point? = some p → k.excludes c.symbol p = false := by
  simp only [contradicts, h, Bool.or_eq_false_iff, Option.any_eq_false]

/-- A `!=` is contradicted if its integer is all that the ends leave. -/
theorem contradicts_neq_iff (h : Interval.ofCondition? c = none) :
    k.contradicts c = true ↔ (k.interval c.symbol).point? = some c.bound := by
  simp only [contradicts, h, beq_iff_eq]

/-- A `!=` is not contradicted if its symbol may still be another integer. -/
theorem contradicts_neq_eq_false_iff (h : Interval.ofCondition? c = none) :
    k.contradicts c = false ↔ (k.interval c.symbol).point? ≠ some c.bound := by
  rw [← Bool.not_eq_true, contradicts_neq_iff h]

/-- A condition that some integer left to its symbol passes is not refuted. -/
theorem contradicts_eq_false (hv : k.allows c.symbol v = true) (hc : c.holds v = true) :
    k.contradicts c = false := by
  rw [Bool.eq_false_iff]
  intro h
  rw [not_holds_of_contradicts h hv] at hc
  exact absurd hc (by simp)

/-! ## Many conditions -/

/-- What recording one condition adds to a property, recording many adds for
each of them. -/
theorem foldl_record_iff {P : Constraints → Prop} {Q : Condition → Prop}
    (h : ∀ k c, P (k.record c) ↔ P k ∧ Q c) (cs : List Condition) (k : Constraints) :
    P (cs.foldl record k) ↔ P k ∧ ∀ c ∈ cs, Q c := by
  induction cs generalizing k with
  | nil => simp
  | cons c cs ih => rw [List.foldl_cons, ih, h, List.forall_mem_cons, and_assoc]

theorem count_foldl_record (cs : List Condition) (k : Constraints) :
    (cs.foldl record k).count = k.count + cs.length := by
  induction cs generalizing k with
  | nil => rfl
  | cons c cs ih =>
    rw [List.foldl_cons, ih, count_record, List.length_cons]
    omega

theorem budget_foldl_record (cs : List Condition) (k : Constraints) :
    (cs.foldl record k).budget = k.budget := by
  induction cs generalizing k with
  | nil => rfl
  | cons c cs ih => rw [List.foldl_cons, ih, budget_record]

end Constraints

/-! ## A run of entries -/

/-- What is entered into a record. -/
inductive Entry where
  | condition (c : Condition)
  | blur (symbols : List Symbol)

/-- The condition, of an entry that is one. -/
def Entry.condition? : Entry → Option Condition
  | condition c => some c
  | blur _ => none

namespace Constraints

/-- The record with one more entry. -/
def enter (k : Constraints) : Entry → Constraints
  | .condition c => k.add c
  | .blur ss => k.blur ss

/-- The record after a run of entries, from the empty one. -/
def after (budget : Nat) (es : List Entry) : Constraints := es.foldl enter (.withBudget budget)

/-- The conditions a run enters, in order. -/
def conditions (es : List Entry) : List Condition := es.filterMap Entry.condition?

variable {budget : Nat} {es : List Entry} {s : Symbol} {v : Int64}

theorem conditions_concat_condition (c : Condition) :
    conditions (es ++ [.condition c]) = conditions es ++ [c] := by
  simp [conditions, Entry.condition?]

theorem conditions_concat_blur (ss : List Symbol) :
    conditions (es ++ [.blur ss]) = conditions es := by
  simp [conditions, Entry.condition?]

theorem after_concat (e : Entry) : after budget (es ++ [e]) = (after budget es).enter e := by
  simp [after]

/-- The record of the first conditions of a run, as many as fit the budget. -/
def recorded (budget : Nat) (es : List Entry) : Constraints :=
  ((conditions es).take budget).foldl record (.withBudget budget)

theorem count_recorded : (recorded budget es).count = min budget (conditions es).length := by
  rw [recorded, count_foldl_record, List.length_take]
  exact Nat.zero_add _

theorem budget_recorded : (recorded budget es).budget = budget :=
  budget_foldl_record _ _

/-- **A run records its first conditions and no others.** All else it does is
to blur. -/
theorem after_eq_recorded (budget : Nat) (es : List Entry) :
    after budget es = { recorded budget es with blurred := (after budget es).blurred } := by
  induction es using List.reverseRecOn with
  | nil => simp [after, recorded, conditions]
  | append_singleton es e ih =>
    have hcount : (after budget es).count = min budget (conditions es).length := by
      rw [ih]
      exact count_recorded
    have hbudget : (after budget es).budget = budget := by
      rw [ih]
      exact budget_recorded
    rw [after_concat]
    cases e with
    | blur ss =>
      rw [recorded, conditions_concat_blur, ← recorded]
      simp only [enter, blur]
      rw [ih]
    | condition c =>
      rw [recorded, conditions_concat_condition]
      rcases Nat.lt_or_ge (conditions es).length budget with hlt | hge
      · -- there is budget left, and all conditions so far are recorded
        have hadd : (after budget es).add c = (after budget es).record c :=
          add_of_lt (by omega)
        have htake : (conditions es ++ [c]).take budget = (conditions es).take budget ++ [c] := by
          rw [List.take_of_length_le (by simp; omega), List.take_of_length_le (by omega)]
        rw [enter, hadd, htake, List.foldl_append, ← recorded, List.foldl_cons, List.foldl_nil,
          blurred_record]
        conv_lhs => rw [ih]
        exact record_blurred _
      · -- past the budget, all that is left to do is to blur
        have hadd : (after budget es).add c =
            { after budget es with blurred := (after budget es).blurred.insert c.symbol } :=
          add_of_le (by omega)
        rw [enter, hadd, List.take_append_of_le_length hge, ← recorded]
        rw [ih]

theorem count_after : (after budget es).count = min budget (conditions es).length := by
  rw [after_eq_recorded]
  exact count_recorded

theorem budget_after : (after budget es).budget = budget := by
  rw [after_eq_recorded]
  exact budget_recorded

/-- **The interval of a symbol is what the recorded ranges on it allow.** -/
theorem contains_interval_after :
    ((after budget es).interval s).contains v = true ↔
      ∀ c ∈ (conditions es).take budget, c.symbol = s → c.op ≠ .neq → c.holds v = true := by
  have h := foldl_record_iff (P := fun k => (k.interval s).contains v = true)
    (fun _ _ => contains_interval_record) ((conditions es).take budget) (.withBudget budget)
  rw [after_eq_recorded]
  refine h.trans (and_iff_right ?_)
  simp [interval, withBudget]

/-- **The excluded integers are those of the recorded `!=`.** -/
theorem excludes_after :
    (after budget es).excludes s v = true ↔ ⟨s, .neq, v⟩ ∈ (conditions es).take budget := by
  have h := foldl_record_iff (P := fun k => k.excludes s v = false)
    (fun _ _ => excludes_record) ((conditions es).take budget) (.withBudget budget)
  rw [after_eq_recorded, ← not_iff_not, Bool.not_eq_true]
  refine h.trans ?_
  constructor
  · rintro ⟨-, hall⟩ hmem
    exact hall _ hmem rfl
  · intro hnot
    refine ⟨by simp [excludes, withBudget], fun c hc he => hnot (he ▸ hc)⟩

/-- **The integers left to a symbol are those all recorded conditions on it
allow.** -/
theorem allows_after_iff :
    (after budget es).allows s v = true ↔
      ∀ c ∈ (conditions es).take budget, c.symbol = s → c.holds v = true := by
  have h := foldl_record_iff (P := fun k => k.allows s v = true)
    (fun _ _ => allows_record) ((conditions es).take budget) (.withBudget budget)
  rw [after_eq_recorded]
  refine h.trans (and_iff_right ?_)
  simp [allows, interval, excludes, withBudget]

/-- **The symbols that a run blurs**: those it asks to, and those of the conditions past
the budget. -/
theorem isBlurred_after_iff (budget : Nat) (es : List Entry) (s : Symbol) :
    (after budget es).isBlurred s = true ↔
      (∃ ss, .blur ss ∈ es ∧ s ∈ ss) ∨ ∃ c ∈ (conditions es).drop budget, c.symbol = s := by
  induction es using List.reverseRecOn with
  | nil => simp [after, withBudget, isBlurred, conditions]
  | append_singleton es e ih =>
    rw [after_concat]
    cases e with
    | blur ss =>
      have hasked : (∃ ts, Entry.blur ts ∈ es ++ [.blur ss] ∧ s ∈ ts) ↔
          (∃ ts, Entry.blur ts ∈ es ∧ s ∈ ts) ∨ s ∈ ss := by
        simp [or_and_right, exists_or]
      rw [enter, isBlurred_blur, ih, hasked, conditions_concat_blur]
      exact or_right_comm
    | condition c =>
      have hasked : (∃ ss, Entry.blur ss ∈ es ++ [.condition c] ∧ s ∈ ss) ↔
          ∃ ss, Entry.blur ss ∈ es ∧ s ∈ ss := by simp
      have hlate : (∃ d ∈ (conditions es ++ [c]).drop budget, d.symbol = s) ↔
          (∃ d ∈ (conditions es).drop budget, d.symbol = s) ∨
            (budget ≤ (after budget es).count ∧ c.symbol = s) := by
        rw [count_after]
        rcases Nat.lt_or_ge (conditions es).length budget with hlt | hge
        · -- there is budget for the condition and for all before it
          have hold : (conditions es).drop budget = [] := List.drop_eq_nil_of_le (by omega)
          have hnew : (conditions es ++ [c]).drop budget = [] :=
            List.drop_eq_nil_of_le (by simp; omega)
          have hroom : ¬ budget ≤ min budget (conditions es).length := by omega
          simp only [hold, hnew, hroom, List.not_mem_nil, false_and, exists_false, or_self]
        · rw [List.drop_append_of_le_length hge]
          simp [hge, or_and_right, exists_or]
      rw [enter, isBlurred_add, ih, budget_after, hasked, conditions_concat_condition, hlate]
      exact or_assoc

end Constraints

end TaintReplay
