import TaintReplay.Proofs.Consistency
/-!
# Contradictions — what a record says once it holds one

A path stops at its first contradiction, a record does not: it goes on recording,
and its symbol is spent from then on, whatever is entered (`Spent.enter`). On a spent
symbol no range passes any more, for narrowing leaves nothing but what was left
before. A `!=` is not narrowed by. It is held against an interval that is one integer,
and against no other, so that it passes where the ends are crossed, or meet in
another integer that is excluded (`contradicts_iff_of_spent`).

So a recorded contradiction is remembered by five of the six tests
(`check_after_contradiction_iff`), and the sixth may find feasible what no integer
satisfies (`check_crossedRun`).
-/

namespace TaintReplay

namespace Constraints

variable {k : Constraints} {c d : Condition} {s : Symbol} {budget : Nat}

/-! ## Spent symbols -/

/-- **Recording what is contradicted spends its symbol.** -/
theorem spent_record_of_contradicts (h : k.contradicts c = true) :
    (k.record c).Spent c.symbol := by
  by_contra hspared
  rw [Spent, not_or, Bool.not_eq_true] at hspared
  obtain ⟨hempty, hpoint⟩ := hspared
  cases hc : Interval.ofCondition? c with
  | none =>
    -- the one integer left is excluded
    obtain ⟨r, op, b⟩ := c
    obtain rfl : op = .neq := Interval.ofCondition?_eq_none_iff.1 hc
    have hp : (k.interval r).point? = some b := (contradicts_neq_iff hc).1 h
    refine hpoint ⟨b, by rwa [interval_record_of_none hc], ?_⟩
    by_contra hex
    exact (excludes_record.1 (Bool.eq_false_iff.2 hex)).2 rfl
  | some i =>
    -- the record now holds the narrowed interval that the verdict was about
    rw [interval_record_of_some hc, if_pos rfl] at hempty hpoint
    have hquiet : k.contradicts c = false := by
      refine (contradicts_eq_false_iff hc).2 ⟨hempty, fun p hp => ?_⟩
      rw [← excludes_record_of_some hc, Bool.eq_false_iff]
      exact fun hex => hpoint ⟨p, hp, hex⟩
    rw [hquiet] at h
    cases h

/-- Blurring takes nothing from a symbol and gives it nothing. -/
theorem Spent.blurred (h : k.Spent s) (b : Std.ExtTreeSet Symbol) :
    ({ k with blurred := b } : Constraints).Spent s :=
  h

theorem Spent.enter (h : k.Spent s) (e : Entry) : (k.enter e).Spent s := by
  cases e with
  | blur ss => exact h.blurred _
  | condition c =>
    rcases Nat.lt_or_ge k.count k.budget with hlt | hge
    · rw [Constraints.enter, add_of_lt hlt]
      exact h.record c
    · rw [Constraints.enter, add_of_le hge]
      exact h.blurred _

/-- **A spent symbol stays spent** over any run of entries. -/
theorem Spent.foldl_enter (h : k.Spent s) (es : List Entry) :
    (es.foldl Constraints.enter k).Spent s := by
  induction es generalizing k with
  | nil => exact h
  | cons e es ih => exact ih (h.enter e)

/-- **What is contradicted on a spent symbol**: every range, and a `!=` only by an
interval that is its own integer. -/
theorem contradicts_iff_of_spent (h : k.Spent d.symbol) :
    k.contradicts d = true ↔
      (d.op = .neq → (k.interval d.symbol).point? = some d.bound) := by
  cases hd : Interval.ofCondition? d with
  | none =>
    have hop : d.op = .neq := Interval.ofCondition?_eq_none_iff.1 hd
    rw [contradicts_neq_iff hd]
    simp [hop]
  | some i =>
    have hop : d.op ≠ .neq := by
      intro hn
      rw [Interval.ofCondition?_eq_none_iff.2 hn] at hd
      cases hd
    refine iff_of_true ?_ fun hn => absurd hn hop
    -- one range more would leave the symbol spent, so it cannot have passed
    by_contra hquiet
    obtain ⟨hempty, hpoint⟩ := (contradicts_eq_false_iff hd).1 (Bool.eq_false_iff.2 hquiet)
    have hspent := h.record d
    rw [Spent, interval_record_of_some hd, if_pos rfl] at hspent
    obtain he | ⟨p, hp, hex⟩ := hspent
    · rw [hempty] at he
      cases he
    · rw [excludes_record_of_some hd, hpoint p hp] at hex
      cases hex

/-! ## After a contradiction -/

/-- **What a record remembers of a contradiction.** Once a condition is recorded that
was infeasible, every later condition on its symbol is infeasible, but for a `!=`
whose integer is not the one that the interval has come down to. -/
theorem check_after_contradiction_iff (before later : List Entry)
    (hroom : (after budget before).count < budget)
    (hc : (after budget before).check c = .infeasible) (hd : d.symbol = c.symbol) :
    (after budget (before ++ .condition c :: later)).check d = .infeasible ↔
      (d.op = .neq →
        ((after budget (before ++ .condition c :: later)).interval d.symbol).point? =
          some d.bound) := by
  have hbudget : (after budget before).budget = budget := by
    rw [after_eq_recorded]
    exact budget_recorded
  have hrecorded : (after budget before).enter (.condition c) = (after budget before).record c :=
    add_of_lt (by omega)
  have hafter : after budget (before ++ .condition c :: later) =
      later.foldl enter ((after budget before).record c) := by
    rw [after, List.foldl_append, List.foldl_cons, ← after, hrecorded]
  have hspent : ((after budget before).record c).Spent c.symbol :=
    spent_record_of_contradicts (check_eq_infeasible_iff.1 hc)
  rw [check_eq_infeasible_iff]
  refine contradicts_iff_of_spent ?_
  rw [hafter, hd]
  exact hspent.foldl_enter later

/-- A run after which the ends of an interval are crossed. -/
def crossedRun : List Entry := [.condition ⟨⟨0⟩, .eq, 1⟩, .condition ⟨⟨0⟩, .eq, 2⟩]

/-- A run after which they meet in an excluded integer. -/
def struckRun : List Entry := [.condition ⟨⟨0⟩, .eq, 1⟩, .condition ⟨⟨0⟩, .neq, 1⟩]

/-- A later bound is still refused after the second condition of `struckRun`, blurred or
not, and so is the `!=` that made the contradiction. -/
theorem check_after_struckRun :
    (after 3 [.condition ⟨⟨0⟩, .eq, 1⟩]).count < 3 ∧
      (after 3 [.condition ⟨⟨0⟩, .eq, 1⟩]).check ⟨⟨0⟩, .neq, 1⟩ = .infeasible ∧
      (after 3 (struckRun ++ [.blur [⟨0⟩]])).check ⟨⟨0⟩, .ge, 1⟩ = .infeasible ∧
      (after 3 (struckRun ++ [.blur [⟨0⟩]])).check ⟨⟨0⟩, .neq, 1⟩ = .infeasible := by
  have hroom : (after 3 [.condition ⟨⟨0⟩, .eq, 1⟩]).count < 3 := by decide
  have hc : (after 3 [.condition ⟨⟨0⟩, .eq, 1⟩]).check ⟨⟨0⟩, .neq, 1⟩ = .infeasible := by decide
  refine ⟨hroom, hc, ?_, ?_⟩
  · exact (check_after_contradiction_iff (d := ⟨⟨0⟩, .ge, 1⟩) _ [.blur [⟨0⟩]] hroom hc rfl).2 nofun
  · exact (check_after_contradiction_iff (d := ⟨⟨0⟩, .neq, 1⟩) _ [.blur [⟨0⟩]] hroom hc rfl).2
      fun _ => by decide

/-- **A recorded contradiction may be forgotten.** The second condition of either run is
infeasible, and is recorded; yet the `!=` that is checked next comes out feasible. -/
theorem check_crossedRun :
    ((after 64 (crossedRun.take 1)).count < 64 ∧
        (after 64 (crossedRun.take 1)).check ⟨⟨0⟩, .eq, 2⟩ = .infeasible ∧
        (after 64 crossedRun).check ⟨⟨0⟩, .neq, 5⟩ = .feasible) ∧
      (after 64 (struckRun.take 1)).count < 64 ∧
        (after 64 (struckRun.take 1)).check ⟨⟨0⟩, .neq, 1⟩ = .infeasible ∧
        (after 64 struckRun).check ⟨⟨0⟩, .neq, 5⟩ = .feasible := by
  decide

end Constraints

end TaintReplay
