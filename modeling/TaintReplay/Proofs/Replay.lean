import TaintReplay.Replay.Outcome
/-!
# Replays — where a path stops

A replay goes through the steps of a path until one of them ends it. The
prefix it goes through is `Registry.through?`: the context behind the steps if
none of them ends the path. `run_cases` says what a replay can come to: it
goes through all steps, or it goes through some of them and the next one is a
branch that cannot be taken, or sinks the path. All later facts on replays are
facts on prefixes gone through and on one more step.
-/

namespace TaintReplay

namespace Registry

variable {r : Registry Context} {c c₁ c₂ : Context} {x : Step}

/-- The context behind the steps, if none of them ends the path. -/
def through? (r : Registry Context) : List Step → Context → Option Context
  | [], c => some c
  | x :: steps, c =>
    match r.perform? x.event (c.moveTo x.point) with
    | none => none
    | some c => if c.sunk then none else r.through? steps c

theorem through?_append (xs ys : List Step) (c : Context) :
    r.through? (xs ++ ys) c = (r.through? xs c).bind (r.through? ys) := by
  induction xs generalizing c with
  | nil => rfl
  | cons x xs ih =>
    rw [List.cons_append, through?, through?]
    cases r.perform? x.event (c.moveTo x.point) with
    | none => rfl
    | some c' =>
      simp only
      split
      · rfl
      · exact ih c'

/-- A step is gone through if it neither ends nor sinks the path. -/
theorem through?_singleton :
    r.through? [x] c = some c₁ ↔
      r.perform? x.event (c.moveTo x.point) = some c₁ ∧ c₁.sunk = false := by
  rw [through?]
  cases r.perform? x.event (c.moveTo x.point) with
  | none => simp
  | some c' =>
    cases hs : c'.sunk with
    | true =>
      refine iff_of_false (by simp [hs]) ?_
      rintro ⟨heq, hs'⟩
      cases heq
      exact absurd hs (by simp [hs'])
    | false =>
      simp only [through?, hs, Bool.false_eq_true, if_false, Option.some.injEq]
      refine ⟨fun heq => ⟨heq, ?_⟩, And.left⟩
      rw [← heq]
      exact hs

/-- What was gone through was gone through step by step. -/
theorem through?_of_take {steps : List Step} {i j : Nat} (hij : i ≤ j)
    (h : r.through? (steps.take j) c = some c₂) :
    ∃ c₁, r.through? (steps.take i) c = some c₁ := by
  have hsplit := List.take_append_drop i (steps.take j)
  rw [List.take_take, Nat.min_eq_left hij] at hsplit
  rw [← hsplit, through?_append] at h
  obtain ⟨c₁, hc₁, -⟩ := Option.bind_eq_some_iff.1 h
  exact ⟨c₁, hc₁⟩

/-- A step that was gone through came after those before it. -/
theorem through?_take_succ {steps : List Step} {k : Nat} (hx : steps[k]? = some x)
    (h : r.through? (steps.take (k + 1)) c = some c₂) :
    ∃ c₁, r.through? (steps.take k) c = some c₁ ∧ r.through? [x] c₁ = some c₂ := by
  rw [List.take_add_one, hx, through?_append] at h
  exact Option.bind_eq_some_iff.1 h

/-- A replay that goes through all steps is completed. -/
theorem run_of_through? (steps : List Step) (done : Nat) (h : r.through? steps c = some c₁) :
    r.run steps done c = (.completed, done + steps.length, c₁) := by
  induction steps generalizing done c with
  | nil =>
    cases h
    rfl
  | cons x steps ih =>
    rw [run]
    rw [through?] at h
    cases hp : r.perform? x.event (c.moveTo x.point) with
    | none =>
      rw [hp] at h
      cases h
    | some c' =>
      simp only [hp] at h ⊢
      split at h
      · cases h
      · rename_i hs
        rw [if_neg hs, ih (done + 1) h, List.length_cons, Nat.add_right_comm, Nat.add_assoc]

/-- **What a replay can come to.** It goes through all steps, or stops at a
branch that cannot be taken, or at a step that sinks the path. -/
theorem run_cases (r : Registry Context) (steps : List Step) (done : Nat) (c : Context) :
    (∃ c₁, r.through? steps c = some c₁) ∨
    ∃ i x c₁, steps[i]? = some x ∧ r.through? (steps.take i) c = some c₁ ∧
      ((r.perform? x.event (c₁.moveTo x.point) = none ∧
          r.run steps done c = (.infeasible, done + i + 1, c₁.moveTo x.point)) ∨
        ∃ c₂, r.perform? x.event (c₁.moveTo x.point) = some c₂ ∧ c₂.sunk = true ∧
          r.run steps done c = (.errorNode, done + i + 1, c₂)) := by
  induction steps generalizing done c with
  | nil => exact Or.inl ⟨c, rfl⟩
  | cons x steps ih =>
    rw [run, through?]
    cases hp : r.perform? x.event (c.moveTo x.point) with
    | none => exact Or.inr ⟨0, x, c, rfl, rfl, Or.inl ⟨hp, rfl⟩⟩
    | some c' =>
      by_cases hs : c'.sunk = true
      · exact Or.inr ⟨0, x, c, rfl, rfl, Or.inr ⟨c', hp, hs, if_pos hs⟩⟩
      · simp only [if_neg hs]
        refine (ih (done + 1) c').imp id ?_
        rintro ⟨i, y, c₁, hy, hc, hend⟩
        refine ⟨i + 1, y, c₁, hy, ?_, ?_⟩
        · rw [List.take_succ_cons, through?, hp]
          simpa only [if_neg hs] using hc
        · have harith : done + (i + 1) + 1 = done + 1 + i + 1 := by omega
          rw [harith]
          exact hend

end Registry

end TaintReplay
