import TaintReplay.Proofs.Comparison
import TaintReplay.Proofs.Detection
import Mathlib.Data.Nat.Count
/-!
# Deletion — steps that leave no trace

Accesses, and calls that taint nothing, update no state; all they can do to a
path is to end it. So a path may be stripped of any of them but the one that did:
the replay of what is left ends alike, with the same alarm, only that many steps
earlier. That an operand was looked at and not objected to is no exception, though
the checker assumes for the while that it exceeds the threshold.

Positions are kept apart by counting. The step at `k`, if it stays, is found at
the number of steps in front of it that stay (`getElem?_outside`), and the state
there is the one it had (`stateBefore_outside`).
-/

namespace TaintReplay

variable {config : Config} {a : Analyzer} {p : Path} {o : Outcome} {ch? : Option NetworkTaint}
variable {steps : List Step} {budget k : ℕ} {D : Finset ℕ}

/-! ## Lists without some positions -/

section Outside

variable {α : Type} {xs ys : List α} {x : α}

/-- The elements of a list that are not at the positions. -/
def outside (D : Finset ℕ) (xs : List α) : List α :=
  (xs.zipIdx.filter fun y => y.2 ∉ D).map Prod.fst

theorem outside_append (D : Finset ℕ) (xs ys : List α) :
    ∃ zs, outside D (xs ++ ys) = outside D xs ++ zs := by
  rw [outside, List.zipIdx_append, List.filter_append, List.map_append]
  exact ⟨_, rfl⟩

theorem outside_concat (D : Finset ℕ) (xs : List α) (x : α) :
    outside D (xs ++ [x]) = outside D xs ++ if xs.length ∈ D then [] else [x] := by
  rw [outside, List.zipIdx_append, List.filter_append, List.map_append, ← outside]
  by_cases h : xs.length ∈ D <;> simp [h]

/-- As many elements are left as positions. -/
theorem length_outside : (outside D xs).length = Nat.count (· ∉ D) xs.length := by
  induction xs using List.reverseRecOn with
  | nil => rfl
  | append_singleton xs x ih =>
    rw [outside_concat, List.length_append, ih, List.length_append, List.length_singleton,
      Nat.count_succ]
    by_cases h : xs.length ∈ D <;> simp [h]

theorem length_outside_take (D : Finset ℕ) (hk : k ≤ xs.length) :
    (outside D (xs.take k)).length = Nat.count (· ∉ D) k := by
  rw [length_outside, List.length_take, Nat.min_eq_left hk]

theorem take_outside (hk : k ≤ xs.length) :
    (outside D xs).take (Nat.count (· ∉ D) k) = outside D (xs.take k) := by
  obtain ⟨zs, hzs⟩ := outside_append D (xs.take k) (xs.drop k)
  rw [List.take_append_drop] at hzs
  rw [hzs, List.take_left' (length_outside_take D hk)]

/-- **An element that stays is found where those that stay in front of it end.** -/
theorem getElem?_outside (hx : xs[k]? = some x) (hk : k ∉ D) :
    (outside D xs)[Nat.count (· ∉ D) k]? = some x := by
  have hlt : k < xs.length := (List.getElem?_eq_some_iff.1 hx).1
  have hfirst : outside D (xs.take (k + 1)) = outside D (xs.take k) ++ [x] := by
    rw [List.take_add_one, hx, Option.toList_some, outside_concat, List.length_take,
      Nat.min_eq_left hlt.le, if_neg hk]
  obtain ⟨zs, hzs⟩ := outside_append D (xs.take (k + 1)) (xs.drop (k + 1))
  rw [List.take_append_drop, hfirst, List.append_assoc] at hzs
  rw [hzs, ← length_outside_take D hlt.le, List.getElem?_append_right le_rfl, Nat.sub_self]
  rfl

theorem count_not_mem_add_count_mem (D : Finset ℕ) (n : ℕ) :
    Nat.count (· ∉ D) n + Nat.count (· ∈ D) n = n := by
  induction n with
  | zero => rfl
  | succ n ih =>
    rw [Nat.count_succ, Nat.count_succ]
    by_cases h : n ∈ D <;> simp [h] <;> omega

end Outside

/-! ## Idle steps -/

/-- **The steps at the positions are idle**: they update nothing. -/
def Idle (ch? : Option NetworkTaint) (steps : List Step) (D : Finset ℕ) : Prop :=
  ∀ i ∈ D, ∀ x, steps[i]? = some x → x.event.update? ch? = none

theorem Idle.of_append {xs ys : List Step} (h : Idle ch? (xs ++ ys) D) : Idle ch? xs D := by
  intro i hi x hx
  refine h i hi x ?_
  rw [List.getElem?_append_left (List.getElem?_eq_some_iff.1 hx).1]
  exact hx

theorem Idle.take (h : Idle ch? steps D) (k : ℕ) : Idle ch? (steps.take k) D := by
  rw [← List.take_append_drop k steps] at h
  exact h.of_append

/-- Without them the same is done to the state. -/
theorem Idle.updates_outside (h : Idle ch? steps D) :
    updates ch? (outside D steps) = updates ch? steps := by
  induction steps using List.reverseRecOn with
  | nil => rfl
  | append_singleton steps x ih =>
    rw [outside_concat, updates_append, updates_append, ih h.of_append]
    by_cases hD : steps.length ∈ D
    · have hidle := h _ hD x (by simp)
      simp [hD, updates, hidle]
    · rw [if_neg hD]

/-- **A step that stays is met in the same state.** -/
theorem Idle.stateBefore_outside (h : Idle ch? steps D) (budget : ℕ) (hk : k ≤ steps.length) :
    stateBefore ch? budget (outside D steps) (Nat.count (· ∉ D) k) =
      stateBefore ch? budget steps k := by
  rw [stateBefore, take_outside hk, (h.take k).updates_outside, ← stateBefore]

/-- An idle step is no last step of a path that cannot be run. -/
theorem Idle.not_mem_of_ended {x : Step} (h : Idle ch? steps D) (hx : steps[k]? = some x)
    (hlive : (stateBefore ch? budget steps k).feasibility ≠ .infeasible)
    (hended : (stateBefore ch? budget steps (k + 1)).feasibility = .infeasible) : k ∉ D := by
  intro hk
  rw [stateBefore_succ hx, PathState.behind, h k hk x hx] at hended
  exact hlive hended

/-- **What was passed is passed without them.** -/
theorem Idle.passed_outside (h : Idle ch? steps D) (hk : k ≤ steps.length)
    (hpassed : Passed ch? budget steps k) :
    Passed ch? budget (outside D steps) (Nat.count (· ∉ D) k) := by
  induction k with
  | zero => exact fun i hi => absurd hi (Nat.not_lt_zero i)
  | succ k ih =>
    have hpre := ih (Nat.le_of_succ_le hk) (hpassed.mono (Nat.le_succ k))
    by_cases hD : k ∈ D
    · -- the step goes, so that those in front of it are all there is to pass
      rw [Nat.count_succ_eq_count_iff.2 (not_not.2 hD)]
      exact hpre
    · have hcount := Nat.count_succ_eq_succ_count_iff (p := (· ∉ D)).2 hD
      have hx := List.getElem?_eq_getElem (Nat.lt_of_succ_le hk)
      rw [hcount]
      refine hpre.succ fun y hy => ?_
      rw [getElem?_outside hx hD] at hy
      cases hy
      rw [← hcount, h.stateBefore_outside budget hk,
        h.stateBefore_outside budget (Nat.le_of_succ_le hk)]
      exact hpassed k (Nat.lt_succ_self k) _ hx

/-- A path without the steps at some positions. -/
def Path.without (p : Path) (D : Finset ℕ) : Path := { p with steps := outside D p.steps }

/-- **The course of the path without them**, if no alarm was raised at one of
them. -/
theorem Course.without (h : Course ch? budget p o) (hidle : Idle ch? p.steps D)
    (halarmed : o.ending = .errorNode → ∀ i ∈ D, i + 1 ≠ o.steps) :
    Course ch? budget (p.without D) { o with steps := Nat.count (· ∉ D) o.steps } := by
  have hcount : ∀ {k}, k ∉ D → Nat.count (· ∉ D) (k + 1) = Nat.count (· ∉ D) k + 1 :=
    Nat.count_succ_eq_succ_count_iff (p := (· ∉ D)).2
  cases h with
  | completed hpassed =>
    have hall := hidle.passed_outside le_rfl hpassed
    simp only [← length_outside] at hall ⊢
    exact .completed hall
  | @infeasible k x hx hpassed hquiet hended =>
    have hlt : k < p.steps.length := (List.getElem?_eq_some_iff.1 hx).1
    have hstays : k ∉ D := hidle.not_mem_of_ended hx hpassed.live hended
    rw [← hidle.stateBefore_outside budget hlt.le] at hquiet
    rw [← hidle.stateBefore_outside budget hlt, hcount hstays] at hended
    simp only [hcount hstays]
    exact .infeasible (getElem?_outside hx hstays) (hidle.passed_outside hlt.le hpassed) hquiet
      hended
  | @errorNode k x sink hx hpassed halarm =>
    have hlt : k < p.steps.length := (List.getElem?_eq_some_iff.1 hx).1
    have hstays : k ∉ D := fun hk => halarmed rfl k hk rfl
    rw [← hidle.stateBefore_outside budget hlt.le] at halarm
    simp only [hcount hstays]
    exact .errorNode (getElem?_outside hx hstays) (hidle.passed_outside hlt.le hpassed) halarm

/-! ## Removal from a path -/

/-- **Steps that may be removed from a path**, by their positions: no branch, no
call that returns a symbol from a source, and not the step whose alarm ended the
replay. -/
structure Removable (config : Config) (p : Path) (o : Outcome) (D : Finset ℕ) : Prop where
  branch : ∀ i ∈ D, ∀ x, p.steps[i]? = some x → ∀ t taken, x.event ≠ .branch t taken
  source : ∀ i ∈ D, ∀ x, p.steps[i]? = some x → ∀ s, ¬ config.networkTaint.SourceOf s x.event
  alarm : o.ending = .errorNode → ∀ i ∈ D, i + 1 ≠ o.steps

/-- All of them are idle. -/
theorem Removable.idle (h : Removable config p o D) : Idle config.checker? p.steps D := by
  intro i hi x hx
  cases he : x.event with
  | call call =>
    simp only [Event.update?, Option.map_eq_none_iff, Option.bind_eq_none_iff]
    intro ch hch
    obtain rfl := Config.eq_of_checker? hch
    refine Option.eq_none_iff_forall_ne_some.2 fun s hs => ?_
    have hsource := NetworkTaintConfig.mark?_eq_some_iff.1 hs
    rw [← he] at hsource
    exact h.source i hi x hx s hsource
  | access a => rfl
  | branch t taken => exact absurd he (h.branch i hi x hx t taken)

namespace Analyzer

/-- **Steps that may be removed leave no trace.** Without them the replay of a path
ends alike and raises the same alarm, and it takes as many steps less as were
among those replayed. -/
theorem replay_without (h : ofConfig config = .ok a) (hD : Removable config p (a.replay p) D) :
    (a.replay (p.without D)).ending = (a.replay p).ending ∧
      (a.replay (p.without D)).alarms = (a.replay p).alarms ∧
      (a.replay (p.without D)).steps + Nat.count (· ∈ D) (a.replay p).steps =
        (a.replay p).steps := by
  obtain ⟨-, rfl, hserves⟩ := serves_of_ofConfig h
  have hcourse := Registry.course_of_serves hserves a.config.replay.budget p
  have heq : a.replay (p.without D) = _ :=
    Registry.replay_eq_of_course hserves (hcourse.without hD.idle hD.alarm)
  rw [heq]
  exact ⟨rfl, rfl, count_not_mem_add_count_mem D _⟩

/-- The two operands that the checker looked at without objection. -/
theorem removable_threeLengths :
    Removable {} threeLengths (standard.replay threeLengths) {3, 5} where
  branch := by
    intro i hi x hx t taken hbranch
    simp only [Finset.mem_insert, Finset.mem_singleton] at hi
    rcases hi with rfl | rfl <;> cases hx <;> cases hbranch
  source := by
    intro i hi x hx s hsource
    simp only [Finset.mem_insert, Finset.mem_singleton] at hi
    rcases hi with rfl | rfl <;> cases hx
    · cases hsource with
      | call hcallee hname _ =>
        cases hcallee
        exact absurd hname (by decide)
    · cases hsource
  alarm := by
    intro _ i hi
    simp only [Finset.mem_insert, Finset.mem_singleton] at hi
    have hsteps : (standard.replay threeLengths).steps = 9 := by decide
    omega

theorem replay_without_threeLengths :
    Removable {} threeLengths (standard.replay threeLengths) {3, 5} ∧
      (standard.replay (threeLengths.without {3, 5})).ending = .errorNode ∧
      (standard.replay (threeLengths.without {3, 5})).alarms =
        (standard.replay threeLengths).alarms ∧
      (standard.replay (threeLengths.without {3, 5})).steps + 2 =
        (standard.replay threeLengths).steps := by
  have hending : (standard.replay threeLengths).ending = .errorNode := by decide
  have hcount : Nat.count (· ∈ ({3, 5} : Finset ℕ)) (standard.replay threeLengths).steps = 2 := by
    decide
  obtain ⟨hend, halarms, hsteps⟩ := replay_without ofConfig_default removable_threeLengths
  exact ⟨removable_threeLengths, hend.trans hending, halarms, hcount ▸ hsteps⟩

end Analyzer

end TaintReplay
