import TaintReplay.Proofs.Branch
/-!
# Path states — what a run of updates comes to

A state is reached from the start of a path by updates: branches are assumed
and symbols are tainted, in any order. This file follows such a run in two
ways. Forward, by the valuations a state allows: a valuation under which the
branches went as assumed stays allowed (`models_after`), so that a path found
infeasible is one no valuation runs. Backward, by what is left in the state:
while the path can be run, its record is that of the entries its branches make
(`constraints_after`), and a symbol that is not blurred has every branch that
mentions it recorded (`recorded_of_not_blurred`).
-/

namespace TaintReplay

/-- What is done to the state of a path. -/
inductive Update where
  | assume (t : Term) (taken : Bool)
  | taint (s : Symbol)
deriving DecidableEq

namespace Update

/-- What an update enters into the record. -/
def entry? : Update → Option Entry
  | assume t taken =>
    match t.reading taken with
    | .decided _ => none
    | .condition c => some (.condition c)
    | .vague => some (.blur t.symbols)
  | taint _ => none

/-- Whether an update assumes a branch. -/
def isAssume : Update → Bool
  | assume .. => true
  | taint _ => false

/-- The condition an update enters into the record. -/
def condition? (u : Update) : Option Condition := u.entry?.bind Entry.condition?

theorem condition?_assume_eq_some_iff {t : Term} {taken : Bool} {c : Condition} :
    (assume t taken).condition? = some c ↔ t.reading taken = .condition c := by
  rw [condition?, entry?]
  cases t.reading taken <;> simp [Entry.condition?]

end Update

/-- The conditions a run of updates makes, in order, recorded or not. -/
def conditionsOf (us : List Update) : List Condition := us.filterMap Update.condition?

/-- They are what the branches that read as conditions say. -/
theorem mem_conditionsOf_iff {us : List Update} {c : Condition} :
    c ∈ conditionsOf us ↔ ∃ t taken, .assume t taken ∈ us ∧ t.reading taken = .condition c := by
  rw [conditionsOf, List.mem_filterMap]
  constructor
  · rintro ⟨u, hu, hc⟩
    cases u with
    | taint s => cases hc
    | assume t taken => exact ⟨t, taken, hu, Update.condition?_assume_eq_some_iff.1 hc⟩
  · rintro ⟨t, taken, hu, hr⟩
    exact ⟨_, hu, Update.condition?_assume_eq_some_iff.2 hr⟩

namespace PathState

variable {st : PathState} {σ : Valuation} {t : Term} {taken : Bool} {s : Symbol} {v : Int64}
variable {budget : Nat} {us : List Update}

/-- The state after an update. -/
def update (st : PathState) : Update → PathState
  | .assume t taken => st.assume t taken
  | .taint s => st.taint s

/-- The state after a run of updates, from the start of a path. -/
def after (budget : Nat) (us : List Update) : PathState := us.foldl update (.start budget)

theorem after_concat (u : Update) : after budget (us ++ [u]) = (after budget us).update u := by
  simp [after]

/-! ## The valuations a state allows -/

/-- **A valuation the state allows**: the path can be run, and every symbol
stands for an integer the record leaves it. -/
structure Models (σ : Valuation) (st : PathState) : Prop where
  live : st.feasibility ≠ .infeasible
  allowed : ∀ s, st.constraints.allows s (σ s) = true

theorem models_start (budget : Nat) : Models σ (.start budget) where
  live := by simp [start]
  allowed s := by
    simp [start, Constraints.withBudget, Constraints.allows, Constraints.interval,
      Constraints.excludes]

/-- **Assuming what is true rules nothing true out.** -/
theorem Models.assume (h : Models σ st) (ht : t.isTrue σ = taken) :
    Models σ (st.assume t taken) := by
  cases hr : t.reading taken with
  | decided outcome =>
    have ho : outcome = true := (Term.isTrue_iff_of_decided hr σ).1 ht
    rw [assume_of_decided h.live hr, ho]
    exact ⟨by simp [decided], h.allowed⟩
  | condition c =>
    have hc : c.holds (σ c.symbol) = true := (Term.isTrue_iff_of_condition hr σ).1 ht
    rw [assume_of_condition h.live hr]
    constructor
    · -- the verdict: the valuation's own integer passes the condition
      intro hv
      rw [assumeCondition, Constraints.check_eq_infeasible_iff,
        Constraints.contradicts_eq_false (h.allowed _) hc] at hv
      exact absurd hv (by simp)
    · -- the record: it loses only integers the condition fails
      intro s
      exact Constraints.allows_add (h.allowed s) fun hs => hs ▸ hc
  | vague =>
    rw [assume_of_vague h.live hr]
    exact ⟨by simp [cloud], h.allowed⟩

/-- **Along a run.** A valuation under which the branches went as assumed is
allowed at its end. -/
theorem models_after (h : ∀ t taken, .assume t taken ∈ us → t.isTrue σ = taken) :
    Models σ (after budget us) := by
  induction us using List.reverseRecOn with
  | nil => exact models_start budget
  | append_singleton us u ih =>
    have hst := ih fun t taken hm => h t taken (List.mem_append_left _ hm)
    rw [after_concat]
    cases u with
    | assume t taken => exact hst.assume (h t taken (by simp))
    | taint s => exact ⟨hst.live, hst.allowed⟩

/-- **Infeasible is never wrong.** No valuation makes all branches go as they
were assumed, those dropped for want of budget and the vague ones included. -/
theorem unsatisfiable_of_infeasible (budget : Nat) (us : List Update)
    (h : (after budget us).feasibility = .infeasible) :
    ¬ ∃ σ : Valuation, ∀ t taken, .assume t taken ∈ us → t.isTrue σ = taken := by
  rintro ⟨σ, hσ⟩
  exact (models_after hσ).live h

/-- A run that contradicts itself past a budget of one condition: the second
branch is vague, and the third comes too late to be recorded. -/
def lateConflict : List Update :=
  [ .assume (.compare (.symbol ⟨0⟩) .lt (.int Int64.maxValue)) false
  , .taint ⟨0⟩
  , .assume (.compare (.symbol ⟨0⟩) .le (.symbol ⟨1⟩)) true
  , .assume (.compare (.int 5) .ge (.symbol ⟨0⟩)) true ]

theorem unsatisfiable_lateConflict :
    (after 1 lateConflict).feasibility = .infeasible ∧
      ¬ ∃ σ : Valuation, ∀ t taken, .assume t taken ∈ lateConflict → t.isTrue σ = taken :=
  ⟨by decide, unsatisfiable_of_infeasible 1 lateConflict (by decide)⟩

/-! ## The record of a run -/

/-- Infeasibility is permanent. -/
theorem update_of_infeasible (h : st.feasibility = .infeasible) (u : Update) :
    (st.update u).feasibility = .infeasible := by
  cases u with
  | assume t taken =>
    rw [update, assume_of_infeasible h]
    exact h
  | taint s => exact h

/-- So a path that can be run could be run all along. -/
theorem live_of_live_append {vs : List Update}
    (h : (after budget (us ++ vs)).feasibility ≠ .infeasible) :
    (after budget us).feasibility ≠ .infeasible := by
  induction vs using List.reverseRecOn with
  | nil => simpa using h
  | append_singleton vs u ih =>
    refine ih fun hv => h ?_
    rw [← List.append_assoc, after_concat]
    exact update_of_infeasible hv u

/-- **An update on a path that can be run makes its entry**, if it has one to make. -/
theorem constraints_update (hlive : st.feasibility ≠ .infeasible) (u : Update) :
    (st.update u).constraints = u.entry?.elim st.constraints st.constraints.enter := by
  cases u with
  | taint s => rfl
  | assume t taken =>
    rw [update, Update.entry?]
    cases hr : t.reading taken with
    | decided outcome =>
      rw [assume_of_decided hlive hr]
      rfl
    | condition c =>
      rw [assume_of_condition hlive hr]
      rfl
    | vague =>
      rw [assume_of_vague hlive hr]
      rfl

/-- **While the path can be run, the record is that of the entries made.** -/
theorem constraints_after (h : (after budget us).feasibility ≠ .infeasible) :
    (after budget us).constraints = Constraints.after budget (us.filterMap Update.entry?) := by
  induction us using List.reverseRecOn with
  | nil => rfl
  | append_singleton us u ih =>
    have hlive := live_of_live_append h
    rw [after_concat, constraints_update hlive, ih hlive, List.filterMap_append]
    cases hu : u.entry? with
    | none => simp [hu]
    | some e => simp [hu, Constraints.after_concat]

/-- The conditions entered are the conditions made. -/
theorem conditions_entries (us : List Update) :
    Constraints.conditions (us.filterMap Update.entry?) = conditionsOf us := by
  rw [Constraints.conditions, conditionsOf, List.filterMap_filterMap]
  rfl

@[simp] theorem tainted_assume (st : PathState) (t : Term) (taken : Bool) :
    (st.assume t taken).tainted = st.tainted := by
  by_cases hlive : st.feasibility = .infeasible
  · rw [assume_of_infeasible hlive]
  · cases hr : t.reading taken with
    | decided outcome =>
      rw [assume_of_decided hlive hr]
      rfl
    | condition c =>
      rw [assume_of_condition hlive hr]
      rfl
    | vague =>
      rw [assume_of_vague hlive hr]
      rfl

/-- **Taint is what was tainted**, whatever was assumed meanwhile. -/
theorem tainted_after : (after budget us).tainted.contains s = true ↔ .taint s ∈ us := by
  induction us using List.reverseRecOn with
  | nil => simp [after, start]
  | append_singleton us u ih =>
    rw [after_concat]
    cases u with
    | assume t taken => simpa [update] using ih
    | taint r =>
      simp only [update, taint, Std.ExtTreeSet.contains_insert, Bool.or_eq_true, beq_iff_eq,
        Std.LawfulEqCmp.compare_eq_iff_eq, ih, List.mem_append, List.mem_singleton,
        Update.taint.injEq]
      rw [or_comm, eq_comm]

/-- Assuming does not look at the taint. -/
theorem assume_of_tainted (st : PathState) (tainted : Std.ExtTreeSet Symbol) (t : Term)
    (taken : Bool) :
    ({ st with tainted } : PathState).assume t taken = { st.assume t taken with tainted } := by
  by_cases hlive : st.feasibility = .infeasible
  · have hlive' : ({ st with tainted } : PathState).feasibility = .infeasible := hlive
    rw [assume_of_infeasible hlive, assume_of_infeasible hlive']
  · have hlive' : ({ st with tainted } : PathState).feasibility ≠ .infeasible := hlive
    cases hr : t.reading taken with
    | decided outcome =>
      rw [assume_of_decided hlive hr, assume_of_decided hlive' hr]
      rfl
    | condition c =>
      rw [assume_of_condition hlive hr, assume_of_condition hlive' hr]
      rfl
    | vague =>
      rw [assume_of_vague hlive hr, assume_of_vague hlive' hr]
      rfl

/-- **All but the taint is what the branches made of it.** -/
theorem after_eq_filter (budget : Nat) (us : List Update) :
    after budget us =
      { after budget (us.filter Update.isAssume) with tainted := (after budget us).tainted } := by
  induction us using List.reverseRecOn with
  | nil => rfl
  | append_singleton us u ih =>
    rw [after_concat, List.filter_append]
    cases u with
    | taint s =>
      simp only [update, taint, List.filter_cons, Update.isAssume, Bool.false_eq_true, if_false,
        List.filter_nil, List.append_nil]
      conv_lhs => rw [ih]
    | assume t taken =>
      simp only [update, List.filter_cons, Update.isAssume, if_true, List.filter_nil,
        after_concat, tainted_assume]
      conv_lhs => rw [ih, assume_of_tainted]

/-! ## Symbols that are not blurred -/

/-- What a symbol that is not blurred has been spared: no vague branch mentions it,
and no condition on it came too late. -/
theorem spared_of_not_blurred (hlive : (after budget us).feasibility ≠ .infeasible)
    (hb : (after budget us).constraints.isBlurred s = false) :
    (¬ ∃ ss, Entry.blur ss ∈ us.filterMap Update.entry? ∧ s ∈ ss) ∧
      ¬ ∃ c ∈ (conditionsOf us).drop budget, c.symbol = s := by
  rw [constraints_after hlive, Bool.eq_false_iff, ne_eq, Constraints.isBlurred_after_iff,
    conditions_entries, not_or] at hb
  exact hb

/-- **Every branch that mentions a symbol which is not blurred is recorded**:
it is a condition on the symbol, made while there was budget. -/
theorem recorded_of_not_blurred (hlive : (after budget us).feasibility ≠ .infeasible)
    (hb : (after budget us).constraints.isBlurred s = false) {pre post : List Update}
    (hus : us = pre ++ .assume t taken :: post) (hs : s ∈ t.symbols) :
    ∃ c, t.reading taken = .condition c ∧ c.symbol = s ∧ (conditionsOf pre).length < budget := by
  obtain ⟨hnovague, hnodrop⟩ := spared_of_not_blurred hlive hb
  cases hr : t.reading taken with
  | decided outcome =>
    rw [Term.symbols_of_decided hr] at hs
    exact absurd hs List.not_mem_nil
  | vague =>
    -- such a branch blurs all it mentions
    refine absurd ⟨t.symbols, ?_, hs⟩ hnovague
    rw [hus]
    simp [Update.entry?, hr]
  | condition c =>
    -- and so does a condition for its symbol once the budget is used up
    rw [Term.symbols_of_condition hr, List.mem_singleton] at hs
    refine ⟨c, rfl, hs.symm, Nat.lt_of_not_le fun hge => hnodrop ⟨c, ?_, hs.symm⟩⟩
    have hsplit : conditionsOf us = conditionsOf pre ++ c :: conditionsOf post := by
      rw [hus]
      rw [conditionsOf, List.filterMap_append,
        List.filterMap_cons_some (Update.condition?_assume_eq_some_iff.2 hr)]
      rfl
    rw [hsplit, List.drop_append_of_le_length hge]
    simp

/-- **And conversely**: a symbol is not blurred if no branch that mentions it is vague, and
no condition on it came too late. -/
theorem not_blurred_of_read (hlive : (after budget us).feasibility ≠ .infeasible)
    (hread : ∀ t taken, .assume t taken ∈ us → s ∈ t.symbols → t.reading taken ≠ .vague)
    (hfit : ∀ c ∈ (conditionsOf us).drop budget, c.symbol ≠ s) :
    (after budget us).constraints.isBlurred s = false := by
  rw [Bool.eq_false_iff, ne_eq, constraints_after hlive, Constraints.isBlurred_after_iff,
    conditions_entries]
  rintro (⟨ss, hss, hs⟩ | ⟨c, hc, hsym⟩)
  · obtain ⟨u, hu, hentry⟩ := List.mem_filterMap.1 hss
    cases u with
    | taint r => cases hentry
    | assume t taken =>
      cases hr : t.reading taken <;> simp only [Update.entry?, hr] at hentry <;> cases hentry
      exact hread t taken hu hs hr
  · exact hfit c hc hsym

/-- So it is not if every branch that mentions it tests it against a constant and all
conditions fit the budget. -/
theorem not_blurred_of_subjects (hlive : (after budget us).feasibility ≠ .infeasible)
    (hsub : ∀ t taken, .assume t taken ∈ us → s ∈ t.symbols → t.subject? = some s)
    (hfit : (conditionsOf us).length ≤ budget) :
    (after budget us).constraints.isBlurred s = false := by
  refine not_blurred_of_read hlive (fun t taken hu hs hr => ?_) fun c hc => ?_
  · obtain ⟨c, hc, -⟩ := (Term.subject?_eq_some_iff taken).1 (hsub t taken hu hs)
    rw [hr] at hc
    cases hc
  · rw [List.drop_eq_nil_of_le hfit] at hc
    exact absurd hc List.not_mem_nil

/-- The conditions on a symbol that is not blurred are all in the record. -/
theorem mem_take_of_not_blurred (hlive : (after budget us).feasibility ≠ .infeasible)
    (hb : (after budget us).constraints.isBlurred s = false) {c : Condition}
    (hc : c ∈ conditionsOf us) (hs : c.symbol = s) : c ∈ (conditionsOf us).take budget := by
  rw [← List.take_append_drop budget (conditionsOf us)] at hc
  rcases List.mem_append.1 hc with htake | hdrop
  · exact htake
  · exact absurd ⟨c, hdrop, hs⟩ (spared_of_not_blurred hlive hb).2

/-- So what holds of the recorded conditions on it holds of all. -/
theorem forall_recorded_iff (hlive : (after budget us).feasibility ≠ .infeasible)
    (hb : (after budget us).constraints.isBlurred s = false) {Q : Condition → Prop} :
    (∀ c ∈ (conditionsOf us).take budget, c.symbol = s → Q c) ↔
      ∀ c ∈ conditionsOf us, c.symbol = s → Q c := by
  constructor
  · intro h c hc hs
    exact h c (mem_take_of_not_blurred hlive hb hc hs) hs
  · intro h c hc hs
    exact h c (List.mem_of_mem_take hc) hs

/-- **Its interval is what the conditions on it allow**, the `!=` aside. -/
theorem contains_interval_of_not_blurred (hlive : (after budget us).feasibility ≠ .infeasible)
    (hb : (after budget us).constraints.isBlurred s = false) :
    ((after budget us).constraints.interval s).contains v = true ↔
      ∀ c ∈ conditionsOf us, c.symbol = s → c.op ≠ .neq → c.holds v = true := by
  rw [constraints_after hlive, Constraints.contains_interval_after, conditions_entries]
  exact forall_recorded_iff hlive hb

/-- **And the `!=` on it are its excluded integers.** -/
theorem excludes_of_not_blurred (hlive : (after budget us).feasibility ≠ .infeasible)
    (hb : (after budget us).constraints.isBlurred s = false) :
    (after budget us).constraints.excludes s v = true ↔ ⟨s, .neq, v⟩ ∈ conditionsOf us := by
  rw [constraints_after hlive, Constraints.excludes_after, conditions_entries]
  exact ⟨List.mem_of_mem_take, fun h => mem_take_of_not_blurred hlive hb h rfl⟩

end PathState

end TaintReplay
