import TaintReplay.Proofs.Feasibility
/-!
# Ends — the answer about a threshold in closed form

The conditions on a symbol set ends to it: the least of those from above and the
greatest of those from below (`leastUpper`, `greatestLower`). As long as they leave it
an integer these are the ends of the symbol's interval (`ends_ofList`), and the
question whether the symbol may exceed a threshold looks at nothing else but the
integer that the ends come down to (`contradicts_gt_eq_false_iff`). So the answer
can be read off the branches of a run without replaying them
(`exceeds_iff_of_ends`).
-/

namespace TaintReplay

open Constraints (ofList)

/-! ## The ends that conditions set -/

namespace Condition

/-- The greatest integer the condition allows, if there is a last one. -/
def upperEnd? (c : Condition) : Option Int :=
  match c.op with
  | .eq | .le => some c.bound.toInt
  | .lt => some (c.bound.toInt - 1)
  | .neq | .gt | .ge => none

/-- The least integer the condition allows, if there is a first one. -/
def lowerEnd? (c : Condition) : Option Int :=
  match c.op with
  | .eq | .ge => some c.bound.toInt
  | .gt => some (c.bound.toInt + 1)
  | .neq | .lt | .le => none

end Condition

/-- The least of the ends that conditions set from above. -/
def leastUpper (cs : List Condition) : Option Int := (cs.filterMap Condition.upperEnd?).min?

/-- The greatest of the ends that conditions set from below. -/
def greatestLower (cs : List Condition) : Option Int := (cs.filterMap Condition.lowerEnd?).max?

theorem min?_append_toList (xs : List Int) (e : Option Int) :
    (xs ++ e.toList).min? = xs.min?.merge min e := by
  cases xs <;> cases e <;> simp [List.min?, Option.merge]

theorem max?_append_toList (xs : List Int) (e : Option Int) :
    (xs ++ e.toList).max? = xs.max?.merge max e := by
  cases xs <;> cases e <;> simp [List.max?, Option.merge]

theorem leastUpper_concat (cs : List Condition) (c : Condition) :
    leastUpper (cs ++ [c]) = (leastUpper cs).merge min c.upperEnd? := by
  rw [leastUpper, List.filterMap_append, leastUpper, ← min?_append_toList]
  cases h : c.upperEnd? <;> simp [h]

theorem greatestLower_concat (cs : List Condition) (c : Condition) :
    greatestLower (cs ++ [c]) = (greatestLower cs).merge max c.lowerEnd? := by
  rw [greatestLower, List.filterMap_append, greatestLower, ← max?_append_toList]
  cases h : c.lowerEnd? <;> simp [h]

/-- There is no such end if none of the conditions sets one. -/
theorem leastUpper_eq_none_iff {cs : List Condition} :
    leastUpper cs = none ↔ ∀ c ∈ cs, c.upperEnd? = none := by
  rw [leastUpper, List.min?_eq_none_iff, List.filterMap_eq_nil_iff]

theorem greatestLower_eq_none_iff {cs : List Condition} :
    greatestLower cs = none ↔ ∀ c ∈ cs, c.lowerEnd? = none := by
  rw [greatestLower, List.max?_eq_none_iff, List.filterMap_eq_nil_iff]

namespace Interval

variable {i : Interval} {c : Condition}

theorem toInt_sub_one {b : Int64} (h : b ≠ Int64.minValue) : (b - 1).toInt = b.toInt - 1 := by
  have hne : b.toInt ≠ -2 ^ 63 := fun he => h (Int64.toInt_inj.1 he)
  have hge := Int64.le_toInt b
  have hlt := Int64.toInt_lt b
  rw [Int64.toInt_sub, Int.bmod_eq_of_le] <;> simp <;> omega

theorem toInt_add_one {b : Int64} (h : b ≠ Int64.maxValue) : (b + 1).toInt = b.toInt + 1 := by
  have hne : b.toInt ≠ 2 ^ 63 - 1 := fun he => h (Int64.toInt_inj.1 he)
  have hge := Int64.le_toInt b
  have hlt := Int64.toInt_lt b
  rw [Int64.toInt_add, Int.bmod_eq_of_le] <;> simp <;> omega

/-- **The interval of a condition that leaves something has the ends the condition
sets.** -/
theorem ends_of_ofCondition? (h : ofCondition? c = some i) (hne : i.isEmpty = false) :
    i.upper.map Int64.toInt = c.upperEnd? ∧ i.lower.map Int64.toInt = c.lowerEnd? := by
  obtain ⟨s, op, b⟩ := c
  cases op <;> simp only [ofCondition?, Option.some.injEq, reduceCtorEq] at h <;> subst h
  case lt =>
    split at hne
    · simp [empty, between, isEmpty] at hne
    · rename_i hb
      simp only [if_neg hb, atMost, Condition.upperEnd?, Condition.lowerEnd?, Option.map_some,
        Option.map_none, toInt_sub_one hb, and_self]
  case gt =>
    split at hne
    · simp [empty, between, isEmpty] at hne
    · rename_i hb
      simp only [if_neg hb, atLeast, Condition.upperEnd?, Condition.lowerEnd?, Option.map_some,
        Option.map_none, toInt_add_one hb, and_self]
  all_goals
    simp [between, atMost, atLeast, Condition.upperEnd?, Condition.lowerEnd?]

theorem upper_inter_toInt (i j : Interval) : (i.inter j).upper.map Int64.toInt =
    (i.upper.map Int64.toInt).merge min (j.upper.map Int64.toInt) := by
  cases h : i.upper <;> cases h' : j.upper <;>
    simp [inter, h, h', meetEnd, Option.merge, toInt_min_end]

theorem lower_inter_toInt (i j : Interval) : (i.inter j).lower.map Int64.toInt =
    (i.lower.map Int64.toInt).merge max (j.lower.map Int64.toInt) := by
  cases h : i.lower <;> cases h' : j.lower <;>
    simp [inter, h, h', meetEnd, Option.merge, toInt_max_end]

/-- Ends that are not crossed. -/
theorem lower_le_upper {l u : Int64} (h : i.isEmpty = false) (hl : i.lower = some l)
    (hu : i.upper = some u) : l ≤ u := by
  obtain ⟨v, hv⟩ := isEmpty_eq_false_iff.1 h
  obtain ⟨hlv, hvu⟩ := contains_iff.1 hv
  exact Int64.le_trans (hlv l hl) (hvu u hu)

/-- The greater of two integers that another one is not below, is that one if either
of them is. -/
theorem max_eq_end {a b u : Int64} (ha : a ≤ u) (hb : b ≤ u) : max a b = u ↔ a = u ∨ b = u := by
  rw [Int64.le_iff_toInt_le] at ha hb
  simp only [← Int64.toInt_inj, toInt_max_end]
  omega

/-- The ends come down to one integer above the threshold if the greater of the lower
end and the threshold's successor is the upper end. -/
theorem pinned_iff {T u : Int64} (hcross : ∀ l, i.lower = some l → l ≤ u)
    (hlt : T.toInt < u.toInt) :
    (i.lower.map Int64.toInt).elim (T.toInt + 1) (max · (T.toInt + 1)) = u.toInt ↔
      i.lower = some u ∨ T.toInt + 1 = u.toInt := by
  cases hl : i.lower with
  | none => simp
  | some l =>
    have hle := Int64.le_iff_toInt_le.1 (hcross l hl)
    simp only [Option.map_some, Option.elim_some, Option.some.injEq, ← Int64.toInt_inj]
    omega

/-- What an interval and a bound from below leave is neither nothing nor one struck
integer: read at the ends of the interval. -/
theorem spared_atLeast_iff {b : Int64} {struck : Int64 → Bool} :
    ((i.inter (atLeast b)).isEmpty = false ∧
        ∀ p, (i.inter (atLeast b)).point? = some p → struck p = false) ↔
      ∀ u, i.upper = some u → b ≤ u ∧ (∀ l, i.lower = some l → l ≤ u) ∧
        (i.lower = some u ∨ b = u → struck u = false) := by
  obtain ⟨l, u⟩ := i
  cases u with
  | none => cases l <;> simp [inter, meetEnd, atLeast, isEmpty, point?]
  | some u =>
    cases l with
    | none =>
      simp only [inter, meetEnd, atLeast, isEmpty, point?, decide_eq_false_iff_not,
        Int64.not_lt, Option.some.injEq, forall_eq', reduceCtorEq, false_implies, implies_true,
        true_and, false_or]
      refine and_congr_right fun _ => ⟨fun h hbu => ?_, fun h p hp => ?_⟩
      · exact h u (by simp [hbu])
      · obtain ⟨hbu, rfl⟩ : b = u ∧ b = p := by simpa using hp
        exact hbu ▸ h hbu
    | some l =>
      simp only [inter, meetEnd, atLeast, isEmpty, point?, decide_eq_false_iff_not,
        Int64.not_lt, Option.some.injEq, forall_eq', max_le_end]
      rw [and_comm (a := l ≤ u), and_assoc]
      refine and_congr_right fun hb => and_congr_right fun hl => ?_
      rw [← max_eq_end hl hb]
      constructor
      · intro h hmax
        exact h u (by simp [hmax])
      · intro h p hp
        obtain ⟨hmax, rfl⟩ : max l b = u ∧ max l b = p := by simpa using hp
        exact hmax ▸ h hmax

end Interval

namespace Constraints

variable {k : Constraints} {cs : List Condition} {c : Condition} {s : Symbol} {T : Int64}

/-- **The interval of a symbol has the ends that the conditions on the symbol set**, as
long as these leave it an integer. -/
theorem ends_ofList (h : ((ofList cs).interval s).isEmpty = false) :
    ((ofList cs).interval s).upper.map Int64.toInt = leastUpper (cs.filter (·.symbol = s)) ∧
      ((ofList cs).interval s).lower.map Int64.toInt =
        greatestLower (cs.filter (·.symbol = s)) := by
  induction cs using List.reverseRecOn with
  | nil => simp [ofList, withBudget, interval, Interval.unbounded, leastUpper, greatestLower]
  | append_singleton cs c ih =>
    rw [ofList_concat] at h ⊢
    obtain ⟨hupper, hlower⟩ :=
      ih (Bool.eq_false_iff.2 fun hempty => Bool.eq_false_iff.1 h (isEmpty_record hempty))
    rw [List.filter_append]
    by_cases hs : c.symbol = s
    · have hfilter : [c].filter (·.symbol = s) = [c] := by simp [hs]
      rw [hfilter, leastUpper_concat, greatestLower_concat, ← hupper, ← hlower]
      cases hc : Interval.ofCondition? c with
      | none =>
        -- a `!=` sets no end
        have hop := Interval.ofCondition?_eq_none_iff.1 hc
        rw [interval_record_of_none hc]
        simp [Condition.upperEnd?, Condition.lowerEnd?, hop]
      | some i =>
        rw [interval_record_of_some hc, if_pos hs] at h ⊢
        have hi : i.isEmpty = false := by
          rw [Interval.inter_comm] at h
          exact Interval.isEmpty_of_inter h
        obtain ⟨hu, hl⟩ := Interval.ends_of_ofCondition? hc hi
        rw [Interval.upper_inter_toInt, Interval.lower_inter_toInt, hu, hl]
        exact ⟨rfl, rfl⟩
    · have hfilter : [c].filter (·.symbol = s) = [] := by simp [hs]
      have hsame : ((ofList cs).record c).interval s = (ofList cs).interval s := by
        cases hc : Interval.ofCondition? c with
        | none => exact interval_record_of_none hc
        | some i => rw [interval_record_of_some hc, if_neg hs]
      rw [hfilter, List.append_nil, hsame]
      exact ⟨hupper, hlower⟩

/-- **The question about a threshold**, read at the ends of the interval. The
threshold leaves integers above it; and an upper end lies above it and not below
the lower end, and is not an excluded integer that is all there is left. -/
theorem contradicts_gt_eq_false_iff : k.contradicts ⟨s, .gt, T⟩ = false ↔
    T < Int64.maxValue ∧ ∀ u, (k.interval s).upper = some u →
      T < u ∧ (∀ l, (k.interval s).lower = some l → l ≤ u) ∧
        ((k.interval s).lower = some u ∨ T.toInt + 1 = u.toInt → k.excludes s u = false) := by
  obtain ⟨i, hi⟩ : ∃ i, Interval.ofCondition? ⟨s, .gt, T⟩ = some i := ⟨_, rfl⟩
  rw [contradicts_eq_false_iff hi]
  by_cases hT : T = Int64.maxValue
  · -- nothing lies above the last integer
    refine iff_of_false (fun h => ?_) fun h => by simp [hT] at h
    obtain ⟨v, hv⟩ := Interval.isEmpty_eq_false_iff.1 h.1
    rw [Interval.contains_inter, Interval.contains_of_ofCondition? hi] at hv
    simp [hT, Condition.holds, Comparison.holds] at hv
  · simp only [Interval.ofCondition?, if_neg hT, Option.some.injEq] at hi
    subst hi
    have hsucc := Interval.toInt_add_one hT
    have hlt : T < Int64.maxValue := by
      have hle := Int64.toInt_lt (T + 1)
      rw [Int64.lt_iff_toInt_lt, Int64.toInt_maxValue]
      omega
    rw [and_iff_right hlt, Interval.spared_atLeast_iff]
    simp only [Int64.le_iff_toInt_le, Int64.lt_iff_toInt_lt, ← Int64.toInt_inj, hsucc,
      Int.add_one_le_iff]

/-- **A lower threshold is not contradicted before a higher one.** -/
theorem contradicts_gt_of_le {T' : Int64} (hle : T' ≤ T)
    (h : k.contradicts ⟨s, .gt, T⟩ = false) : k.contradicts ⟨s, .gt, T'⟩ = false := by
  rw [contradicts_gt_eq_false_iff] at h ⊢
  obtain ⟨hmax, hends⟩ := h
  refine ⟨Int64.lt_of_le_of_lt hle hmax, fun u hu => ?_⟩
  obtain ⟨hlt, hcross, hstruck⟩ := hends u hu
  refine ⟨Int64.lt_of_le_of_lt hle hlt, hcross, ?_⟩
  rintro (hpoint | hnext)
  · exact hstruck (Or.inl hpoint)
  · -- with the upper end next to the lower threshold, the two thresholds are one
    rw [Int64.le_iff_toInt_le] at hle
    rw [Int64.lt_iff_toInt_lt] at hlt
    exact hstruck (Or.inr (by omega))

end Constraints

/-! ## The closed form -/

/-- The conditions that a run of updates makes on a symbol, in order. -/
def conditionsOn (us : List Update) (s : Symbol) : List Condition :=
  (conditionsOf us).filter (·.symbol = s)

namespace PathState

variable {budget : Nat} {us : List Update} {s : Symbol} {θ : Threshold} {T : Int64}

/-- **The interval of a symbol that is not blurred** has the ends that the branches
on it set. -/
theorem ends_of_not_blurred (hlive : (after budget us).feasibility ≠ .infeasible)
    (hb : (after budget us).constraints.isBlurred s = false) :
    ((after budget us).constraints.interval s).upper.map Int64.toInt =
        leastUpper (conditionsOn us s) ∧
      ((after budget us).constraints.interval s).lower.map Int64.toInt =
        greatestLower (conditionsOn us s) := by
  have hall : ((conditionsOf us).take budget).filter (·.symbol = s) = conditionsOn us s := by
    have hlate : ((conditionsOf us).drop budget).filter (·.symbol = s) = [] := by
      rw [List.filter_eq_nil_iff]
      exact fun c hc hs => (spared_of_not_blurred hlive hb).2 ⟨c, hc, by simpa using hs⟩
    rw [conditionsOn]
    conv_rhs => rw [← List.take_append_drop budget (conditionsOf us), List.filter_append, hlate,
      List.append_nil]
  have hends := Constraints.ends_ofList (s := s)
    ((live_after_iff.1 hlive).accepted.consistent.inhabited s)
  rw [hall] at hends
  rw [constraints_eq_ofList hlive]
  exact hends

/-- The integers that a symbol which is not blurred is told not to be, are those
that are excluded. -/
theorem neq_on_iff (hlive : (after budget us).feasibility ≠ .infeasible)
    (hb : (after budget us).constraints.isBlurred s = false) {u : Int64} :
    (∃ c ∈ conditionsOn us s, c.op = .neq ∧ c.bound.toInt = u.toInt) ↔
      (after budget us).constraints.excludes s u = true := by
  rw [excludes_of_not_blurred hlive hb]
  constructor
  · rintro ⟨⟨r, op, b⟩, hc, hop, hbound⟩
    obtain ⟨hmem, hs⟩ := List.mem_filter.1 hc
    obtain rfl : r = s := by simpa using hs
    obtain rfl : b = u := Int64.toInt_inj.1 hbound
    obtain rfl : op = .neq := hop
    exact hmem
  · intro hmem
    exact ⟨⟨s, .neq, u⟩, List.mem_filter.2 ⟨hmem, by simp⟩, rfl, rfl⟩

/-- **The answer in closed form.** While a path can be run, every branch that
mentions a symbol which is not blurred is a condition on it; and the symbol may
exceed a threshold `T` if there are integers above `T`, and there is no end to the
symbol from above, or that end lies above `T` and is not excluded while nothing
else is left. -/
theorem exceeds_iff_of_ends (hlive : (after budget us).feasibility ≠ .infeasible)
    (hb : (after budget us).constraints.isBlurred s = false)
    (hw : Value.ofWord θ.limit θ.width = .number (.int T)) :
    (∀ t taken, .assume t taken ∈ us → s ∈ t.symbols →
        ∃ c ∈ conditionsOn us s, t.reading taken = .condition c) ∧
      ((after budget us).exceeds θ (.number (.symbol s)) = true ↔
        T < Int64.maxValue ∧
          (leastUpper (conditionsOn us s) = none ∨
            ∃ U, leastUpper (conditionsOn us s) = some U ∧ T.toInt < U ∧
              ¬ ((greatestLower (conditionsOn us s)).elim (T.toInt + 1) (max · (T.toInt + 1)) = U ∧
                ∃ c ∈ conditionsOn us s, c.op = .neq ∧ c.bound.toInt = U))) := by
  constructor
  · intro t taken hu hmem
    obtain ⟨pre, post, hus⟩ := List.append_of_mem hu
    obtain ⟨c, hr, hs, -⟩ := recorded_of_not_blurred hlive hb hus hmem
    exact ⟨c, List.mem_filter.2 ⟨mem_conditionsOf_iff.2 ⟨t, taken, hu, hr⟩, by simp [hs]⟩, hr⟩
  · have hquery : (after budget us).exceeds θ (.number (.symbol s)) = true ↔
        (after budget us).constraints.contradicts ⟨s, .gt, T⟩ = false := by
      rw [exceeds_symbol_iff]
      simp [hw, hlive, Constraints.check_eq_feasible_iff, hb]
    obtain ⟨hupper, hlower⟩ := ends_of_not_blurred hlive hb
    have hin : ((after budget us).constraints.interval s).isEmpty = false :=
      (consistent_after hlive).inhabited s
    rw [hquery, Constraints.contradicts_gt_eq_false_iff, ← hupper, ← hlower]
    refine and_congr_right fun _ => ?_
    cases hu : ((after budget us).constraints.interval s).upper with
    | none => simp
    | some u =>
      -- the ends of a path that can be run are not crossed
      have hcross : ∀ l, ((after budget us).constraints.interval s).lower = some l → l ≤ u :=
        fun l hl => Interval.lower_le_upper hin hl hu
      simp only [Option.some.injEq, forall_eq', Option.map_some, reduceCtorEq, false_or,
        exists_eq_left', neq_on_iff hlive hb, Int64.lt_iff_toInt_lt]
      refine and_congr_right fun hlt => ?_
      rw [and_iff_right hcross, Interval.pinned_iff hcross hlt, not_and, Bool.not_eq_true]

/-- A run that leaves one integer above 8999 and excludes it; a condition on another
symbol comes too late for a budget of two. -/
def edgeRun : List Update :=
  [ .assume (.compare (.int 9000) .lt (.symbol ⟨0⟩)) false
  , .assume (.compare (.symbol ⟨0⟩) .eq (.int 9000)) false
  , .assume (.symbol ⟨1⟩) true ]

theorem exceeds_edgeRun :
    (after 2 edgeRun).feasibility ≠ .infeasible ∧
      (after 2 edgeRun).constraints.isBlurred ⟨0⟩ = false ∧
      leastUpper (conditionsOn edgeRun ⟨0⟩) = some 9000 ∧
      (after 2 edgeRun).exceeds ⟨8998, 32⟩ (.number (.symbol ⟨0⟩)) = true ∧
      (after 2 edgeRun).exceeds ⟨8999, 32⟩ (.number (.symbol ⟨0⟩)) = false := by
  have hlive : (after 2 edgeRun).feasibility ≠ .infeasible := by decide
  have hblurred : (after 2 edgeRun).constraints.isBlurred ⟨0⟩ = false := by decide
  have hupper : leastUpper (conditionsOn edgeRun ⟨0⟩) = some 9000 := by decide
  refine ⟨hlive, hblurred, hupper, ?_, ?_⟩
  · -- two integers lie between the threshold and the end, and one is not excluded
    refine (exceeds_iff_of_ends (θ := ⟨8998, 32⟩) (T := 8998) hlive hblurred (by decide)).2.2 ?_
    exact ⟨by decide, Or.inr ⟨9000, hupper, by decide, by decide⟩⟩
  · rw [Bool.eq_false_iff, ne_eq,
      (exceeds_iff_of_ends (θ := ⟨8999, 32⟩) (T := 8999) hlive hblurred (by decide)).2]
    rintro ⟨-, hnone | ⟨U, hU, -, hleft⟩⟩
    · rw [hupper] at hnone
      cases hnone
    · -- the only one left is the end itself
      rw [hupper] at hU
      cases hU
      exact hleft (by decide)

end PathState

end TaintReplay
