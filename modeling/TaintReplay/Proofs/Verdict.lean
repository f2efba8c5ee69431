import TaintReplay.Proofs.Ends
/-!
# Verdicts on one integer — that a symbol is it, and that it is not

What a record holds of a symbol can be asked integer by integer. That the symbol is a
given one is infeasible exactly if the record does not leave it that integer
(`contradicts_eq_false_iff_allows`). So the verdicts on `==` tell, after any run, of which
integers all recorded conditions hold; they do so even where the conditions contradict
one another, and nothing that was recorded is lost (`check_eq_after`).

That the symbol is not a given integer ought to be infeasible where the conditions, the
`!=` aside, leave no other (`Pins`). The record sees this by ends that meet, and it has an
end only where a condition set one. The last machine integer needs no bound from above to
be the only one left, nor does the first need one from below; there the record goes on to
find it feasible that the symbol is something else, and nowhere else
(`check_neq_iff_of_pins`).
-/

namespace TaintReplay

namespace Interval

variable {i : Interval} {v : Int64}

/-- **The one integer of an interval is the point of its ends**, if both are there. -/
theorem point?_eq_some_iff_of_sole (h : ∀ w, i.contains w = true ↔ w = v) :
    i.point? = some v ↔ i.upper ≠ none ∧ i.lower ≠ none := by
  constructor
  · intro hp
    obtain ⟨hl, hu⟩ := point?_eq_some_iff.1 hp
    simp [hl, hu]
  · rintro ⟨hu, hl⟩
    have hne : i.isEmpty = false := isEmpty_eq_false_iff.2 ⟨v, (h v).2 rfl⟩
    cases hp : i.point? with
    | none =>
      -- ends that do not meet would leave a second integer
      obtain hopen | hopen | ⟨w, w', hww, hw, hw'⟩ := exists_two_or_open hne hp
      · exact absurd hopen hl
      · exact absurd hopen hu
      · exact absurd (((h w).1 hw).trans ((h w').1 hw').symm) hww
    | some p => rw [(contains_of_point? hp).1 ((h v).2 rfl)]

/-- With no end above it, that integer is the last one. -/
theorem eq_maxValue_of_sole (h : ∀ w, i.contains w = true ↔ w = v) (hu : i.upper = none) :
    v = Int64.maxValue := by
  obtain ⟨hl, -⟩ := contains_iff.1 ((h v).2 rfl)
  refine ((h _).1 (contains_iff.2 ⟨fun l hlow => ?_, by simp [hu]⟩)).symm
  exact Int64.le_trans (hl l hlow) (Int64.le_maxValue v)

/-- With no end below it, it is the first one. -/
theorem eq_minValue_of_sole (h : ∀ w, i.contains w = true ↔ w = v) (hl : i.lower = none) :
    v = Int64.minValue := by
  obtain ⟨-, hu⟩ := contains_iff.1 ((h v).2 rfl)
  refine ((h _).1 (contains_iff.2 ⟨by simp [hl], fun u hup => ?_⟩)).symm
  exact Int64.le_trans (Int64.minValue_le v) (hu u hup)

end Interval

namespace Constraints

variable {k : Constraints} {s : Symbol} {v : Int64} {budget : Nat} {es : List Entry}

/-! ## That a symbol is an integer -/

/-- **Being an integer is contradicted unless the record leaves that integer.** -/
theorem contradicts_eq_false_iff_allows :
    k.contradicts ⟨s, .eq, v⟩ = false ↔ k.allows s v = true := by
  constructor
  · intro h
    obtain ⟨hempty, hspared⟩ := (contradicts_eq_false_iff (i := .between v v) rfl).1 h
    have hpoint : (Interval.between v v).point? = some v := by
      simp [Interval.between, Interval.point?]
    rw [Interval.inter_comm] at hempty hspared
    obtain ⟨w, hw⟩ := Interval.isEmpty_eq_false_iff.1 hempty
    rw [Interval.contains_inter, Bool.and_eq_true, Interval.contains_of_point? hpoint] at hw
    obtain ⟨rfl, hin⟩ := hw
    exact allows_iff.2 ⟨hin, hspared w (Interval.point?_inter hpoint hempty)⟩
  · intro h
    exact contradicts_eq_false h (by simp [Condition.holds, Comparison.holds])

/-- The conditions on a symbol that a run records, in order. -/
def recordedOn (budget : Nat) (es : List Entry) (s : Symbol) : List Condition :=
  ((conditions es).take budget).filter (·.symbol = s)

theorem forall_recordedOn_iff {Q : Condition → Prop} : (∀ c ∈ recordedOn budget es s, Q c) ↔
    ∀ c ∈ (conditions es).take budget, c.symbol = s → Q c := by
  simp [recordedOn, List.mem_filter]

/-- **A run loses none of the conditions it records.** That a symbol is an integer is
infeasible if one of the conditions recorded on the symbol fails of the integer. Else it is
unknown if the symbol was blurred, by request or by a condition that came too late, and
feasible if it was not. -/
theorem check_eq_after (budget : Nat) (es : List Entry) (s : Symbol) (v : Int64) :
    ((after budget es).check ⟨s, .eq, v⟩ = .infeasible ↔
        ∃ c ∈ recordedOn budget es s, c.holds v = false) ∧
      ((after budget es).check ⟨s, .eq, v⟩ = .unknown ↔
        (∀ c ∈ recordedOn budget es s, c.holds v = true) ∧
          ((∃ ss, .blur ss ∈ es ∧ s ∈ ss) ∨ ∃ c ∈ (conditions es).drop budget, c.symbol = s)) ∧
      ((after budget es).check ⟨s, .eq, v⟩ = .feasible ↔
        (∀ c ∈ recordedOn budget es s, c.holds v = true) ∧
          ¬ ((∃ ss, .blur ss ∈ es ∧ s ∈ ss) ∨
            ∃ c ∈ (conditions es).drop budget, c.symbol = s)) ∧
      (after budget es).count = min budget (conditions es).length := by
  have hquiet : (after budget es).contradicts ⟨s, .eq, v⟩ = false ↔
      ∀ c ∈ recordedOn budget es s, c.holds v = true := by
    rw [contradicts_eq_false_iff_allows, allows_after_iff, forall_recordedOn_iff]
  refine ⟨?_, ?_, ?_, count_after⟩
  · rw [check_eq_infeasible_iff, ← not_iff_not, Bool.not_eq_true, hquiet]
    simp
  · rw [check_eq_unknown_iff, hquiet, isBlurred_after_iff]
  · rw [check_eq_feasible_iff, hquiet, ← Bool.not_eq_true, isBlurred_after_iff]

-- crossed bounds leave no integer, a condition that comes too late blurs its symbol
example :
    let k := after 2
      [.condition ⟨⟨0⟩, .ge, 1⟩, .condition ⟨⟨0⟩, .lt, 1⟩, .condition ⟨⟨1⟩, .eq, 3⟩]
    k.check ⟨⟨0⟩, .eq, 1⟩ = .infeasible ∧ k.check ⟨⟨1⟩, .eq, 4⟩ = .unknown ∧
      k.check ⟨⟨2⟩, .eq, 4⟩ = .feasible := by
  decide

/-! ## That it is not -/

/-- **Conditions pin an integer** if it is the only one they hold of, the `!=` among them
aside. -/
def Pins (cs : List Condition) (v : Int64) : Prop :=
  ∀ w, (∀ c ∈ cs, c.op ≠ .neq → c.holds w = true) ↔ w = v

/-- A pinned integer is all there is in the interval. -/
theorem contains_iff_of_pins (h : Pins (recordedOn budget es s) v) (w : Int64) :
    ((after budget es).interval s).contains w = true ↔ w = v := by
  rw [contains_interval_after, ← forall_recordedOn_iff (Q := fun c => c.op ≠ .neq → _)]
  exact h w

/-- Where they leave an integer, the recorded conditions set the ends of the interval. -/
theorem ends_eq_none_iff (h : ((after budget es).interval s).isEmpty = false) :
    (((after budget es).interval s).upper = none ↔
        ∀ c ∈ recordedOn budget es s, c.upperEnd? = none) ∧
      (((after budget es).interval s).lower = none ↔
        ∀ c ∈ recordedOn budget es s, c.lowerEnd? = none) := by
  have hrecord : (after budget es).interval s =
      (ofList ((conditions es).take budget)).interval s := by
    rw [after_eq_recorded, recorded_eq]
    rfl
  rw [hrecord] at h ⊢
  obtain ⟨hupper, hlower⟩ := ends_ofList h
  rw [← leastUpper_eq_none_iff, ← greatestLower_eq_none_iff, recordedOn, ← hupper, ← hlower,
    Option.map_eq_none_iff, Option.map_eq_none_iff]
  exact ⟨Iff.rfl, Iff.rfl⟩

/-- **A pinned integer excludes its `!=`**, unless it is the last one and no recorded
condition bounds the symbol from above, or the first one and none bounds it from below. -/
theorem check_neq_iff_of_pins (h : Pins (recordedOn budget es s) v) :
    (after budget es).check ⟨s, .neq, v⟩ = .infeasible ↔
      ¬ (v = Int64.maxValue ∧ ∀ c ∈ recordedOn budget es s, c.upperEnd? = none) ∧
        ¬ (v = Int64.minValue ∧ ∀ c ∈ recordedOn budget es s, c.lowerEnd? = none) := by
  have hsole := contains_iff_of_pins h
  obtain ⟨hupper, hlower⟩ :=
    ends_eq_none_iff (Interval.isEmpty_eq_false_iff.2 ⟨v, (hsole v).2 rfl⟩)
  have hlast : ((after budget es).interval s).upper = none ↔
      v = Int64.maxValue ∧ ∀ c ∈ recordedOn budget es s, c.upperEnd? = none :=
    ⟨fun hu => ⟨Interval.eq_maxValue_of_sole hsole hu, hupper.1 hu⟩, fun hu => hupper.2 hu.2⟩
  have hfirst : ((after budget es).interval s).lower = none ↔
      v = Int64.minValue ∧ ∀ c ∈ recordedOn budget es s, c.lowerEnd? = none :=
    ⟨fun hl => ⟨Interval.eq_minValue_of_sole hsole hl, hlower.1 hl⟩, fun hl => hlower.2 hl.2⟩
  rw [check_eq_infeasible_iff, contradicts_neq_iff rfl, ← hlast, ← hfirst]
  exact Interval.point?_eq_some_iff_of_sole hsole

/-- A run that pins 5 by two bounds, with a blurring between them, an excluded integer, and
a bound that comes too late. -/
def pinningRun : List Entry :=
  [ .condition ⟨⟨0⟩, .ge, 5⟩, .blur [⟨0⟩], .condition ⟨⟨0⟩, .neq, 7⟩, .condition ⟨⟨0⟩, .lt, 6⟩
  , .condition ⟨⟨0⟩, .le, 4⟩ ]

theorem check_neq_pinningRun :
    Pins (recordedOn 3 pinningRun ⟨0⟩) 5 ∧
      (after 3 pinningRun).check ⟨⟨0⟩, .neq, 5⟩ = .infeasible := by
  have hpins : Pins (recordedOn 3 pinningRun ⟨0⟩) 5 := by
    have hlist : recordedOn 3 pinningRun ⟨0⟩ =
        [⟨⟨0⟩, .ge, 5⟩, ⟨⟨0⟩, .neq, 7⟩, ⟨⟨0⟩, .lt, 6⟩] := by decide
    intro w
    simp only [hlist, List.forall_mem_cons, Condition.holds, Comparison.holds, ne_eq,
      reduceCtorEq, not_true_eq_false, not_false_eq_true, true_implies, false_implies,
      decide_eq_true_eq, List.not_mem_nil, implies_true, and_true, true_and]
    grind
  exact ⟨hpins, (check_neq_iff_of_pins hpins).2 ⟨by decide, by decide⟩⟩

/-- A run that leaves one symbol the last integer only, and another one the first. -/
def brinkRun : List Entry :=
  [.condition ⟨⟨0⟩, .ge, Int64.maxValue⟩, .condition ⟨⟨1⟩, .le, Int64.minValue⟩]

/-- **At the brink a pinned integer does not exclude its `!=`**, for want of an end. -/
theorem check_brinkRun :
    (Pins (recordedOn 64 brinkRun ⟨0⟩) Int64.maxValue ∧
        (after 64 brinkRun).check ⟨⟨0⟩, .neq, Int64.maxValue⟩ = .feasible) ∧
      Pins (recordedOn 64 brinkRun ⟨1⟩) Int64.minValue ∧
        (after 64 brinkRun).check ⟨⟨1⟩, .neq, Int64.minValue⟩ = .feasible := by
  have hlast : recordedOn 64 brinkRun ⟨0⟩ = [⟨⟨0⟩, .ge, Int64.maxValue⟩] := by decide
  have hfirst : recordedOn 64 brinkRun ⟨1⟩ = [⟨⟨1⟩, .le, Int64.minValue⟩] := by decide
  refine ⟨⟨fun w => ?_, by decide⟩, fun w => ?_, by decide⟩
  · simp [hlast, Condition.holds, Comparison.holds]
  · simp [hfirst, Condition.holds, Comparison.holds]

end Constraints

end TaintReplay
