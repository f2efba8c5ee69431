import TaintReplay.State.Threshold
import TaintReplay.Proofs.Path
/-!
# Thresholds — what the answer of a query is worth

`PathState.exceeds` asks whether an operand may exceed a threshold. Only a
symbol can be answered yes (`symbol_of_exceeds`), and it is exactly if the path
can be run, the symbol is not blurred, and the assumption that it exceeds the
threshold is not contradicted (`exceeds_symbol_iff`). This file compares that
answer with what the branches leave: an answer of yes is justified if some
integer above the threshold passes every branch that mentions the symbol
(`Attainable`).

The record does not decide this. It looks at the excluded integers only when
the range above the threshold has come down to one integer with an end on
either side, so that the answer stays yes where several integers are left and
each of them is excluded (`Masked`). `exceeds_iff` says that there is no other
way to answer yes.
-/

namespace TaintReplay

namespace Value

/-- **The integer of a width is the integer.** -/
theorem toInt_of_ofWord {n : UInt64} {width : UInt32} {t : Term}
    (h : ofWord n width = .number t) : ∃ T : Int64, t = .int T ∧ T.toInt = n.toNat := by
  unfold ofWord at h
  split at h
  · cases h
  · split at h
    · cases h
    · split at h
      · rename_i T hsigned
        cases h
        exact ⟨T, rfl, (Word.signed?_eq_some_iff.1 hsigned).2⟩
      · cases h

theorem toInt_of_ofWord_int {n : UInt64} {width : UInt32} {T : Int64}
    (h : ofWord n width = .number (.int T)) : T.toInt = n.toNat := by
  obtain ⟨T', heq, hT⟩ := toInt_of_ofWord h
  cases heq
  exact hT

end Value

namespace Constraints

variable {s : Symbol}

/-- A lower bound sets the lower end. -/
theorem lower_inter_of_gt {i j : Interval} {T : Int64}
    (h : Interval.ofCondition? ⟨s, .gt, T⟩ = some i) : (j.inter i).lower ≠ none := by
  simp only [Interval.ofCondition?, Option.some.injEq] at h
  obtain ⟨l, u⟩ := j
  split at h <;> subst h <;> cases l <;>
    simp [Interval.inter, Interval.meetEnd, Interval.empty, Interval.between, Interval.atLeast]

/-- And leaves the upper end alone, unless nothing lies above it. -/
theorem upper_inter_of_gt {i j : Interval} {T v : Int64}
    (h : Interval.ofCondition? ⟨s, .gt, T⟩ = some i) (hv : i.contains v = true) :
    (j.inter i).upper = none ↔ j.upper = none := by
  simp only [Interval.ofCondition?, Option.some.injEq] at h
  obtain ⟨l, u⟩ := j
  split at h <;> subst h
  · simp at hv
  · cases u <;> simp [Interval.inter, Interval.meetEnd, Interval.atLeast]

end Constraints

/-- Whether a test closes its symbol from above. -/
def Comparison.closesAbove : Comparison → Bool
  | eq | lt | le => true
  | neq | gt | ge => false

/-- **The upper end of a symbol is open** until a condition closes it from
above. The condition that nothing lies above the last integer closes it too,
but leaves no integer at all. -/
theorem Constraints.upper_record {k : Constraints} {c : Condition} {s : Symbol} :
    ((k.record c).interval s).upper = none ↔ (k.interval s).upper = none ∧
      (c.symbol = s → c.op.closesAbove = false ∧ ¬ (c.op = .gt ∧ c.bound = Int64.maxValue)) := by
  obtain ⟨r, op, b⟩ := c
  cases h : Interval.ofCondition? ⟨r, op, b⟩ with
  | none =>
    obtain rfl : op = .neq := Interval.ofCondition?_eq_none_iff.1 h
    simp [interval_record_of_none h, Comparison.closesAbove]
  | some i =>
    rw [interval_record_of_some h]
    have hmeet : ∀ a : Interval, (a.inter i).upper = none ↔ a.upper = none ∧ i.upper = none := by
      rintro ⟨l, u⟩
      cases u <;> cases hi : i.upper <;> simp [Interval.inter, Interval.meetEnd, hi]
    have hupper : i.upper = none ↔
        op.closesAbove = false ∧ ¬ (op = .gt ∧ b = Int64.maxValue) := by
      cases op <;> simp only [Interval.ofCondition?, Option.some.injEq, reduceCtorEq] at h <;>
        subst h
      case gt =>
        split <;> simp_all [Interval.empty, Interval.between, Interval.atLeast,
          Comparison.closesAbove]
      case lt =>
        split <;> simp [Interval.empty, Interval.between, Interval.atMost, Comparison.closesAbove]
      all_goals
        simp [Interval.between, Interval.atMost, Interval.atLeast, Comparison.closesAbove]
    by_cases hs : r = s
    · subst hs
      rw [if_pos rfl, hmeet, hupper]
      simp
    · rw [if_neg hs]
      simp [hs]

namespace PathState

variable {st : PathState} {θ : Threshold} {v : Value} {s : Symbol} {T : Int64}
variable {budget : Nat} {us : List Update}

/-! ## Which operands are answered yes -/

/-- **Of the tainted values only a symbol can exceed a threshold.** A constant
is not tainted, and a comparison is no operand of another. -/
theorem symbol_of_exceeds (ht : st.isTainted v = true) (h : st.exceeds θ v = true) :
    ∃ s, v = .number (.symbol s) ∧ st.tainted.contains s = true := by
  unfold exceeds at h
  split at h
  · rename_i operand limit hv hl
    cases v <;> cases hv
    cases operand with
    | int n => simp [isTainted, Value.symbols, Term.symbols] at ht
    | symbol s => exact ⟨s, rfl, by simpa [isTainted, Value.symbols, Term.symbols] using ht⟩
    | compare l op r => simp [Value.compare, Term.isArithmetic, Value.number?] at h
  · cases h

/-- **The query about a symbol**: the threshold is an integer, the path can be
run, and that the symbol exceeds it is found feasible. -/
theorem exceeds_symbol_iff : st.exceeds θ (.number (.symbol s)) = true ↔
    ∃ T, Value.ofWord θ.limit θ.width = .number (.int T) ∧ st.feasibility ≠ .infeasible ∧
      st.constraints.check ⟨s, .gt, T⟩ = .feasible := by
  cases hw : Value.ofWord θ.limit θ.width with
  | number limit =>
    obtain ⟨T, rfl, -⟩ := Value.toInt_of_ofWord hw
    have hquery : st.exceeds θ (.number (.symbol s)) =
        decide ((st.assume (.compare (.symbol s) .gt (.int T)) true).feasibility = .feasible) := by
      simp [exceeds, hw, Value.number?, Value.compare, Term.isArithmetic]
    rw [hquery, decide_eq_true_eq]
    by_cases hlive : st.feasibility = .infeasible
    · simp [assume_of_infeasible hlive, hlive]
    · rw [assume_of_condition hlive (c := ⟨s, .gt, T⟩) rfl]
      simp [assumeCondition, hlive]
  | _ => simp [exceeds, hw, Value.number?]

/-- The query about an integer: the path can be run, and the integer is greater
than the threshold. -/
theorem exceeds_int_iff {n : Int64} : st.exceeds θ (.number (.int n)) = true ↔
    ∃ T, Value.ofWord θ.limit θ.width = .number (.int T) ∧ st.feasibility ≠ .infeasible ∧
      T < n := by
  cases hw : Value.ofWord θ.limit θ.width with
  | number limit =>
    obtain ⟨T, rfl, -⟩ := Value.toInt_of_ofWord hw
    have hquery : st.exceeds θ (.number (.int n)) =
        decide ((st.assume (.int (if T < n then 1 else 0)) true).feasibility = .feasible) := by
      simp [exceeds, hw, Value.number?, Value.compare, Comparison.holds]
    rw [hquery, decide_eq_true_eq]
    -- two constants are compared at once, and the outcome decides the branch
    have hread : (Term.int (if T < n then 1 else 0)).reading true = .decided (decide (T < n)) := by
      by_cases h : T < n <;> simp [Term.reading, h]
    by_cases hlive : st.feasibility = .infeasible
    · simp [assume_of_infeasible hlive, hlive]
    · rw [assume_of_decided hlive hread]
      simp [decided, hlive]
  | _ => simp [exceeds, hw, Value.number?]

/-- **Every answer of yes**: the path can be run, the threshold is an integer, and
the operand is a greater one, or a symbol that is found to exceed it. -/
theorem exceeds_eq_true_iff : st.exceeds θ v = true ↔
    ∃ T, Value.ofWord θ.limit θ.width = .number (.int T) ∧ st.feasibility ≠ .infeasible ∧
      ((∃ n, v = .number (.int n) ∧ T < n) ∨
        ∃ s, v = .number (.symbol s) ∧ st.constraints.check ⟨s, .gt, T⟩ = .feasible) := by
  cases v with
  | number t =>
    cases t with
    | int n => simp [exceeds_int_iff]
    | symbol s => simp [exceeds_symbol_iff]
    | compare l op r =>
      -- a comparison is no operand of another
      refine iff_of_false ?_ (by simp)
      cases hw : Value.ofWord θ.limit θ.width <;>
        simp [exceeds, hw, Value.number?, Value.compare, Term.isArithmetic]
  | _ => simp [exceeds, Value.number?]

/-- The answer depends on the record, and on whether the path can be run. -/
theorem exceeds_congr {st' : PathState} (hk : st.constraints = st'.constraints)
    (hlive : st.feasibility = .infeasible ↔ st'.feasibility = .infeasible) :
    st.exceeds θ v = st'.exceeds θ v := by
  rw [Bool.eq_iff_iff, exceeds_eq_true_iff, exceeds_eq_true_iff, hk, ne_eq, hlive]

/-! ## What the branches leave -/

/-- The integers above `T` that every condition on the symbol but the `!=`
allows. -/
def InRange (us : List Update) (s : Symbol) (T v : Int64) : Prop :=
  T < v ∧ ∀ c ∈ conditionsOf us, c.symbol = s → c.op ≠ .neq → c.holds v = true

/-- **The threshold can be exceeded**: some integer above it passes every
branch that mentions the symbol, whatever the other symbols stand for. -/
def Attainable (us : List Update) (s : Symbol) (limit : Nat) : Prop :=
  ∃ v : Int64, limit < v.toInt ∧ ∀ t taken, .assume t taken ∈ us → s ∈ t.symbols →
    ∀ σ : Valuation, σ s = v → t.isTrue σ = taken

/-- **The integers above the threshold are masked**: there are some in range,
each is excluded by a `!=`, and they are two at least or have no bound from
above. -/
structure Masked (us : List Update) (s : Symbol) (T : Int64) : Prop where
  inhabited : ∃ v, InRange us s T v
  excluded : ∀ v, InRange us s T v → ⟨s, .neq, v⟩ ∈ conditionsOf us
  unpinned : (∀ c ∈ conditionsOf us, c.symbol = s → c.op.closesAbove = false) ∨
    ∃ v w, v ≠ w ∧ InRange us s T v ∧ InRange us s T w

/-- A branch on a symbol that is not blurred is passed by the integers its
condition holds of. -/
theorem attainable_iff (hlive : (after budget us).feasibility ≠ .infeasible)
    (hb : (after budget us).constraints.isBlurred s = false) {limit : Nat}
    (hT : T.toInt = limit) :
    Attainable us s limit ↔ ∃ v, InRange us s T v ∧ ⟨s, .neq, v⟩ ∉ conditionsOf us := by
  constructor
  · rintro ⟨v, hv, hall⟩
    -- every condition on the symbol comes from a branch that mentions it
    have hholds : ∀ c ∈ conditionsOf us, c.symbol = s → c.holds v = true := by
      intro c hc hs
      obtain ⟨t, taken, hu, hr⟩ := mem_conditionsOf_iff.1 hc
      have hmem : s ∈ t.symbols := by simp [Term.symbols_of_condition hr, hs]
      have htrue := hall t taken hu hmem (fun _ => v) rfl
      exact (Term.isTrue_iff_of_condition hr _).1 htrue
    refine ⟨v, ⟨by rw [Int64.lt_iff_toInt_lt]; omega, fun c hc hs _ => hholds c hc hs⟩, ?_⟩
    intro hneq
    have hfalse := hholds _ hneq rfl
    simp [Condition.holds, Comparison.holds] at hfalse
  · rintro ⟨v, ⟨hgt, hrange⟩, hneq⟩
    -- and every branch that mentions the symbol makes a condition on it
    refine ⟨v, by rw [Int64.lt_iff_toInt_lt] at hgt; omega, ?_⟩
    intro t taken hu hmem σ hσ
    obtain ⟨pre, post, hus⟩ := List.append_of_mem hu
    obtain ⟨c, hr, hs, -⟩ := recorded_of_not_blurred hlive hb hus hmem
    have hc : c ∈ conditionsOf us := mem_conditionsOf_iff.2 ⟨t, taken, hu, hr⟩
    rw [Term.isTrue_iff_of_condition hr, hs, hσ]
    by_cases hop : c.op = .neq
    · have hbound : c.bound ≠ v := by
        intro he
        refine hneq ?_
        rw [← hs, ← hop, ← he]
        exact hc
      simpa [Condition.holds, hop, Comparison.holds] using hbound.symm
    · exact hrange c hc hs hop

/-- Where an integer is in range, the upper end is open exactly if no condition
closes it. -/
theorem upper_eq_none_iff (hlive : (after budget us).feasibility ≠ .infeasible)
    (hb : (after budget us).constraints.isBlurred s = false) {w : Int64}
    (hw : InRange us s T w) :
    ((after budget us).constraints.interval s).upper = none ↔
      ∀ c ∈ conditionsOf us, c.symbol = s → c.op.closesAbove = false := by
  have hrec := Constraints.foldl_record_iff
    (P := fun k => (k.interval s).upper = none) (fun _ _ => Constraints.upper_record)
    ((conditionsOf us).take budget) (.withBudget budget)
  rw [constraints_after hlive, Constraints.after_eq_recorded]
  simp only [Constraints.recorded, conditions_entries]
  refine hrec.trans ((and_iff_right rfl).trans ((forall_recorded_iff hlive hb).trans ?_))
  constructor
  · intro h c hc hs
    exact (h c hc hs).1
  · intro h c hc hs
    refine ⟨h c hc hs, ?_⟩
    rintro ⟨hop, hmax⟩
    -- a condition nothing passes would leave nothing in range
    have hholds := hw.2 c hc hs (by simp [hop])
    simp [Condition.holds, hop, hmax, Comparison.holds] at hholds

/-- **What it takes not to contradict the query**: an integer in range that is
not excluded, or integers in range that are masked. -/
theorem contradicts_query_iff (hlive : (after budget us).feasibility ≠ .infeasible)
    (hb : (after budget us).constraints.isBlurred s = false) :
    (after budget us).constraints.contradicts ⟨s, .gt, T⟩ = false ↔
      (∃ v, InRange us s T v ∧ ⟨s, .neq, v⟩ ∉ conditionsOf us) ∨ Masked us s T := by
  obtain ⟨i, hi⟩ : ∃ i, Interval.ofCondition? ⟨s, .gt, T⟩ = some i := ⟨_, rfl⟩
  have hgt : ∀ v, i.contains v = true ↔ T < v := by
    intro v
    rw [Interval.contains_of_ofCondition? hi]
    simp [Condition.holds, Comparison.holds]
  have hin : ∀ v, (((after budget us).constraints.interval s).inter i).contains v = true ↔
      InRange us s T v := by
    intro v
    rw [Interval.contains_inter, Bool.and_eq_true, contains_interval_of_not_blurred hlive hb,
      hgt, and_comm, InRange]
  have hup : ∀ w, InRange us s T w →
      ((((after budget us).constraints.interval s).inter i).upper = none ↔
        ∀ c ∈ conditionsOf us, c.symbol = s → c.op.closesAbove = false) := fun w hw =>
    (Constraints.upper_inter_of_gt hi ((hgt w).2 hw.1)).trans (upper_eq_none_iff hlive hb hw)
  -- the two tests of the query see the ends of the range only
  rw [Constraints.contradicts_eq_false_iff hi]
  simp only [← Bool.not_eq_true ((after budget us).constraints.excludes s _),
    excludes_of_not_blurred hlive hb]
  rw [Interval.spared_or_struck (Constraints.lower_inter_of_gt hi)]
  simp only [hin]
  refine or_congr_right ⟨?_, ?_⟩
  · rintro ⟨⟨w, hw⟩, hall, hopen⟩
    exact ⟨⟨w, hw⟩, hall, hopen.imp_left (hup w hw).1⟩
  · rintro ⟨⟨w, hw⟩, hall, hopen⟩
    exact ⟨⟨w, hw⟩, hall, hopen.imp_left (hup w hw).2⟩

/-- **All that an answer of yes can mean.** The path can be run, the symbol is
not blurred, the threshold is an integer, and the integers above it are
attainable or masked. -/
theorem exceeds_iff (budget : Nat) (us : List Update) (s : Symbol) (θ : Threshold) :
    (after budget us).exceeds θ (.number (.symbol s)) = true ↔
      (after budget us).feasibility ≠ .infeasible ∧
      (after budget us).constraints.isBlurred s = false ∧
      ∃ T, Value.ofWord θ.limit θ.width = .number (.int T) ∧
        (Attainable us s θ.limit.toNat ∨ Masked us s T) := by
  rw [exceeds_symbol_iff]
  simp only [Constraints.check_eq_feasible_iff]
  constructor
  · rintro ⟨T, hw, hlive, hc, hb⟩
    have hT : T.toInt = θ.limit.toNat := Value.toInt_of_ofWord_int hw
    refine ⟨hlive, hb, T, hw, ?_⟩
    rw [attainable_iff hlive hb hT]
    exact (contradicts_query_iff hlive hb).1 hc
  · rintro ⟨hlive, hb, T, hw, hv⟩
    have hT : T.toInt = θ.limit.toNat := Value.toInt_of_ofWord_int hw
    rw [attainable_iff hlive hb hT] at hv
    exact ⟨T, hw, hlive, (contradicts_query_iff hlive hb).2 hv, hb⟩

/-- **When an answer of yes is justified.** The query is wrong about a symbol,
in that it answers yes though no integer above the threshold passes the
branches on it, exactly where the path can be run, the symbol is not blurred,
the threshold is an integer, and the integers above it are masked. -/
theorem justified_iff_not_masked (budget : Nat) (us : List Update) (s : Symbol) (θ : Threshold) :
    ((after budget us).exceeds θ (.number (.symbol s)) = true →
        Attainable us s θ.limit.toNat) ↔
      ¬ ((after budget us).feasibility ≠ .infeasible ∧
        (after budget us).constraints.isBlurred s = false ∧
        ∃ T, Value.ofWord θ.limit θ.width = .number (.int T) ∧ Masked us s T) := by
  rw [exceeds_iff]
  constructor
  · rintro h ⟨hlive, hb, T, hw, hmask⟩
    have hatt := h ⟨hlive, hb, T, hw, Or.inr hmask⟩
    obtain ⟨v, hv, hnot⟩ := (attainable_iff hlive hb (Value.toInt_of_ofWord_int hw)).1 hatt
    exact hnot (hmask.excluded v hv)
  · rintro h ⟨hlive, hb, T, hw, hatt | hmask⟩
    · exact hatt
    · exact absurd ⟨hlive, hb, T, hw, hmask⟩ h

/-- A run that leaves a symbol the integers up to 5002 and excludes the two
above the default threshold. -/
def maskedRun : List Update :=
  [ .assume (.compare (.symbol ⟨0⟩) .le (.int 5002)) true
  , .assume (.compare (.symbol ⟨0⟩) .neq (.int 5001)) true
  , .assume (.compare (.int 5002) .eq (.symbol ⟨0⟩)) false ]

/-- **An answer of yes may be wrong**: nothing is left above 5000 there. -/
theorem exceeds_maskedRun :
    (after 64 maskedRun).exceeds ⟨5000, 32⟩ (.number (.symbol ⟨0⟩)) = true ∧
      ¬ Attainable maskedRun ⟨0⟩ 5000 := by
  refine ⟨by decide, ?_⟩
  rintro ⟨v, hv, hall⟩
  have hgt : (5000 : Int64) < v := Int64.lt_iff_toInt_lt.2 hv
  have hle := hall (.compare (.symbol ⟨0⟩) .le (.int 5002)) true (by simp [maskedRun])
    (by simp [Term.symbols]) (fun _ => v) rfl
  have h1 := hall (.compare (.symbol ⟨0⟩) .neq (.int 5001)) true (by simp [maskedRun])
    (by simp [Term.symbols]) (fun _ => v) rfl
  have h2 := hall (.compare (.int 5002) .eq (.symbol ⟨0⟩)) false (by simp [maskedRun])
    (by simp [Term.symbols]) (fun _ => v) rfl
  simp only [Term.isTrue_compare, Term.eval, Comparison.holds] at hle h1 h2
  grind

end PathState

end TaintReplay
