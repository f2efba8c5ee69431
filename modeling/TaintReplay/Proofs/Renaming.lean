import TaintReplay.Proofs.Comparison
import TaintReplay.Proofs.Detection
import Mathlib.Data.List.Basic
/-!
# Renaming — what symbols are called does not matter

The symbols of a path are names: give them others, different ones different names,
and the replay makes the same decisions. Nor does it matter where the steps stand:
points may be moved and even made to coincide, since the first error node ends the
path, and the alarm moves along.

States that differ in the names of the symbols only are said to mirror one another
(`PathState.Mirrors`). Each update keeps that if it is renamed too
(`PathState.Mirrors.update`), so a run of updates does (`PathState.mirrors_after`),
and two such states answer the checker alike (`PathState.Mirrors.alarm?`).
-/

namespace TaintReplay

variable {ρ : Symbol → Symbol} {f : Point → Point}

/-! ## Paths under other names -/

/-- The term under other names. -/
def Term.rename (ρ : Symbol → Symbol) : Term → Term
  | int v => int v
  | symbol s => symbol (ρ s)
  | compare lhs op rhs => compare (lhs.rename ρ) op (rhs.rename ρ)

mutual

/-- The region under other names. -/
def Region.rename (ρ : Symbol → Symbol) : Region → Region
  | .var name => .var name
  | .symbolic s => .symbolic (ρ s)
  | .element base index => .element (base.rename ρ) (index.rename ρ)

/-- The value under other names. -/
def Value.rename (ρ : Symbol → Symbol) : Value → Value
  | .number t => .number (t.rename ρ)
  | .pointer r => .pointer (r.rename ρ)
  | .null => .null
  | .unknown => .unknown
  | .undefined => .undefined

end

/-- The event under other names. -/
def Event.rename (ρ : Symbol → Symbol) : Event → Event
  | .call c => .call { c with args := c.args.map (Value.rename ρ), ret := c.ret.rename ρ }
  | .access a => .access { a with location := a.location.rename ρ }
  | .branch t taken => .branch (t.rename ρ) taken

/-- The step under other names, at another point. -/
def Step.rename (ρ : Symbol → Symbol) (f : Point → Point) (x : Step) : Step :=
  ⟨f x.point, x.event.rename ρ⟩

/-- The path under other names, at other points. -/
def Path.rename (ρ : Symbol → Symbol) (f : Point → Point) (p : Path) : Path :=
  { p with steps := p.steps.map (Step.rename ρ f) }

/-- The alarm at another point. -/
def Alarm.relocate (f : Point → Point) (alarm : Alarm) : Alarm where
  node := { alarm.node with point := f alarm.node.point }
  finding := { alarm.finding with point := f alarm.finding.point }

/-- The outcome with its alarms at other points. -/
def Outcome.relocate (f : Point → Point) (o : Outcome) : Outcome :=
  { o with alarms := o.alarms.map (Alarm.relocate f) }

/-! ## What is read off them -/

theorem Term.symbols_rename (t : Term) : (t.rename ρ).symbols = t.symbols.map ρ := by
  induction t with
  | int v => rfl
  | symbol s => rfl
  | compare lhs op rhs ihl ihr => rw [rename, symbols, symbols, ihl, ihr, List.map_append]

mutual

theorem Region.symbols_rename : ∀ r : Region, (r.rename ρ).symbols = r.symbols.map ρ
  | .var _ => rfl
  | .symbolic _ => rfl
  | .element base index => by
    rw [Region.rename, Region.symbols, Region.symbols, Region.symbols_rename base,
      Value.symbols_rename index, List.map_append]

theorem Value.symbols_rename : ∀ v : Value, (v.rename ρ).symbols = v.symbols.map ρ
  | .number t => by
    rw [Value.rename, Value.symbols, Value.symbols, Term.symbols_rename]
  | .pointer r => by
    rw [Value.rename, Value.symbols, Value.symbols, Region.symbols_rename r]
  | .null => rfl
  | .unknown => rfl
  | .undefined => rfl

end

/-- The symbol a value is, or points through. -/
theorem Value.symbol?_rename (v : Value) : (v.rename ρ).symbol? = v.symbol?.map ρ := by
  cases v with
  | number t => cases t <;> simp [rename, Term.rename, symbol?]
  | pointer r => cases r <;> simp [rename, Region.rename, symbol?]
  | _ => simp [rename, symbol?]

/-- The index of the element a value points to. -/
theorem Value.index?_rename (v : Value) :
    (v.rename ρ).region?.bind Region.index? =
      (v.region?.bind Region.index?).map (Value.rename ρ) := by
  cases v with
  | pointer r => cases r <;> simp [rename, Region.rename, region?, Region.index?]
  | _ => simp [rename, region?]

/-- The condition under other names. -/
def Condition.rename (ρ : Symbol → Symbol) (c : Condition) : Condition :=
  { c with symbol := ρ c.symbol }

/-- It allows the same integers. -/
theorem Condition.ofCondition?_rename (c : Condition) :
    Interval.ofCondition? (c.rename ρ) = Interval.ofCondition? c := rfl

/-- The reading under other names. -/
def Reading.rename (ρ : Symbol → Symbol) : Reading → Reading
  | decided outcome => decided outcome
  | condition c => condition (c.rename ρ)
  | vague => vague

/-- **A branch is read alike.** -/
theorem Term.reading_rename (t : Term) (taken : Bool) :
    (t.rename ρ).reading taken = (t.reading taken).rename ρ := by
  cases t with
  | int v => rfl
  | symbol s => rfl
  | compare lhs op rhs => cases lhs <;> cases rhs <;> rfl

/-- The update under other names. -/
def Update.rename (ρ : Symbol → Symbol) : Update → Update
  | assume t taken => assume (t.rename ρ) taken
  | taint s => taint (ρ s)

/-! ## States under other names -/

namespace Constraints

/-- **A record that mirrors another**: it holds of each symbol, under its new name,
what the other holds of the symbol. -/
structure Mirrors (ρ : Symbol → Symbol) (k' k : Constraints) : Prop where
  interval : ∀ s, k'.interval (ρ s) = k.interval s
  excludes : ∀ s v, k'.excludes (ρ s) v = k.excludes s v
  isBlurred : ∀ s, k'.isBlurred (ρ s) = k.isBlurred s
  count : k'.count = k.count
  budget : k'.budget = k.budget

namespace Mirrors

variable {k k' : Constraints}

theorem contradicts (h : k'.Mirrors ρ k) (c : Condition) :
    k'.contradicts (c.rename ρ) = k.contradicts c := by
  have hexcludes : k'.excludes (ρ c.symbol) = k.excludes c.symbol := funext (h.excludes c.symbol)
  rw [Constraints.contradicts, Constraints.contradicts, c.ofCondition?_rename]
  simp only [Condition.rename, h.interval, hexcludes]

/-- **The verdicts are the same.** -/
theorem check (h : k'.Mirrors ρ k) (c : Condition) : k'.check (c.rename ρ) = k.check c := by
  rw [Constraints.check, Constraints.check, h.contradicts, Condition.rename, h.isBlurred]

theorem record (h : k'.Mirrors ρ k) (hρ : ρ.Injective) (c : Condition) :
    (k'.record (c.rename ρ)).Mirrors ρ (k.record c) where
  interval s := by
    have hrange := c.ofCondition?_rename (ρ := ρ)
    cases hc : Interval.ofCondition? c with
    | none =>
      rw [interval_record_of_none (hrange.trans hc), interval_record_of_none hc, h.interval]
    | some i =>
      rw [interval_record_of_some (hrange.trans hc), interval_record_of_some hc, h.interval]
      simp only [Condition.rename, hρ.eq_iff]
  excludes s v := by
    have hsame : c.rename ρ = ⟨ρ s, .neq, v⟩ ↔ c = ⟨s, .neq, v⟩ := by
      obtain ⟨r, op, b⟩ := c
      simp only [Condition.rename, Condition.mk.injEq, hρ.eq_iff]
    rw [Bool.eq_iff_iff, ← not_iff_not, Bool.not_eq_true, Bool.not_eq_true, excludes_record,
      excludes_record, h.excludes, ne_eq, hsame]
  isBlurred s := by simpa only [Constraints.isBlurred, blurred_record] using h.isBlurred s
  count := by rw [count_record, count_record, h.count]
  budget := by rw [budget_record, budget_record, h.budget]

theorem blur (h : k'.Mirrors ρ k) (hρ : ρ.Injective) (ss : List Symbol) :
    (k'.blur (ss.map ρ)).Mirrors ρ (k.blur ss) where
  interval := h.interval
  excludes := h.excludes
  isBlurred s := by
    -- no other symbol has come to bear the name of one that is blurred
    rw [Bool.eq_iff_iff, isBlurred_blur, isBlurred_blur, h.isBlurred,
      List.mem_map_of_injective hρ]
  count := h.count
  budget := h.budget

theorem add (h : k'.Mirrors ρ k) (hρ : ρ.Injective) (c : Condition) :
    (k'.add (c.rename ρ)).Mirrors ρ (k.add c) := by
  rcases Nat.lt_or_ge k.count k.budget with hlt | hge
  · rw [add_of_lt hlt, add_of_lt (by rwa [h.count, h.budget])]
    exact h.record hρ c
  · rw [add_of_le hge, add_of_le (by rwa [h.count, h.budget])]
    exact h.blur hρ [c.symbol]

end Mirrors

end Constraints

namespace PathState

/-- **A state that mirrors another**: the same is known in it of each symbol, under
its new name. -/
structure Mirrors (ρ : Symbol → Symbol) (st' st : PathState) : Prop where
  constraints : st'.constraints.Mirrors ρ st.constraints
  tainted : ∀ s, st'.tainted.contains (ρ s) = st.tainted.contains s
  feasibility : st'.feasibility = st.feasibility

variable {st st' : PathState} {θ : Threshold}

theorem mirrors_start (ρ : Symbol → Symbol) (budget : Nat) :
    (start budget).Mirrors ρ (start budget) where
  constraints :=
    { interval := fun s => by simp [start, Constraints.withBudget, Constraints.interval]
      excludes := fun s v => by simp [start, Constraints.withBudget, Constraints.excludes]
      isBlurred := fun s => by simp [start, Constraints.withBudget, Constraints.isBlurred]
      count := rfl
      budget := rfl }
  tainted s := by simp [start]
  feasibility := rfl

namespace Mirrors

theorem assume (h : st'.Mirrors ρ st) (hρ : ρ.Injective) (t : Term) (taken : Bool) :
    (st'.assume (t.rename ρ) taken).Mirrors ρ (st.assume t taken) := by
  by_cases hlive : st.feasibility = .infeasible
  · rw [assume_of_infeasible hlive, assume_of_infeasible (h.feasibility.trans hlive)]
    exact h
  · have hlive' : st'.feasibility ≠ .infeasible := by rwa [h.feasibility]
    have hreading := t.reading_rename (ρ := ρ) taken
    cases hr : t.reading taken with
    | decided outcome =>
      rw [hr] at hreading
      rw [assume_of_decided hlive hr, assume_of_decided hlive' hreading]
      exact ⟨h.constraints, h.tainted, rfl⟩
    | condition c =>
      rw [hr] at hreading
      rw [assume_of_condition hlive hr, assume_of_condition hlive' hreading]
      exact ⟨h.constraints.add hρ c, h.tainted, h.constraints.check c⟩
    | vague =>
      rw [hr] at hreading
      rw [assume_of_vague hlive hr, assume_of_vague hlive' hreading, Term.symbols_rename]
      exact ⟨h.constraints.blur hρ t.symbols, h.tainted, rfl⟩

theorem taint (h : st'.Mirrors ρ st) (hρ : ρ.Injective) (s : Symbol) :
    (st'.taint (ρ s)).Mirrors ρ (st.taint s) where
  constraints := h.constraints
  tainted r := by
    rw [Bool.eq_iff_iff]
    simp only [PathState.taint, Std.ExtTreeSet.contains_insert, h.tainted, Bool.or_eq_true,
      beq_iff_eq, Std.LawfulEqCmp.compare_eq_iff_eq, hρ.eq_iff]
  feasibility := h.feasibility

/-- **An update keeps the likeness**, under the new names. -/
theorem update (h : st'.Mirrors ρ st) (hρ : ρ.Injective) (u : Update) :
    (st'.update (u.rename ρ)).Mirrors ρ (st.update u) := by
  cases u with
  | assume t taken => exact h.assume hρ t taken
  | taint s => exact h.taint hρ s

theorem isTainted (h : st'.Mirrors ρ st) (v : Value) :
    st'.isTainted (v.rename ρ) = st.isTainted v := by
  rw [PathState.isTainted, PathState.isTainted, Value.symbols_rename, List.any_map]
  congr 1
  exact funext h.tainted

/-- **The query is answered alike.** -/
theorem exceeds (h : st'.Mirrors ρ st) (v : Value) :
    st'.exceeds θ (v.rename ρ) = st.exceeds θ v := by
  rw [Bool.eq_iff_iff, exceeds_eq_true_iff, exceeds_eq_true_iff, h.feasibility]
  -- an operand keeps its shape, and only a symbol is looked up
  refine exists_congr fun T => and_congr_right fun _ => and_congr_right fun _ => ?_
  cases v with
  | number t =>
    cases t with
    | int n => simp [Value.rename, Term.rename]
    | symbol s =>
      have hcheck := h.constraints.check ⟨s, .gt, T⟩
      rw [Condition.rename] at hcheck
      simp [Value.rename, Term.rename, hcheck]
    | compare lhs op rhs => simp [Value.rename, Term.rename]
  | _ => simp [Value.rename]

end Mirrors

/-- **So does a run of updates**, from the start of a path. -/
theorem mirrors_after (hρ : ρ.Injective) (budget : Nat) (us : List Update) :
    (after budget (us.map (Update.rename ρ))).Mirrors ρ (after budget us) := by
  induction us using List.reverseRecOn with
  | nil => exact mirrors_start ρ budget
  | append_singleton us u ih =>
    rw [List.map_append, List.map_singleton, after_concat, after_concat]
    exact ih.update hρ u

end PathState

/-! ## The checker -/

namespace NetworkTaint

variable {ch : NetworkTaint}

theorem use?_rename (e : Event) :
    ch.use? (e.rename ρ) = (ch.use? e).map (Prod.map id (Value.rename ρ)) := by
  cases e with
  | call call =>
    -- an argument that was not passed is unknown under any names
    have hsize : (call.args.map (Value.rename ρ)).getD copySizeArg .unknown =
        (call.args.getD copySizeArg .unknown).rename ρ := by
      rw [List.getD_eq_getElem?_getD, List.getD_eq_getElem?_getD, List.getElem?_map]
      exact Option.getD_map (Value.rename ρ) .unknown _
    simp only [Event.rename, use?, Call.arg, hsize]
    cases call.callee with
    | none => rfl
    | some callee =>
      simp only
      split <;> rfl
  | access a =>
    simp only [Event.rename, use?, Value.index?_rename, Option.map_map]
    rfl
  | branch t taken => rfl

/-- **It looks at the same operands, and objects to the same.** -/
theorem alarm?_rename {st st' : PathState} (h : st'.Mirrors ρ st) (e : Event) :
    ch.alarm? st' (e.rename ρ) = ch.alarm? st e := by
  rw [alarm?, alarm?, use?_rename]
  cases ch.use? e with
  | none => rfl
  | some use =>
    obtain ⟨sink, operand⟩ := use
    have hobjects : ch.objects st' (operand.rename ρ) = ch.objects st operand := by
      rw [objects, objects, h.isTainted, h.exceeds]
    simp only [Option.map_some, Prod.map_apply, id_eq]
    rw [hobjects]

end NetworkTaint

theorem PathState.Mirrors.alarm? {st st' : PathState} (h : st'.Mirrors ρ st)
    (ch? : Option NetworkTaint) (e : Event) :
    (e.rename ρ).alarm? ch? st' = e.alarm? ch? st := by
  cases ch? with
  | none => rfl
  | some ch => exact NetworkTaint.alarm?_rename h e

/-- It marks the same results, under their new names. -/
theorem Event.update?_rename (ch? : Option NetworkTaint) (e : Event) :
    (e.rename ρ).update? ch? = (e.update? ch?).map (Update.rename ρ) := by
  cases e with
  | call call =>
    cases ch? with
    | none => rfl
    | some ch =>
      simp only [rename, update?, Option.bind_some, NetworkTaint.mark?, Value.symbol?_rename]
      cases call.callee with
      | none => rfl
      | some callee =>
        cases call.ret.symbol? with
        | none => rfl
        | some s =>
          simp only [Option.map_some]
          split <;> rfl
  | access a => rfl
  | branch t taken => rfl

theorem updates_rename (ch? : Option NetworkTaint) (steps : List Step) :
    updates ch? (steps.map (Step.rename ρ f)) = (updates ch? steps).map (Update.rename ρ) := by
  rw [updates, updates, List.filterMap_map, List.map_filterMap]
  congr 1
  funext x
  exact Event.update?_rename ch? x.event

/-! ## Whole replays -/

variable {ch? : Option NetworkTaint} {steps : List Step} {budget k : Nat}

/-- **Each step is met in a state that mirrors the one it was met in.** -/
theorem mirrors_stateBefore (hρ : ρ.Injective) (f : Point → Point) (ch? : Option NetworkTaint)
    (budget : Nat) (steps : List Step) (i : Nat) :
    (stateBefore ch? budget (steps.map (Step.rename ρ f)) i).Mirrors ρ
      (stateBefore ch? budget steps i) := by
  rw [stateBefore, ← List.map_take, updates_rename]
  exact PathState.mirrors_after hρ budget _

theorem Passed.rename (h : Passed ch? budget steps k) (hρ : ρ.Injective) (f : Point → Point) :
    Passed ch? budget (steps.map (Step.rename ρ f)) k := by
  intro i hi y hy
  rw [List.getElem?_map, Option.map_eq_some_iff] at hy
  obtain ⟨x, hx, rfl⟩ := hy
  obtain ⟨hquiet, hlive⟩ := h i hi x hx
  rw [(mirrors_stateBefore hρ f ch? budget steps (i + 1)).feasibility]
  exact ⟨((mirrors_stateBefore hρ f ch? budget steps i).alarm? ch? x.event).trans hquiet, hlive⟩

/-- **The course of the path under other names.** -/
theorem Course.rename {p : Path} {o : Outcome} (h : Course ch? budget p o) (hρ : ρ.Injective)
    (f : Point → Point) : Course ch? budget (p.rename ρ f) (o.relocate f) := by
  have hmirrors := mirrors_stateBefore hρ f ch? budget p.steps
  have hstep : ∀ {k : Nat} {x : Step}, p.steps[k]? = some x →
      (p.rename ρ f).steps[k]? = some (x.rename ρ f) := by
    intro k x hx
    rw [Path.rename, List.getElem?_map, hx, Option.map_some]
  cases h with
  | completed hpassed =>
    have hlength : p.steps.length = (p.rename ρ f).steps.length := (List.length_map _).symm
    rw [hlength] at hpassed ⊢
    exact .completed (hpassed.rename hρ f)
  | @infeasible k x hx hpassed hquiet hended =>
    refine .infeasible (hstep hx) (hpassed.rename hρ f) ?_ ?_
    · exact ((hmirrors k).alarm? ch? x.event).trans hquiet
    · exact (hmirrors (k + 1)).feasibility.trans hended
  | @errorNode k x sink hx hpassed halarm =>
    refine .errorNode (hstep hx) (hpassed.rename hρ f) ?_
    exact ((hmirrors k).alarm? ch? x.event).trans halarm

namespace Analyzer

variable {config : Config} {a : Analyzer}

/-- **Neither the names of symbols nor the points of steps make a difference.** With
the symbols of a path renamed, different ones differently, and its points moved in
any way, its replay ends alike after as many steps, and its alarms have moved with
the points. -/
theorem replay_rename (h : ofConfig config = .ok a) (hρ : ρ.Injective) (f : Point → Point)
    (p : Path) : a.replay (p.rename ρ f) = (a.replay p).relocate f := by
  obtain ⟨-, -, hserves⟩ := serves_of_ofConfig h
  have hcourse := Registry.course_of_serves hserves a.config.replay.budget p
  exact Registry.replay_eq_of_course hserves (hcourse.rename hρ f)

/-- The symbols in the opposite order. -/
def opposite (s : Symbol) : Symbol := ⟨UInt32.ofNat (UInt32.size - 1) - s.id⟩

theorem opposite_injective : opposite.Injective := by
  rintro ⟨a⟩ ⟨b⟩ h
  simpa [opposite] using h

/-- All steps of a path at one point. -/
theorem replay_rename_threeLengths :
    opposite.Injective ∧
      standard.replay (threeLengths.rename opposite fun _ => .entry) =
        (standard.replay threeLengths).relocate fun _ => .entry :=
  ⟨opposite_injective, replay_rename ofConfig_default opposite_injective _ threeLengths⟩

end Analyzer

end TaintReplay
