import TaintReplay.Trace.Builder
import Mathlib.Data.List.Induction
/-!
# Numbering — the lines of a path that is built

An event is meant for a line: the one last set, or the first, and one more for each event since
(`intendedLine`). That is a number, and there may be no such line. This file shows when a path
is built, and that every event of it is then on the line it is meant for
(`PathBuilder.build?_eq_some_iff`). It takes more than a line for each event. The builder moves
on after every event, the last one not excepted, so that an event on the last line there is
makes the count overflow (`PathBuilder.build?_brinkActions`).
-/

namespace TaintReplay

namespace PathBuilder

variable {id : UInt32} {function : String} {b : PathBuilder} {a : Action} {as bs : List Action}
variable {e : Event} {n : Nat}

/-! ## Intended lines -/

namespace Action

/-- The event an action appends, if it appends one. -/
def event? : Action → Option Event
  | atLine _ => none
  | call callee args ret => some (.call ⟨some callee, args, ret⟩)
  | indirectCall args ret => some (.call ⟨none, args, ret⟩)
  | load location => some (.access ⟨location, true⟩)
  | store location => some (.access ⟨location, false⟩)
  | branch condition taken => some (.branch condition taken)
  | event e => some e

/-- The line an action sets, if it sets one. -/
def line? : Action → Option UInt32
  | atLine line => some line
  | _ => none

/-- Every action but one that sets a line appends an event. -/
theorem exists_event (h : a.line? = none) : ∃ e, a.event? = some e := by
  cases a <;> simp_all [line?, event?]

/-- And no action does both. -/
theorem line?_of_event (h : a.event? = some e) : a.line? = none := by
  cases a <;> simp_all [line?, event?]

theorem eq_atLine {line : UInt32} (h : a.line? = some line) : a = .atLine line := by
  cases a <;> simp_all [line?]

end Action

/-- **The line that the event after some actions is meant for**: the line last set, line 1 if
none was, and one more for each event that was appended since. -/
def intendedLine (before : List Action) : Nat :=
  ((before.reverse.findSome? Action.line?).getD 1).toNat +
    (before.reverse.takeWhile (·.line?.isNone)).length

theorem intendedLine_concat_atLine (line : UInt32) :
    intendedLine (as ++ [.atLine line]) = line.toNat := by
  simp [intendedLine, Action.line?, List.findSome?_cons]

theorem intendedLine_concat_event (h : a.line? = none) :
    intendedLine (as ++ [a]) = intendedLine as + 1 := by
  simp [intendedLine, h, Nat.add_assoc]

/-- The events that further actions append, each with the line it is meant for. -/
def entriesAfter (before : List Action) : List Action → List (Nat × Event)
  | [] => []
  | a :: as => (a.event?.map (intendedLine before, ·)).toList ++ entriesAfter (before ++ [a]) as

/-- **The events that actions append, each with the line it is meant for.** -/
def entries (as : List Action) : List (Nat × Event) := entriesAfter [] as

theorem entriesAfter_append (before : List Action) :
    entriesAfter before (as ++ bs) = entriesAfter before as ++ entriesAfter (before ++ as) bs := by
  induction as generalizing before with
  | nil => simp [entriesAfter]
  | cons a as ih => simp [entriesAfter, ih]

theorem entries_concat :
    entries (as ++ [a]) = entries as ++ (a.event?.map (intendedLine as, ·)).toList := by
  simp [entries, entriesAfter_append, entriesAfter]

/-! ## One action -/

theorem perform?_of_line {line : UInt32} (h : a.line? = some line) :
    b.perform? a = some (b.atLine line) := by
  rw [Action.eq_atLine h, perform?]

theorem perform?_of_event (h : a.event? = some e) : b.perform? a = b.append? e := by
  cases a <;> cases h <;> rfl

/-- The last line there is. -/
def lastLine : Nat := 4294967295

/-- **The lines run out behind the last one**, and not before. -/
theorem nextLine?_ofNat (h : n ≤ lastLine) :
    nextLine? (.ofNat n) = if n < lastLine then some (.ofNat (n + 1)) else none := by
  have hsize : UInt32.size = lastLine + 1 := rfl
  have htoNat : (UInt32.ofNat n).toNat = n := UInt32.toNat_ofNat_of_lt' (by omega)
  rw [nextLine?, htoNat, hsize, UInt32.ofNat_add]
  simp

/-! ## Many of them -/

/-- **Every event has a line behind its own**: none is meant for the last line, or for none. -/
def Fits (as : List Action) : Prop := ∀ x ∈ entries as, x.1 < lastLine

theorem fits_concat_iff : Fits (as ++ [a]) ↔ Fits as ∧
    ∀ e, a.event? = some e → intendedLine as < lastLine := by
  simp only [Fits, entries_concat, List.mem_append]
  cases a.event? <;> simp [or_imp, forall_and]

/-- Then there is a line for the next event, too. -/
theorem Fits.intendedLine_le (h : Fits as) : intendedLine as ≤ lastLine := by
  obtain rfl | ⟨as, a, rfl⟩ := List.eq_nil_or_concat as
  · decide
  · rw [List.concat_eq_append] at h ⊢
    obtain ⟨-, hlast⟩ := fits_concat_iff.1 h
    cases ha : a.line? with
    | some line =>
      rw [Action.eq_atLine ha, intendedLine_concat_atLine]
      exact Nat.le_of_lt_succ line.toNat_lt
    | none =>
      obtain ⟨e, he⟩ := Action.exists_event ha
      rw [intendedLine_concat_event ha]
      exact hlast e he

/-- The steps at which events are on the lines they are meant for. -/
def stepsAt (function : String) (xs : List (Nat × Event)) : List Step :=
  xs.map fun (n, e) => ⟨⟨function, .ofNat n, 1⟩, e⟩

/-- A builder that has done some actions, all events being where they were meant to be. -/
def settled (id : UInt32) (function : String) (as : List Action) : PathBuilder where
  path := ⟨id, stepsAt function (entries as)⟩
  function := function
  line := .ofNat (intendedLine as)

/-- **An event is appended on the line it is meant for**, and the next one is meant for the line
the builder moves to. -/
theorem append?_settled (he : a.event? = some e) (h : Fits as) :
    (settled id function as).append? e =
      if intendedLine as < lastLine then some (settled id function (as ++ [a])) else none := by
  simp only [append?, settled, nextLine?_ofNat h.intendedLine_le, entries_concat, he,
    intendedLine_concat_event (Action.line?_of_event he)]
  split <;> simp [stepsAt]

/-- **An action is done as intended** as long as its event, if any, has a line behind its own. -/
theorem perform?_settled (h : Fits (as ++ [a])) :
    (settled id function as).perform? a = some (settled id function (as ++ [a])) := by
  obtain ⟨hbefore, hlast⟩ := fits_concat_iff.1 h
  cases ha : a.line? with
  | some line =>
    rw [perform?_of_line ha, Action.eq_atLine ha]
    simp [settled, atLine, entries_concat, intendedLine_concat_atLine, Action.event?]
  | none =>
    obtain ⟨e, he⟩ := Action.exists_event ha
    rw [perform?_of_event he, append?_settled he hbefore, if_pos (hlast e he)]

/-- And it fails otherwise. -/
theorem perform?_settled_of_not_fits (hbefore : Fits as) (h : ¬ Fits (as ++ [a])) :
    (settled id function as).perform? a = none := by
  simp only [fits_concat_iff, hbefore, true_and, not_forall] at h
  obtain ⟨e, he, hlast⟩ := h
  rw [perform?_of_event he, append?_settled he hbefore, if_neg hlast]

/-- **A run of actions is done as intended, if every event has a line behind its own.** -/
theorem foldlM_perform?_of_fits (h : Fits as) :
    as.foldlM perform? (start id function) = some (settled id function as) := by
  -- at the end of the run: the line an event is meant for is told by the actions before it
  induction as using List.reverseRecOn with
  | nil => rfl
  | append_singleton as a ih =>
    rw [List.foldlM_append, ih (fits_concat_iff.1 h).1]
    simp [perform?_settled h]

/-- If not, it fails. -/
theorem foldlM_perform?_of_not_fits (h : ¬ Fits as) :
    as.foldlM perform? (start id function) = none := by
  induction as using List.reverseRecOn with
  | nil => exact absurd nofun h
  | append_singleton as a ih =>
    rw [List.foldlM_append]
    -- either the last action is the one that fails, or one before it has failed
    by_cases hbefore : Fits as
    · rw [foldlM_perform?_of_fits hbefore]
      simp [perform?_settled_of_not_fits hbefore h]
    · rw [ih hbefore]
      rfl

/-- **A path is built exactly if no event is meant for the last line or one beyond it**, and its
steps are then the events in order, each on the line it is meant for, in column 1 of the
function. -/
theorem build?_eq_some_iff (id : UInt32) (function : String) (as : List Action) (p : Path) :
    build? id function as = some p ↔
      (∀ x ∈ entries as, x.1 < 4294967295) ∧
        p = ⟨id, (entries as).map fun (n, e) => ⟨⟨function, .ofNat n, 1⟩, e⟩⟩ := by
  change _ ↔ Fits as ∧ p = ⟨id, stepsAt function (entries as)⟩
  by_cases h : Fits as
  · rw [build?, foldlM_perform?_of_fits h]
    simp [h, settled, eq_comm]
  · rw [build?, foldlM_perform?_of_not_fits h]
    simp [h]

/-- The line set is the last, and a load goes there. -/
def brinkActions : List Action := [.atLine 4294967295, .load .unknown]

/-- **The last line cannot be used.** An event that is meant for it has a line, but the count of
lines overflows behind it. -/
theorem build?_brinkActions :
    (∀ x ∈ entries brinkActions, x.1 ≤ 4294967295) ∧ build? 0 "f" brinkActions = none := by
  decide

end PathBuilder

end TaintReplay
