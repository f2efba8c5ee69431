import TaintReplay.Proofs.Checker
import TaintReplay.Proofs.Threshold
/-!
# Sites — sources, sinks, and the alarms between them

What the checker looks at and what it marks, in the words of a configuration:
an event is a sink of a symbol, or a source of it. Then the updates of a
prefix are read as facts on its steps: the branches assumed, the symbols that
sources returned, the number of conditions made. An alarm is about a symbol
that is tainted and the operand of a sink (`Event.alarm?_eq_some_iff`); no
other operand raises one.
-/

namespace TaintReplay

variable {ch? : Option NetworkTaint} {steps : List Step} {k : Nat}
variable {s : Symbol} {e : Event} {t : Term} {taken : Bool}

/-! ## Sources and sinks -/

namespace NetworkTaintConfig

/-- **The event is a sink of the symbol**: a call to a copy function with the
symbol as its size, or an access to an element with the symbol as its
index. -/
inductive SinkOf (cfg : NetworkTaintConfig) (s : Symbol) : Event → Prop
  | copy {call : Call} {callee : String} (hcallee : call.callee = some callee)
      (hname : callee ∈ cfg.copySinks) (hsize : call.arg 2 = .number (.symbol s)) :
      SinkOf cfg s (.call call)
  | index {a : Access} {base : Region}
      (hindex : a.location = .pointer (.element base (.number (.symbol s)))) :
      SinkOf cfg s (.access a)

/-- **The event is a source of the symbol**: a call to a taint source that
returns it, or a pointer to the memory behind it. -/
inductive SourceOf (cfg : NetworkTaintConfig) (s : Symbol) : Event → Prop
  | call {call : Call} {callee : String} (hcallee : call.callee = some callee)
      (hname : callee ∈ cfg.sources)
      (hret : call.ret = .number (.symbol s) ∨ call.ret = .pointer (.symbolic s)) :
      SourceOf cfg s (.call call)

variable {cfg : NetworkTaintConfig}

theorem isCopySink_iff {callee : String} :
    cfg.checker.isCopySink callee = true ↔ callee ∈ cfg.copySinks := by
  rw [NetworkTaint.isCopySink, checker, Std.ExtTreeSet.contains_ofList, List.contains_iff_mem]

theorem isSource_iff {callee : String} :
    cfg.checker.isSource callee = true ↔ callee ∈ cfg.sources := by
  rw [NetworkTaint.isSource, checker, Std.ExtTreeSet.contains_ofList, List.contains_iff_mem]

/-- A location whose index is a symbol. -/
theorem index?_eq_some_iff {location : Value} :
    location.region?.bind Region.index? = some (.number (.symbol s)) ↔
      ∃ base, location = .pointer (.element base (.number (.symbol s))) := by
  cases location with
  | pointer r => cases r <;> simp [Value.region?, Region.index?]
  | _ => simp [Value.region?]

/-- **What the checker looks at.** -/
theorem use?_eq_some_iff :
    (∃ sink, cfg.checker.use? e = some (sink, .number (.symbol s))) ↔ cfg.SinkOf s e := by
  constructor
  · rintro ⟨sink, h⟩
    cases e with
    | call call =>
      simp only [NetworkTaint.use?] at h
      split at h
      · rename_i callee hcallee
        split at h
        · rename_i hname
          simp only [Option.some.injEq, Prod.mk.injEq] at h
          exact .copy hcallee (isCopySink_iff.1 hname) h.2
        · cases h
      · cases h
    | access a =>
      simp only [NetworkTaint.use?, Option.map_eq_some_iff, Prod.mk.injEq] at h
      obtain ⟨index, hindex, -, rfl⟩ := h
      obtain ⟨base, hbase⟩ := index?_eq_some_iff.1 hindex
      exact .index hbase
    | branch t taken => cases h
  · rintro (⟨hcallee, hname, hsize⟩ | ⟨hindex⟩)
    · refine ⟨.copySize, ?_⟩
      simp only [NetworkTaint.use?, hcallee, if_pos (isCopySink_iff.2 hname)]
      rw [NetworkTaint.copySizeArg, hsize]
    · exact ⟨.arrayIndex, by simp [NetworkTaint.use?, hindex, Value.region?, Region.index?]⟩

/-- **What the checker marks.** -/
theorem mark?_eq_some_iff {call : Call} :
    cfg.checker.mark? call = some s ↔ cfg.SourceOf s (.call call) := by
  constructor
  · intro h
    rw [NetworkTaint.mark?] at h
    split at h
    · rename_i callee r hcallee hret
      split at h
      · rename_i hname
        cases h
        exact .call hcallee (isSource_iff.1 hname) (Value.symbol?_eq_some_iff.1 hret)
      · cases h
    · cases h
  · rintro ⟨hcallee, hname, hret⟩
    rw [← Value.symbol?_eq_some_iff] at hret
    simp only [NetworkTaint.mark?, hcallee, hret, if_pos (isSource_iff.2 hname)]

/-- So whether an event is a source can be found out. -/
instance (cfg : NetworkTaintConfig) (s : Symbol) : (e : Event) → Decidable (cfg.SourceOf s e)
  | .call _ => decidable_of_iff _ mark?_eq_some_iff
  | .access _ => .isFalse nofun
  | .branch .. => .isFalse nofun

end NetworkTaintConfig

/-! ## The updates of a prefix -/

namespace Event

/-- The term, of an event that is a branch. -/
def term? : Event → Option Term
  | .branch t _ => some t
  | _ => none

end Event

/-- Whether the step is a branch. -/
def Step.isBranch (x : Step) : Bool := x.event.term?.isSome

/-- Whether the step is a branch that tests a symbol against a constant. -/
def Step.isTest (x : Step) : Bool := (x.event.term?.bind Term.subject?).isSome

theorem Step.isBranch_of_isTest {x : Step} (h : x.isTest = true) : x.isBranch = true := by
  rw [isTest] at h
  rw [isBranch]
  cases hterm : x.event.term? with
  | none =>
    rw [hterm] at h
    cases h
  | some t => rfl

/-- The branches assumed are those of the steps. -/
theorem assume_mem_updates :
    .assume t taken ∈ updates ch? steps ↔ ∃ y ∈ steps, y.event = .branch t taken := by
  rw [updates, List.mem_filterMap]
  refine exists_congr fun y => and_congr_right fun _ => ?_
  cases y.event with
  | call call => cases ch? <;> simp [Event.update?]
  | _ => simp [Event.update?]

/-- The symbols tainted are those that sources return. -/
theorem taint_mem_updates {cfg : NetworkTaintConfig} :
    .taint s ∈ updates (some cfg.checker) steps ↔ ∃ y ∈ steps, cfg.SourceOf s y.event := by
  rw [updates, List.mem_filterMap]
  refine exists_congr fun y => and_congr_right fun _ => ?_
  cases y.event with
  | call call => simp [Event.update?, NetworkTaintConfig.mark?_eq_some_iff]
  | access a => exact iff_of_false (by simp [Event.update?]) (fun h => by cases h)
  | branch t taken => exact iff_of_false (by simp [Event.update?]) (fun h => by cases h)

/-- A branch makes a condition if it is a test. -/
theorem isSome_condition? : (Update.assume t taken).condition?.isSome = t.subject?.isSome := by
  rw [Bool.eq_iff_iff, Option.isSome_iff_exists, Option.isSome_iff_exists]
  simp only [Term.subject?_eq_some_iff taken, Update.condition?_assume_eq_some_iff]
  constructor
  · rintro ⟨c, hc⟩
    exact ⟨c.symbol, c, hc, rfl⟩
  · rintro ⟨-, c, hc, -⟩
    exact ⟨c, hc⟩

/-- **The conditions made are as many as the tests.** -/
theorem length_conditionsOf_updates (ch? : Option NetworkTaint) (steps : List Step) :
    (conditionsOf (updates ch? steps)).length = steps.countP Step.isTest := by
  rw [conditionsOf, updates, List.filterMap_filterMap, List.length_filterMap_eq_countP]
  refine List.countP_congr fun y _ => ?_
  rw [Step.isTest]
  -- a call makes a taint at most, and that makes no condition
  cases y.event with
  | call call => cases ch? <;> simp [Event.update?, Event.term?, Update.condition?, Update.entry?]
  | access a => simp [Event.update?, Event.term?]
  | branch t taken => simp [Event.update?, Event.term?, isSome_condition?]

/-- The updates of a prefix that ends in front of a branch. -/
theorem updates_take_split (ch? : Option NetworkTaint) {i : Nat} {y : Step} (hik : i < k)
    (hy : steps[i]? = some y) (hbranch : y.event = .branch t taken) :
    ∃ post, updates ch? (steps.take k) =
      updates ch? (steps.take i) ++ .assume t taken :: post := by
  have hsplit : steps.take k = steps.take i ++ y :: (steps.take k).drop (i + 1) := by
    conv_lhs => rw [← List.take_append_drop i (steps.take k)]
    rw [List.take_take, Nat.min_eq_left (Nat.le_of_lt hik), List.drop_eq_getElem?_toList_append,
      List.getElem?_take_of_lt hik, hy]
    rfl
  refine ⟨updates ch? ((steps.take k).drop (i + 1)), ?_⟩
  conv_lhs => rw [hsplit]
  simp [updates, hbranch, Event.update?]

/-! ## Alarms -/

/-- **An alarm is about a tainted symbol** that is the operand of a sink and
may certainly exceed the threshold. -/
theorem Event.alarm?_eq_some_iff {st : PathState} {sink : Sink} :
    e.alarm? ch? st = some sink ↔ ∃ ch s, ch? = some ch ∧
      ch.use? e = some (sink, .number (.symbol s)) ∧ st.tainted.contains s = true ∧
        st.exceeds ch.threshold (.number (.symbol s)) = true := by
  constructor
  · intro h
    obtain ⟨ch, rfl, halarm⟩ := Option.bind_eq_some_iff.1 h
    rw [NetworkTaint.alarm?] at halarm
    split at halarm
    · rename_i sink' operand huse
      split at halarm
      · rename_i hobjects
        cases halarm
        obtain ⟨htaint, hexceeds⟩ := Bool.and_eq_true_iff.1 hobjects
        obtain ⟨s, rfl, hs⟩ := PathState.symbol_of_exceeds htaint hexceeds
        exact ⟨ch, s, rfl, huse, hs, hexceeds⟩
      · cases halarm
    · cases halarm
  · rintro ⟨ch, s, rfl, huse, hs, hexceeds⟩
    have hobjects : ch.objects st (.number (.symbol s)) = true := by
      rw [NetworkTaint.objects, PathState.isTainted_symbol, hs, hexceeds, Bool.and_self]
    rw [alarm?, Option.bind_some, NetworkTaint.alarm?, huse]
    exact if_pos hobjects

end TaintReplay
