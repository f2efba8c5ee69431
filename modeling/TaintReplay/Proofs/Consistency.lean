import TaintReplay.Proofs.Constraints
import Mathlib.Data.List.Perm.Basic
/-!
# Consistent records — conditions that do not contradict one another

A record is consistent if every symbol is left an interval with an integer in
it, and where the interval is one integer only, that one is not excluded. This is
what the verdicts protect: recording a condition keeps a consistent record
consistent exactly if the condition is not contradicted
(`consistent_record_iff`). The record does not tell in which order its conditions
came (`record_comm`), so consistency depends on the conditions alone
(`ofList_perm`); and an inconsistent record is never mended
(`Consistent.of_record`). Together these make the verdicts monotone: what a record
contradicts is contradicted by every consistent record with more conditions in it
(`contradicts_eq_false_of_append`).
-/

namespace TaintReplay

namespace Constraints

variable {k : Constraints} {c : Condition} {s : Symbol} {p : Int64} {cs ds : List Condition}

/-! ## The order of recording -/

/-- Two updates of a map can be exchanged, at one key if the updates of its value
can. -/
theorem insert_getD_comm {β : Type} (f g : β → β) (hfg : ∀ x, g (f x) = f (g x))
    (m : Std.ExtTreeMap Symbol β) (d : β) (a b : Symbol) :
    (m.insert a (f (m.getD a d))).insert b (g ((m.insert a (f (m.getD a d))).getD b d)) =
      (m.insert b (g (m.getD b d))).insert a (f ((m.insert b (g (m.getD b d))).getD a d)) := by
  refine Std.ExtTreeMap.ext_getElem? fun s => ?_
  simp only [Std.ExtTreeMap.getElem?_insert, Std.ExtTreeMap.getD_insert,
    Std.LawfulEqCmp.compare_eq_iff_eq]
  by_cases hab : a = b
  · subst hab
    by_cases ha : a = s <;> simp [ha, hfg]
  · by_cases ha : a = s
    · have hb : b ≠ s := fun hb => hab (ha.trans hb.symm)
      simp [ha, hb]
    · simp [hab, ha]

/-- **Conditions may be recorded in any order.** -/
theorem record_comm (k : Constraints) (c d : Condition) :
    (k.record c).record d = (k.record d).record c := by
  cases hc : Interval.ofCondition? c with
  | none =>
    cases hd : Interval.ofCondition? d with
    | none =>
      -- two excluded integers
      simp only [record, hc, hd, mk.injEq, true_and, and_true]
      refine insert_getD_comm (fun x : Std.ExtTreeSet Int64 => x.insert c.bound)
        (fun x => x.insert d.bound) (fun x => ?_) _ _ _ _
      refine Std.ExtTreeSet.ext_contains fun v => ?_
      simp only [Std.ExtTreeSet.contains_insert]
      exact Bool.or_left_comm _ _ _
    | some j => simp [record, hc, hd, interval]
  | some i =>
    cases hd : Interval.ofCondition? d with
    | none => simp [record, hc, hd, interval]
    | some j =>
      -- two intervals met
      simp only [record, hc, hd, mk.injEq, and_true, interval]
      exact insert_getD_comm (·.inter i) (·.inter j)
        (fun x => Interval.inter_right_comm x i j) _ _ _ _

/-! ## Consistency -/

/-- **No contradiction is in the record**: every symbol is left some integer by its
interval, and one that is left a single integer is not excluded from it. -/
structure Consistent (k : Constraints) : Prop where
  inhabited : ∀ s, (k.interval s).isEmpty = false
  spared : ∀ s p, (k.interval s).point? = some p → k.excludes s p = false

theorem consistent_withBudget (budget : Nat) : (withBudget budget).Consistent where
  inhabited s := by simp [withBudget, interval, Interval.unbounded, Interval.isEmpty]
  spared s p h := by simp [withBudget, excludes]

/-- A range excludes nothing. -/
theorem excludes_record_of_some {i : Interval} (h : Interval.ofCondition? c = some i) :
    (k.record c).excludes s p = k.excludes s p := by
  simp only [record, h, excludes]

/-- **A symbol is spent** when no integer is left to it that the ends of its interval
can tell of: they are crossed, or they meet in an excluded integer. -/
def Spent (k : Constraints) (s : Symbol) : Prop :=
  (k.interval s).isEmpty = true ∨ ∃ p, (k.interval s).point? = some p ∧ k.excludes s p = true

/-- A record is consistent as long as no symbol is spent. -/
theorem consistent_iff_not_spent : k.Consistent ↔ ∀ s, ¬ k.Spent s := by
  constructor
  · rintro h s (hempty | ⟨p, hp, hex⟩)
    · simp [h.inhabited s] at hempty
    · simp [h.spared s p hp] at hex
  · intro h
    refine ⟨fun s => ?_, fun s p hp => ?_⟩
    · exact Bool.eq_false_iff.2 fun hempty => h s (Or.inl hempty)
    · exact Bool.eq_false_iff.2 fun hex => h s (Or.inr ⟨p, hp, hex⟩)

/-- What was left of an interval was there before. -/
theorem isEmpty_record (h : (k.interval s).isEmpty = true) :
    ((k.record c).interval s).isEmpty = true := by
  rw [Interval.isEmpty_iff] at h ⊢
  intro v
  rw [Bool.eq_false_iff]
  intro hv
  exact Bool.eq_false_iff.1 (h v) (contains_interval_record.1 hv).1

/-- Ends that meet stay where they are until they are crossed. -/
theorem point?_record (hp : (k.interval s).point? = some p)
    (hne : ((k.record c).interval s).isEmpty = false) :
    ((k.record c).interval s).point? = some p := by
  cases hc : Interval.ofCondition? c with
  | none => rwa [interval_record_of_none hc]
  | some i =>
    rw [interval_record_of_some hc] at hne ⊢
    split at hne
    · rw [if_pos ‹_›]
      exact Interval.point?_inter hp hne
    · rwa [if_neg ‹_›]

/-- **A spent symbol stays spent**, whatever is recorded. -/
theorem Spent.record (h : k.Spent s) (c : Condition) : (k.record c).Spent s := by
  obtain hempty | ⟨p, hp, hex⟩ := h
  · exact Or.inl (isEmpty_record hempty)
  · by_cases hempty : ((k.record c).interval s).isEmpty = true
    · exact Or.inl hempty
    · -- what is one integer stays that integer, and what is excluded stays so
      refine Or.inr ⟨p, point?_record hp (Bool.eq_false_iff.2 hempty), ?_⟩
      by_contra hspared
      have hbefore := (excludes_record.1 (Bool.eq_false_iff.2 hspared)).1
      simp [hbefore] at hex

/-- **An inconsistent record is never mended.** -/
theorem Consistent.of_record (h : (k.record c).Consistent) : k.Consistent :=
  consistent_iff_not_spent.2 fun s hs => consistent_iff_not_spent.1 h s (hs.record c)

/-- **The verdict on a condition is the consistency of the record with it.** -/
theorem consistent_record_iff :
    (k.record c).Consistent ↔ k.Consistent ∧ k.contradicts c = false := by
  cases hc : Interval.ofCondition? c with
  | none =>
    obtain ⟨cs, op, b⟩ := c
    obtain rfl : op = .neq := Interval.ofCondition?_eq_none_iff.1 hc
    rw [contradicts_neq_eq_false_iff hc]
    constructor
    · intro h
      refine ⟨h.of_record, fun hp => ?_⟩
      have hspared := h.spared cs b (by rwa [interval_record_of_none hc])
      exact (excludes_record.1 hspared).2 rfl
    · rintro ⟨h, hne⟩
      refine ⟨fun s => ?_, fun s p hp => ?_⟩
      · rw [interval_record_of_none hc]
        exact h.inhabited s
      · rw [interval_record_of_none hc] at hp
        refine excludes_record.2 ⟨h.spared s p hp, fun heq => hne ?_⟩
        cases heq
        exact hp
  | some i =>
    rw [contradicts_eq_false_iff hc]
    constructor
    · intro h
      have hin := h.inhabited c.symbol
      have hspared := h.spared c.symbol
      simp only [interval_record_of_some hc, if_true, excludes_record_of_some hc] at hin hspared
      exact ⟨h.of_record, hin, hspared⟩
    · rintro ⟨h, hin, hspared⟩
      constructor
      · intro s
        rw [interval_record_of_some hc]
        split
        · rename_i hs
          rwa [← hs]
        · exact h.inhabited s
      · intro s p hp
        rw [interval_record_of_some hc] at hp
        rw [excludes_record_of_some hc]
        split at hp
        · rename_i hs
          rw [← hs] at hp ⊢
          exact hspared p hp
        · exact h.spared s p hp

/-! ## Records of many conditions -/

/-- The record of conditions, whatever the budget. -/
def ofList (cs : List Condition) : Constraints := cs.foldl record (withBudget 0)

theorem ofList_concat (cs : List Condition) (c : Condition) :
    ofList (cs ++ [c]) = (ofList cs).record c := by
  simp [ofList]

/-- Their order does not matter. -/
theorem ofList_perm (h : cs.Perm ds) : ofList cs = ofList ds :=
  h.foldl_eq' (fun c _ d _ k => record_comm k c d) _

/-- Recording does not look at the budget. -/
theorem foldl_record_budget (cs : List Condition) (k : Constraints) (budget : Nat) :
    cs.foldl record { k with budget } = { cs.foldl record k with budget } := by
  induction cs generalizing k with
  | nil => rfl
  | cons c cs ih =>
    have hstep : ({ k with budget } : Constraints).record c = { k.record c with budget } := by
      unfold record
      split <;> rfl
    rw [List.foldl_cons, List.foldl_cons, hstep, ih]

theorem recorded_eq (budget : Nat) (es : List Entry) :
    recorded budget es = { ofList ((conditions es).take budget) with budget } :=
  foldl_record_budget _ (withBudget 0) budget

/-- The record of fewer conditions is consistent. -/
theorem Consistent.of_append (h : (ofList (cs ++ ds)).Consistent) : (ofList cs).Consistent := by
  induction ds using List.reverseRecOn with
  | nil => simpa using h
  | append_singleton ds d ih =>
    rw [← List.append_assoc, ofList_concat] at h
    exact ih h.of_record

/-- **Verdicts are monotone.** A condition that is in a consistent record, or
could be added to it, is not contradicted by a part of it. -/
theorem contradicts_eq_false_of_append (h : (ofList (cs ++ ds)).Consistent) (hc : c ∈ ds) :
    (ofList cs).contradicts c = false := by
  have hperm : (cs ++ ds).Perm (cs ++ [c] ++ ds.erase c) := by
    rw [List.append_assoc]
    exact (List.perm_cons_erase hc).append_left cs
  rw [ofList_perm hperm] at h
  have hpart := h.of_append
  rw [ofList_concat] at hpart
  exact (consistent_record_iff.1 hpart).2

/-! ## Conditions under a budget -/

/-- **Conditions that come to no contradiction under a budget**: those that are
recorded are consistent, and they contradict none of those that came too late. -/
structure Accepted (budget : Nat) (cs : List Condition) : Prop where
  consistent : (ofList (cs.take budget)).Consistent
  late : ∀ c ∈ cs.drop budget, (ofList (cs.take budget)).contradicts c = false

namespace Accepted

variable {budget : Nat}

theorem nil (budget : Nat) : Accepted budget [] where
  consistent := by
    rw [List.take_nil]
    exact consistent_withBudget 0
  late c h := by simp at h

/-- One condition more is accepted if it is not contradicted, whether there is
budget for it or not. -/
theorem concat_iff : Accepted budget (cs ++ [c]) ↔
    Accepted budget cs ∧ (ofList (cs.take budget)).contradicts c = false := by
  rcases Nat.lt_or_ge cs.length budget with hlt | hge
  · have htake : (cs ++ [c]).take budget = cs.take budget ++ [c] := by
      rw [List.take_of_length_le (by simp; omega), List.take_of_length_le (by omega)]
    have hdrop : (cs ++ [c]).drop budget = [] := List.drop_eq_nil_of_le (by simp; omega)
    have hdrop' : cs.drop budget = [] := List.drop_eq_nil_of_le (by omega)
    constructor
    · intro h
      have hcons := h.consistent
      rw [htake, ofList_concat] at hcons
      obtain ⟨hcs, hc⟩ := consistent_record_iff.1 hcons
      exact ⟨⟨hcs, by simp [hdrop']⟩, hc⟩
    · rintro ⟨h, hc⟩
      refine ⟨?_, by simp [hdrop]⟩
      rw [htake, ofList_concat]
      exact consistent_record_iff.2 ⟨h.consistent, hc⟩
  · have htake : (cs ++ [c]).take budget = cs.take budget := List.take_append_of_le_length hge
    have hdrop : (cs ++ [c]).drop budget = cs.drop budget ++ [c] :=
      List.drop_append_of_le_length hge
    constructor
    · rintro ⟨hcons, hlate⟩
      rw [htake] at hcons hlate
      rw [hdrop] at hlate
      exact ⟨⟨hcons, fun d hd => hlate d (List.mem_append_left _ hd)⟩, hlate c (by simp)⟩
    · rintro ⟨⟨hcons, hlate⟩, hc⟩
      refine ⟨htake ▸ hcons, fun d hd => ?_⟩
      rw [hdrop, List.mem_append, List.mem_singleton] at hd
      rw [htake]
      rcases hd with hd | rfl
      · exact hlate d hd
      · exact hc

/-- Where all conditions are recorded, it comes down to consistency. -/
theorem iff_of_length_le (h : cs.length ≤ budget) :
    Accepted budget cs ↔ (ofList cs).Consistent := by
  constructor
  · intro hacc
    simpa only [List.take_of_length_le h] using hacc.consistent
  · intro hcons
    refine ⟨by rwa [List.take_of_length_le h], fun c hc => ?_⟩
    rw [List.drop_eq_nil_of_le h] at hc
    exact absurd hc List.not_mem_nil

/-- **What is accepted under a greater budget is accepted under a smaller one**:
it is judged by fewer conditions. -/
theorem of_le {budget' : Nat} (h : Accepted budget' cs) (hle : budget ≤ budget') :
    Accepted budget cs := by
  -- what the greater budget records begins with what the smaller one does
  have hsplit : cs.take budget' = cs.take budget ++ (cs.take budget').drop budget := by
    conv_lhs => rw [← List.take_append_drop budget (cs.take budget'), List.take_take,
      Nat.min_eq_left hle]
  have hcons := h.consistent
  rw [hsplit] at hcons
  refine ⟨hcons.of_append, fun c hc => ?_⟩
  rw [← List.take_append_drop budget' cs, List.drop_append, List.mem_append] at hc
  rcases hc with hc | hc
  · exact contradicts_eq_false_of_append hcons hc
  · -- a condition that comes too late even for the greater budget
    have hboth := consistent_record_iff.2 ⟨h.consistent, h.late c (List.mem_of_mem_drop hc)⟩
    rw [← ofList_concat, hsplit, List.append_assoc] at hboth
    exact contradicts_eq_false_of_append hboth (by simp)

end Accepted

end Constraints

end TaintReplay
