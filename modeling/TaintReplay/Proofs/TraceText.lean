import TaintReplay.Proofs.Encoding
import TaintReplay.Proofs.Totals
import TaintReplay.Trace.Document
/-!
# Texts of traces — a trace is read back from its text

A trace, written as JSON, is read back as it was (`decode?_encode`), down to the nesting
limit of the notation. What is read is accepted if its paths can be told apart; otherwise
the first path that has the identifier of an earlier one is named
(`Trace.ofText_toJson`).
-/

namespace TaintReplay

/-! ## Events and steps -/

theorem callee?_orNull (name : Option String) : callee? (.orNull .text name) = some name := by
  cases name <;> rfl

/-- An event is read back from its fields. -/
theorem Event.ofFields?_fields (e : Event) : ofFields? e.fields = some e := by
  cases e with
  | call c =>
    have hargs : (c.args.map Value.encode).mapM (Value.decode? .loose) = some c.args := by
      rw [List.mapM_map]
      exact mapM_eq_pure_self fun v _ => v.decode?_encode
    simp [fields, ofFields?, required, optional, field?, Data.label?, Data.list?,
      callee?_orNull, hargs, c.ret.decode?_encode]
  | access a =>
    simp [fields, ofFields?, required, optional, field?, Data.label?, Data.bool?,
      a.location.decode?_encode]
  | branch condition taken =>
    simp [fields, ofFields?, required, field?, Data.label?, Data.bool?, condition.decode?_encode]

theorem Event.writable_fields (e : Event) : ∀ f ∈ e.fields, f.2.Writable := by
  cases e with
  | call c =>
    have hcallee : (Data.orNull .text c.callee).Writable := by
      cases c.callee with
      | none => rw [Data.orNull, Data.Writable]; trivial
      | some name => exact Data.writable_text name
    have hargs : (Data.list (c.args.map Value.encode)).Writable :=
      Data.writable_list (by simp [Value.writable_encode])
    simp [fields, Data.writable_text, hcallee, hargs, c.ret.writable_encode]
  | access a => simp [fields, Data.writable_text, Data.writable_bool, a.location.writable_encode]
  | branch condition taken =>
    simp [fields, Data.writable_text, Data.writable_bool, condition.writable_encode]

/-- No field of an event has the name of the point beside it. -/
theorem Event.filter_fields (e : Event) : e.fields.filter (·.1 != "point") = e.fields := by
  cases e <;> rfl

/-- **A step is read back**, its point and its event told apart by their names. -/
theorem Step.decode?_encode (s : Step) : decode? Format.json s.encode = some s := by
  have hmap : Format.json.map? s.encode = some (("point", s.point.encode) :: s.event.fields) :=
    Data.map?_record [] _
  have hpoint : required (("point", s.point.encode) :: s.event.fields) "point"
      (Point.decode? Format.json) = some s.point := by
    have hnone : s.event.fields.filter (·.1 == "point") = [] := by cases s.event <;> rfl
    simp [required, field?, hnone, s.point.decode?_encode]
  have hrest : (("point", s.point.encode) :: s.event.fields).filter (·.1 != "point") =
      s.event.fields := s.event.filter_fields
  rw [decode?, hmap, Option.bind_eq_bind, Option.bind_some, hpoint, Option.bind_eq_bind,
    Option.bind_some, hrest, Format.json_mapM_data? s.event.writable_fields]
  simp [s.event.ofFields?_fields]

theorem Step.writable_encode (s : Step) : s.encode.Writable :=
  Data.writable_record (List.forall_mem_cons.2 ⟨s.point.writable_encode, s.event.writable_fields⟩)

/-! ## Paths and traces -/

theorem Path.decode?_encode (p : Path) : decode? Format.json p.encode = some p := by
  have hrecord : Format.json.record? ["id", "steps"] p.encode = _ := Data.record?_record _ _
  have hsteps : Format.json.listOf? (Step.decode? Format.json) (.list (p.steps.map Step.encode)) =
      some p.steps := Format.json_listOf?_map fun s _ => s.decode?_encode
  rw [decode?, hrecord]
  simp [required, optional, field?, Format.json_word32?_toNat, hsteps]

theorem Path.writable_encode (p : Path) : p.encode.Writable := by
  have hsteps : (Data.list (p.steps.map Step.encode)).Writable :=
    Data.writable_list (by simp [Step.writable_encode])
  refine Data.writable_record ?_
  simp [Data.writable_word32, hsteps]

namespace Trace

/-- **A trace is read back from what it is written as.** -/
theorem decode?_encode (t : Trace) : decode? Format.json t.encode = some t := by
  have hrecord : Format.json.record? ["paths"] t.encode = _ := Data.record?_record _ _
  have hpaths : Format.json.listOf? (Path.decode? Format.json) (.list (t.paths.map Path.encode)) =
      some t.paths := Format.json_listOf?_map fun p _ => p.decode?_encode
  rw [decode?, hrecord]
  simp [optional, field?, hpaths]

theorem writable_encode (t : Trace) : t.encode.Writable := by
  have hpaths : (Data.list (t.paths.map Path.encode)).Writable :=
    Data.writable_list (by simp [Path.writable_encode])
  refine Data.writable_record ?_
  simp [hpaths]

/-- What a text says is the trace it was written from, whether or not it is accepted. -/
theorem ofText_toJson_eq_distinct {t : Trace} (h : t.encode.depth ≤ Json.nestingLimit) :
    ofText .json t.toJson = t.distinct := by
  rw [ofText, toJson, Json.read?_text t.writable_encode h, Option.bind_some, t.decode?_encode]

/-- **The first path whose identifier an earlier path has.** -/
def RepeatsAt (t : Trace) (p : Path) : Prop :=
  ∃ before after, t.paths = before ++ p :: after ∧ (before.map Path.id).Nodup ∧
    p.id ∈ before.map Path.id

end Trace

/-- What is found is the first element that is among those before it. -/
theorem exists_of_firstRepeated_eq_some {α : Type} [BEq α] [LawfulBEq α] {seen xs : List α}
    {x : α} (h : firstRepeated seen xs = some x) :
    ∃ before after, xs = before ++ x :: after ∧ before.Nodup ∧ (∀ y ∈ before, y ∉ seen) ∧
      (x ∈ before ∨ x ∈ seen) := by
  induction xs generalizing seen with
  | nil => cases h
  | cons y ys ih =>
    rw [firstRepeated] at h
    split at h
    · rename_i hy
      cases h
      exact ⟨[], ys, rfl, List.nodup_nil, by simp, .inr (List.contains_iff_mem.1 hy)⟩
    · rename_i hy
      have hnew : y ∉ seen := fun hmem => hy (List.contains_iff_mem.2 hmem)
      obtain ⟨before, after, rfl, hnodup, hunseen, hx⟩ := ih h
      have hnot : y ∉ before := fun hmem => hunseen y hmem (List.mem_cons_self ..)
      refine ⟨y :: before, after, rfl, List.nodup_cons.2 ⟨hnot, hnodup⟩, ?_, ?_⟩
      · refine List.forall_mem_cons.2 ⟨hnew, fun z hz hmem => ?_⟩
        exact hunseen z hz (List.mem_cons_of_mem y hmem)
      · rcases hx with hx | hx
        · exact .inl (List.mem_cons_of_mem y hx)
        · rcases List.mem_cons.1 hx with rfl | hx
          · exact .inl (List.mem_cons_self ..)
          · exact .inr hx

namespace Trace

/-- A trace that is refused is refused for that path. -/
theorem exists_repeatsAt {t : Trace} (h : ¬ (t.paths.map Path.id).Nodup) :
    ∃ p, t.RepeatsAt p ∧
      t.distinct = .error (.trace ("duplicate path id " ++ toString p.id.toNat)) := by
  have hsome : ∃ id, t.repeated? = some id := by
    rw [← Option.isSome_iff_exists, Option.isSome_iff_ne_none, repeated?, Ne,
      firstRepeated_eq_none_iff]
    exact fun hnone => h hnone.1
  obtain ⟨id, hid⟩ := hsome
  obtain ⟨ids, rest, hsplit, hnodup, -, hmem⟩ := exists_of_firstRepeated_eq_some hid
  obtain ⟨before, tail, hpaths, rfl, htail⟩ := List.map_eq_append_iff.1 hsplit
  obtain ⟨p, after, rfl, rfl, -⟩ := List.map_eq_cons_iff.1 htail
  refine ⟨p, ⟨before, after, hpaths, hnodup, hmem.resolve_right List.not_mem_nil⟩, ?_⟩
  rw [distinct, hid]

/-- **A trace is read back from its text** if its paths can be told apart. If not, the
text is refused, for the first path whose identifier an earlier path has. -/
theorem ofText_toJson (t : Trace) (h : t.encode.depth ≤ Json.nestingLimit) :
    ((t.paths.map Path.id).Nodup → ofText .json t.toJson = .ok t) ∧
      (¬ (t.paths.map Path.id).Nodup → ∃ p, t.RepeatsAt p ∧ ofText .json t.toJson =
        .error (.trace ("duplicate path id " ++ toString p.id.toNat))) := by
  rw [ofText_toJson_eq_distinct h]
  exact ⟨distinct_eq_ok_iff.2, exists_repeatsAt⟩

/-- One path with nested values, a name that needs escapes, and the least integer. -/
def nestedValues : Trace :=
  { paths := [
      { id := 7
        steps := [
          ⟨⟨"say \"ß\"\n", 4294967295, 0⟩,
            .call ⟨none, [.pointer (.element (.element (.symbolic ⟨1⟩) .unknown)
              (.number (.compare (.symbol ⟨2⟩) .le (.int Int64.minValue))))], .null⟩⟩,
          ⟨⟨"f", 1, 1⟩, .access ⟨.pointer (.var "\x00"), true⟩⟩] }] }

/-- The same path, and an empty one that goes by its identifier. -/
def nestedTwice : Trace := { paths := nestedValues.paths ++ [{ id := 7 }] }

/-- The one is read back, the other refused. -/
theorem ofText_toJson_nestedValues :
    nestedValues.encode.depth ≤ Json.nestingLimit ∧
      ofText .json nestedValues.toJson = .ok nestedValues ∧
      nestedTwice.encode.depth ≤ Json.nestingLimit ∧
      ofText .json nestedTwice.toJson = .error (.trace "duplicate path id 7") := by
  refine ⟨by decide, (ofText_toJson nestedValues (by decide)).1 (by decide), by decide, ?_⟩
  obtain ⟨p, ⟨before, after, hpaths, -⟩, htext⟩ :=
    (ofText_toJson nestedTwice (by decide)).2 (by decide)
  have hp : p ∈ nestedTwice.paths := by simp [hpaths]
  have hid : p.id = 7 := (by decide : ∀ q ∈ nestedTwice.paths, q.id = 7) p hp
  rw [htext, hid]
  rfl

end Trace

end TaintReplay
