import TaintReplay.Encode.Report
import TaintReplay.Proofs.Encoding
/-!
# Texts of reports — a report is read back from its text

In a report, an alarm shares one map with the identifier of its path: what is left of the map
without that identifier is the alarm (`PathAlarm.decode?_encode`). So the names in the map
must not meet, and what is left must be data that is read whole. The counts of a report are
those of paths in memory, and the reader insists on that (`Report.fits_of_decode?`). It is all
it insists on: a report is read back from its text exactly if its counts fit a machine word
(`Report.ofJson?_toJson`).
-/

namespace TaintReplay

/-! ## Alarms -/

variable {how : Leniency}

theorem Sink.decode?_encode (s : Sink) : decode? how s.encode = some s := by
  cases s <;> rfl

theorem ErrorNode.decode?_encode (n : ErrorNode) : decode? n.encode = some n := by
  have hrecord : n.encode.record? ["point", "tag"] = _ := Data.record?_record _ _
  rw [decode?, hrecord]
  simp [required, field?, n.point.decode?_encode, Data.text?]

theorem ErrorNode.writable_encode (n : ErrorNode) : n.encode.Writable := by
  refine Data.writable_record ?_
  simp [n.point.writable_encode, Data.writable_text]

theorem Finding.decode?_encode (f : Finding) : decode? how f.encode = some f := by
  have hrecord : f.encode.record? ["checker", "sink_class", "message", "point"] = _ :=
    Data.record?_record _ _
  rw [decode?, hrecord]
  simp [required, field?, f.sink.decode?_encode, f.point.decode?_encode, Data.text?]

theorem Finding.writable_encode (f : Finding) : f.encode.Writable := by
  refine Data.writable_record ?_
  simp [Sink.encode, f.point.writable_encode, Data.writable_text]

/-- An alarm is read back from its fields. -/
theorem Alarm.ofFields?_fields (a : Alarm) : ofFields? how a.fields = some a := by
  simp [fields, ofFields?, required, field?, a.node.decode?_encode, a.finding.decode?_encode]

theorem Alarm.writable_fields (a : Alarm) : ∀ f ∈ a.fields, f.2.Writable := by
  simp [fields, a.node.writable_encode, a.finding.writable_encode]

/-- **An alarm is read back together with its path**: the identifier is taken out of the map,
and the alarm is what is left. -/
theorem PathAlarm.decode?_encode (a : PathAlarm) : decode? a.encode = some a := by
  have hmap : Format.json.map? a.encode =
      some (("path_id", .nat a.pathId.toNat) :: a.alarm.fields) := Data.map?_record [] _
  have hpath : required (("path_id", .nat a.pathId.toNat) :: a.alarm.fields) "path_id"
      Format.json.word32? = some a.pathId :=
    Format.json_word32?_toNat a.pathId
  have hrest : (("path_id", .nat a.pathId.toNat) :: a.alarm.fields).filter (·.1 != "path_id") =
      a.alarm.fields := rfl
  rw [decode?, hmap, Option.bind_eq_bind, Option.bind_some, hpath, Option.bind_eq_bind,
    Option.bind_some, hrest, Format.json_mapM_data? a.alarm.writable_fields]
  simp [a.alarm.ofFields?_fields]

theorem PathAlarm.depth_encode (a : PathAlarm) : a.encode.depth = 3 := by
  simp [encode, Alarm.fields, ErrorNode.encode, Finding.encode, Point.encode, Sink.encode]

theorem PathAlarm.writable_encode (a : PathAlarm) : a.encode.Writable :=
  Data.writable_record
    (List.forall_mem_cons.2 ⟨Data.writable_word32 a.pathId, a.alarm.writable_fields⟩)

/-! ## Counts -/

theorem Format.json_count?_nat {n : Nat} (h : n < UInt64.size) :
    json.count? (.nat n) = some n := by
  have hnat : json.nat? (.nat n) = some n := Data.nat?_nat n
  rw [Format.count?, hnat, Option.bind_some, TaintReplay.count?, if_pos h]

/-- A count that is read out of a field fits a machine word. -/
theorem Format.lt_of_required_count? {fields : List (String × Data)} {name : String} {n : Nat}
    (h : required fields name json.count? = some n) : n < UInt64.size := by
  rw [required] at h
  split at h
  · obtain ⟨m, -, hm⟩ := Option.bind_eq_some_iff.1 h
    rw [TaintReplay.count?] at hm
    split at hm
    · rwa [← Option.some.inj hm]
    · cases hm
  · cases h

/-- A number that fits a machine word can be written. -/
theorem Data.writable_nat {n : Nat} (h : n < UInt64.size) : (nat n).Writable := by
  rw [nat, Writable]
  omega

/-! ## Reports -/

namespace Report

variable {r : Report}

/-- **The counts of a report fit a machine word**, as those of paths in memory do. -/
structure Fits (r : Report) : Prop where
  explored : r.explored < UInt64.size
  infeasible : r.infeasible < UInt64.size
  withErrors : r.withErrors < UInt64.size

/-- **A report is read back from what it is written as.** -/
theorem decode?_encode (h : r.Fits) : decode? r.encode = some r := by
  have hrecord : r.encode.record?
      ["reports", "paths_explored", "paths_infeasible", "paths_with_errors"] = _ :=
    Data.record?_record _ _
  have halarms : Format.json.listOf? PathAlarm.decode? (.list (r.alarms.map PathAlarm.encode)) =
      some r.alarms := Format.json_listOf?_map fun a _ => a.decode?_encode
  rw [decode?, hrecord]
  simp [required, field?, halarms, Format.json_count?_nat h.explored,
    Format.json_count?_nat h.infeasible, Format.json_count?_nat h.withErrors]

theorem writable_encode (h : r.Fits) : r.encode.Writable := by
  have halarms : (Data.list (r.alarms.map PathAlarm.encode)).Writable :=
    Data.writable_list (by simp [PathAlarm.writable_encode])
  refine Data.writable_record ?_
  simp [halarms, Data.writable_nat h.explored, Data.writable_nat h.infeasible,
    Data.writable_nat h.withErrors]

/-- A report is nested five levels deep at most. -/
theorem depth_encode_le (r : Report) : r.encode.depth ≤ 5 := by
  have halarms : (Data.list (r.alarms.map PathAlarm.encode)).depth ≤ 3 + 1 :=
    Data.depth_list_le (by simp [PathAlarm.depth_encode])
  simp only [encode, Data.depth_record_cons, Data.depth_record_nil, Data.depth_nat]
  omega

/-- Every report that is read has counts that fit. -/
theorem fits_of_decode? {d : Data} (h : decode? d = some r) : r.Fits := by
  rw [decode?] at h
  simp only [Option.bind_eq_bind, Option.bind_eq_some_iff, Option.pure_def, Option.some.injEq] at h
  obtain ⟨fields, -, alarms, -, explored, he, infeasible, hi, withErrors, hw, rfl⟩ := h
  constructor
  · exact Format.lt_of_required_count? he
  · exact Format.lt_of_required_count? hi
  · exact Format.lt_of_required_count? hw

/-- **A report is read back from its text**, whatever its alarms, exactly if its counts fit a
machine word. The text has one map for each alarm, and the two parts of the alarm stand in it
beside the identifier of the path. -/
theorem ofJson?_toJson (r : Report) : (ofJson? r.toJson = some r ↔ r.Fits) ∧
    ∀ a ∈ r.alarms, ∃ node finding,
      a.encode = .record
        [("path_id", .nat a.pathId.toNat), ("node", node), ("finding", finding)] ∧
      ErrorNode.decode? node = some a.alarm.node ∧
      Finding.decode? .loose finding = some a.alarm.finding := by
  refine ⟨⟨fun h => ?_, fun h => ?_⟩, fun a _ => ?_⟩
  -- whatever is read has counts that fit, and this report was read
  · obtain ⟨d, -, hd⟩ := Option.bind_eq_some_iff.1 h
    exact fits_of_decode? hd
  · have hdepth : r.encode.depth ≤ Json.nestingLimit := Nat.le_trans r.depth_encode_le (by decide)
    rw [ofJson?, toJson, Json.read?_text (writable_encode h) hdepth, Option.bind_some,
      decode?_encode h]
  · exact ⟨_, _, rfl, a.alarm.node.decode?_encode, a.alarm.finding.decode?_encode⟩

end Report

end TaintReplay
