import TaintReplay.Encode.Trace
import TaintReplay.Proofs.Json
/-!
# Encoding — what is written as data is read back

Each kind of value is read back from the data it is written as, whatever the leniency of
the reader. Terms, regions and values nest, and their readers go down a given number of
levels only: the depth of the data is always enough (`Term.decodeTo?_encode`,
`Value.decodeTo?_encode`).
-/

namespace TaintReplay

/-! ## Data -/

namespace Data

variable {name : String} {names : List String} {fields : List (String × Data)} {d : Data}
variable {n : Nat}

theorem nat?_nat (n : Nat) : (nat n).nat? = some n := by
  simp [nat, nat?]

theorem int64?_toInt (v : Int64) : (int v.toInt).int64? = some v := by
  simp [int64?]

theorem variant?_tagged : (tagged name d).variant? names = some (name, some d) := rfl

theorem map?_record (names : List String) (fields : List (String × Data)) :
    (record fields).map? names = some fields := by
  rw [record, map?, List.mapM_map]
  exact mapM_eq_pure_self fun _ _ => rfl

theorem record?_record (names : List String) (fields : List (String × Data)) :
    (record fields).record? names = some fields := map?_record names fields

/-! ### Depth -/

@[simp] theorem depth_nat (n : Nat) : (nat n).depth = 0 := by
  simp [nat, depth]

@[simp] theorem depth_text (s : String) : (text s).depth = 0 := by
  simp [depth]

@[simp] theorem depth_record_nil : (record []).depth = 1 := by
  simp [record, depth, depthOfEntries]

@[simp] theorem depth_record_cons :
    (record ((name, d) :: fields)).depth = max (d.depth + 1) (record fields).depth := by
  simp only [record, List.map_cons, depth, depthOfEntries]
  omega

@[simp] theorem depth_tagged : (tagged name d).depth = d.depth + 1 := by
  simp [tagged]

theorem depthOfItems_le {ds : List Data} (h : ∀ d ∈ ds, d.depth ≤ n) : depthOfItems ds ≤ n := by
  induction ds with
  | nil => exact Nat.zero_le n
  | cons d ds ih =>
    obtain ⟨hd, hds⟩ := List.forall_mem_cons.1 h
    exact Nat.max_le.2 ⟨hd, ih hds⟩

/-- A list is one level deeper than its items. -/
theorem depth_list_le {ds : List Data} (h : ∀ d ∈ ds, d.depth ≤ n) : (list ds).depth ≤ n + 1 := by
  rw [depth]
  exact Nat.succ_le_succ (depthOfItems_le h)

/-! ### What can be written -/

theorem writableItems_iff {ds : List Data} : WritableItems ds ↔ ∀ d ∈ ds, d.Writable := by
  induction ds with
  | nil => simp [WritableItems]
  | cons d ds ih => rw [WritableItems, ih, List.forall_mem_cons]

/-- A list can be written if each item can. -/
theorem writable_list {ds : List Data} (h : ∀ d ∈ ds, d.Writable) : (list ds).Writable := by
  rw [Writable]
  exact writableItems_iff.2 h

/-- A record can be written if each field can. -/
theorem writable_record (h : ∀ f ∈ fields, f.2.Writable) : (record fields).Writable := by
  rw [record, Writable]
  induction fields with
  | nil => trivial
  | cons f fields ih =>
    obtain ⟨hf, hfields⟩ := List.forall_mem_cons.1 h
    exact ⟨⟨f.1, rfl⟩, hf, ih hfields⟩

theorem writable_tagged (h : d.Writable) : (tagged name d).Writable :=
  writable_record fun f hf => by
    rw [List.mem_singleton.1 hf]
    exact h

theorem writable_text (s : String) : (text s).Writable := by rw [Writable]; trivial

theorem writable_bool (b : Bool) : (bool b).Writable := by rw [Writable]; trivial

/-- A 32-bit word fits a machine word. -/
theorem writable_word32 (w : UInt32) : (nat w.toNat).Writable := by
  have hlt : w.toNat < 4294967296 := w.toNat_lt
  have hsize : UInt64.size = 18446744073709551616 := rfl
  rw [nat, Writable, hsize]
  omega

theorem writable_int64 (v : Int64) : (int v.toInt).Writable := by
  have hlow : -(2 : Int) ^ 63 ≤ v.toInt := v.le_toInt
  have hhigh : v.toInt < (2 : Int) ^ 63 := v.toInt_lt
  have hsize : UInt64.size = 18446744073709551616 := rfl
  rw [Writable, hsize]
  omega

mutual

/-- What can be written can be read. -/
theorem isReadable_of_writable : (d : Data) → d.Writable → d.isReadable = true
  | .null, _ => rfl
  | .bool _, _ => rfl
  | .int _, _ => rfl
  | .text _, _ => rfl
  | .list ds, h => by
    rw [Writable] at h
    rw [isReadable, areReadable_of_writable ds h]
  | .map es, h => by
    rw [Writable] at h
    rw [isReadable, entriesReadable_of_writable es h]

theorem areReadable_of_writable : (ds : List Data) → WritableItems ds → areReadable ds = true
  | [], _ => rfl
  | d :: ds, h => by
    rw [areReadable, isReadable_of_writable d h.1, areReadable_of_writable ds h.2, Bool.and_self]

theorem entriesReadable_of_writable : (es : List (Data × Data)) → WritableEntries es →
    entriesReadable es = true
  | [], _ => rfl
  | (k, v) :: es, h => by
    obtain ⟨⟨s, rfl⟩, hv, hes⟩ := h
    rw [entriesReadable, isReadable_of_writable v hv, entriesReadable_of_writable es hes]
    rfl

end

end Data

namespace Format

theorem json_word32?_toNat (w : UInt32) : json.word32? (.nat w.toNat) = some w := by
  have hnat : json.nat? (.nat w.toNat) = some w.toNat := Data.nat?_nat w.toNat
  rw [Format.word32?, hnat, Option.bind_some, word32?_toNat]

/-- A list is read back if its items are. -/
theorem json_listOf?_map {α : Type} {encode : α → Data} {decode : Data → Option α} {xs : List α}
    (h : ∀ x ∈ xs, decode (encode x) = some x) :
    json.listOf? decode (.list (xs.map encode)) = some xs := by
  have hlist : json.list? (.list (xs.map encode)) = some (xs.map encode) := rfl
  rw [listOf?, hlist, Option.bind_some, List.mapM_map]
  exact mapM_eq_pure_self h

/-- Fields that can be written are taken as data. -/
theorem json_mapM_data? {fields : List (String × Data)} (h : ∀ f ∈ fields, f.2.Writable) :
    (fields.mapM fun (name, v) => (json.data? v).map (name, ·)) = some fields := by
  refine mapM_eq_pure_self fun f hf => ?_
  have hdata : json.data? f.2 = some f.2 := if_pos (Data.isReadable_of_writable f.2 (h f hf))
  simp only [hdata, Option.map_some]
  rfl

end Format

/-- The fields of a record are what an alternative holds, however freely it is written. -/
theorem Leniency.fields?_record (how : Leniency) (names : List String)
    (fields : List (String × Data)) : how.fields? names (.record fields) = some fields := by
  cases how
  · exact Data.map?_record names fields
  · exact Data.record?_record names fields
  · exact Data.record?_record names fields

/-! ## Values -/

variable {how : Leniency}

theorem Comparison.decode?_encode (c : Comparison) : decode? how c.encode = some c := by
  cases c <;> rfl

theorem Symbol.decode?_encode (s : Symbol) : decode? s.encode = some s := by
  rw [encode, decode?, Data.nat?_nat, Option.bind_some, word32?_toNat]
  rfl

/-- A term is read back by as many levels as its data is deep. -/
theorem Term.decodeTo?_encode (t : Term) {n : Nat} (h : t.encode.depth ≤ n) :
    decodeTo? how n t.encode = some t := by
  induction t generalizing n with
  | int v =>
    rw [encode, Data.depth_tagged] at h
    obtain ⟨n, rfl⟩ : ∃ m, n = m + 1 := ⟨n - 1, by omega⟩
    simp [encode, decodeTo?, Data.variant?_tagged, Data.int64?_toInt]
  | symbol s =>
    rw [encode, Data.depth_tagged] at h
    obtain ⟨n, rfl⟩ : ∃ m, n = m + 1 := ⟨n - 1, by omega⟩
    simp [encode, decodeTo?, Data.variant?_tagged, Symbol.decode?_encode]
  | compare lhs op rhs ihl ihr =>
    simp only [encode, Data.depth_tagged, Data.depth_record_cons] at h
    obtain ⟨n, rfl⟩ : ∃ m, n = m + 1 := ⟨n - 1, by omega⟩
    have hlhs : decodeTo? how n lhs.encode = some lhs := ihl (by omega)
    have hrhs : decodeTo? how n rhs.encode = some rhs := ihr (by omega)
    simp [encode, decodeTo?, Data.variant?_tagged, how.fields?_record, required, field?,
      hlhs, op.decode?_encode, hrhs]

theorem Term.decode?_encode (t : Term) : decode? how t.encode = some t :=
  t.decodeTo?_encode (Nat.le_refl _)

mutual

/-- A region is read back by as many levels as its data is deep. -/
theorem Region.decodeTo?_encode : (r : Region) → {n : Nat} → r.encode.depth ≤ n →
    Region.decodeTo? how n r.encode = some r
  | .var name, n, h => by
    simp only [Region.encode, Data.depth_tagged] at h
    obtain ⟨n, rfl⟩ : ∃ m, n = m + 1 := ⟨n - 1, by omega⟩
    simp [Region.encode, Region.decodeTo?, Data.variant?_tagged, how.fields?_record, required,
      field?, Data.text?]
  | .symbolic s, n, h => by
    simp only [Region.encode, Data.depth_tagged] at h
    obtain ⟨n, rfl⟩ : ∃ m, n = m + 1 := ⟨n - 1, by omega⟩
    simp [Region.encode, Region.decodeTo?, Data.variant?_tagged, how.fields?_record, required,
      field?, s.decode?_encode]
  | .element base index, n, h => by
    simp only [Region.encode, Data.depth_tagged, Data.depth_record_cons] at h
    obtain ⟨n, rfl⟩ : ∃ m, n = m + 1 := ⟨n - 1, by omega⟩
    have hbase : Region.decodeTo? how n base.encode = some base := base.decodeTo?_encode (by omega)
    have hindex : Value.decodeTo? how n index.encode = some index :=
      index.decodeTo?_encode (by omega)
    simp [Region.encode, Region.decodeTo?, Data.variant?_tagged, how.fields?_record, required,
      field?, hbase, hindex]

/-- A value takes one level more, since a value that is a bare name has no depth. -/
theorem Value.decodeTo?_encode : (v : Value) → {n : Nat} → v.encode.depth < n →
    Value.decodeTo? how n v.encode = some v
  | .number t, n, h => by
    obtain ⟨n, rfl⟩ : ∃ m, n = m + 1 := ⟨n - 1, by omega⟩
    simp [Value.encode, Value.decodeTo?, Data.variant?_tagged, t.decode?_encode]
  | .pointer r, n, h => by
    simp only [Value.encode, Data.depth_tagged] at h
    obtain ⟨n, rfl⟩ : ∃ m, n = m + 1 := ⟨n - 1, by omega⟩
    have hr : Region.decodeTo? how n r.encode = some r := r.decodeTo?_encode (by omega)
    simp [Value.encode, Value.decodeTo?, Data.variant?_tagged, hr]
  | .null, n, h => by
    obtain ⟨n, rfl⟩ : ∃ m, n = m + 1 := ⟨n - 1, by omega⟩
    rfl
  | .unknown, n, h => by
    obtain ⟨n, rfl⟩ : ∃ m, n = m + 1 := ⟨n - 1, by omega⟩
    rfl
  | .undefined, n, h => by
    obtain ⟨n, rfl⟩ : ∃ m, n = m + 1 := ⟨n - 1, by omega⟩
    rfl

end

/-- **A value is read back from what it is written as**, however strictly it is read. -/
theorem Value.decode?_encode (v : Value) : decode? how v.encode = some v :=
  v.decodeTo?_encode (Nat.lt_succ_self _)

/-! ### What is written can be written -/

theorem Symbol.writable_encode (s : Symbol) : s.encode.Writable := Data.writable_word32 s.id

theorem Term.writable_encode (t : Term) : t.encode.Writable := by
  induction t with
  | int v => exact Data.writable_tagged (Data.writable_int64 v)
  | symbol s => exact Data.writable_tagged s.writable_encode
  | compare lhs op rhs ihl ihr =>
    refine Data.writable_tagged (Data.writable_record ?_)
    simp [ihl, ihr, Comparison.encode, Data.writable_text]

mutual

theorem Region.writable_encode : (r : Region) → r.encode.Writable
  | .var name => by
    refine Data.writable_tagged (Data.writable_record ?_)
    simp [Data.writable_text]
  | .symbolic s => by
    refine Data.writable_tagged (Data.writable_record ?_)
    simp [s.writable_encode]
  | .element base index => by
    refine Data.writable_tagged (Data.writable_record ?_)
    simp [base.writable_encode, index.writable_encode]

theorem Value.writable_encode : (v : Value) → v.encode.Writable
  | .number t => Data.writable_tagged t.writable_encode
  | .pointer r => Data.writable_tagged (Data.writable_tagged r.writable_encode)
  | .null => Data.writable_tagged (Data.writable_text "null")
  | .unknown => Data.writable_text "unknown"
  | .undefined => Data.writable_text "undefined"

end

/-! ## Points -/

theorem Point.decode?_encode (p : Point) : decode? Format.json p.encode = some p := by
  have hrecord : Format.json.record? ["function", "line", "column"] p.encode = _ :=
    Data.record?_record _ _
  have hfunction : Format.json.text? (.text p.function) = some p.function := rfl
  rw [decode?, hrecord]
  simp [required, optional, field?, hfunction, Format.json_word32?_toNat]

theorem Point.writable_encode (p : Point) : p.encode.Writable := by
  refine Data.writable_record ?_
  simp [Data.writable_text, Data.writable_word32]

end TaintReplay
