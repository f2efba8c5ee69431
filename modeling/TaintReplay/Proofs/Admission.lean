import TaintReplay.Analysis
import TaintReplay.Proofs.Validation
import Mathlib.Algebra.Group.Nat.Defs
/-!
# Admission — which configurations are put to work

A configuration is held against a row of requirements (`Requirement`), each of which says when
it is met, and which fault is reported when it is not. Every check of a validation is one of
them (`Requirement.check_eq_ok_iff`, `Requirement.check_eq_error_iff`), and a validation goes
through them in order (`Config.validate_eq_forM`). So a configuration is accepted exactly if it
meets every requirement, and it is refused for the first one that it does not meet
(`Analyzer.ofConfig_admits`). What is registered then is the one checker there is, or none.
-/

namespace TaintReplay

/-! ## The first failure -/

section Rows

variable {α ε : Type} {P : α → Prop} {xs : List α} {x y : α}

/-- **The first entry of a list that fails a test**: the entries before it pass. -/
def FirstFailing (P : α → Prop) (xs : List α) (x : α) : Prop :=
  ∃ before after, xs = before ++ x :: after ∧ (∀ y ∈ before, P y) ∧ ¬ P x

theorem firstFailing_cons_iff :
    FirstFailing P (y :: xs) x ↔ (¬ P y ∧ x = y) ∨ (P y ∧ FirstFailing P xs x) := by
  constructor
  · rintro ⟨before, after, hxs, hbefore, hx⟩
    cases before with
    | nil =>
      obtain ⟨rfl, rfl⟩ := List.cons.inj hxs
      exact .inl ⟨hx, rfl⟩
    | cons z before =>
      obtain ⟨rfl, rfl⟩ := List.cons.inj hxs
      obtain ⟨hy, hbefore⟩ := List.forall_mem_cons.1 hbefore
      exact .inr ⟨hy, before, after, rfl, hbefore, hx⟩
  · rintro (⟨hy, rfl⟩ | ⟨hy, before, after, rfl, hbefore, hx⟩)
    · exact ⟨[], xs, rfl, nofun, hy⟩
    · exact ⟨y :: before, after, rfl, List.forall_mem_cons.2 ⟨hy, hbefore⟩, hx⟩

/-- It is what a search for a failure finds. -/
theorem find?_eq_some_iff_firstFailing {p : α → Bool} (hp : ∀ x, p x = false ↔ P x) :
    xs.find? p = some x ↔ FirstFailing P xs x := by
  have hpass : ∀ x, p x = true ↔ ¬ P x := fun x => by rw [← hp x, Bool.not_eq_false]
  simp only [List.find?_eq_some_iff_append, FirstFailing, hpass, Bool.not_eq_eq_eq_not,
    Bool.not_true, hp]
  constructor
  · rintro ⟨hx, before, after, hxs, hbefore⟩
    exact ⟨before, after, hxs, hbefore, hx⟩
  · rintro ⟨before, after, hxs, hbefore, hx⟩
    exact ⟨hx, before, after, hxs, hbefore⟩

/-- Checks in a row pass if every one does. -/
theorem forM_eq_ok_iff {f : α → Except ε Unit} :
    forM xs f = .ok () ↔ ∀ x ∈ xs, f x = .ok () := by
  induction xs with
  | nil => exact iff_of_true rfl nofun
  | cons x xs ih =>
    rw [List.forall_mem_cons, ← ih, List.forM_cons]
    cases f x with
    | error e => exact iff_of_false nofun fun h => nomatch h.1
    | ok u => exact (and_iff_right rfl).symm

/-- **And they fail as the first of them that fails.** -/
theorem forM_eq_error_iff {f : α → Except ε Unit} {e : ε} : forM xs f = .error e ↔
    ∃ x, FirstFailing (f · = .ok ()) xs x ∧ f x = .error e := by
  induction xs with
  | nil =>
    refine iff_of_false nofun ?_
    rintro ⟨x, ⟨before, after, hxs, -⟩, -⟩
    cases before <;> cases hxs
  | cons y ys ih =>
    simp only [firstFailing_cons_iff]
    rw [List.forM_cons]
    cases hy : f y with
    | error fault =>
      constructor
      · intro h
        refine ⟨y, .inl ⟨nofun, rfl⟩, ?_⟩
        rw [hy]
        exact h
      · rintro ⟨x, ⟨-, rfl⟩ | ⟨h, -⟩, hx⟩
        · rw [hy] at hx
          exact hx
        · cases h
    | ok u =>
      -- the head passes, so that a first failure of the list is one of the tail
      refine ih.trans (exists_congr fun x => and_congr_left fun hx => ?_)
      simp

end Rows

/-! ## Names -/

/-- A letter or an underscore. -/
def IsLetter (c : Char) : Prop := ('A' ≤ c ∧ c ≤ 'Z') ∨ ('a' ≤ c ∧ c ≤ 'z') ∨ c = '_'

/-- **A function name**: a letter or an underscore, then letters, underscores and digits. -/
def IsFunctionName (s : String) : Prop :=
  ∃ c cs, s.toList = c :: cs ∧ IsLetter c ∧ ∀ d ∈ cs, IsLetter d ∨ ('0' ≤ d ∧ d ≤ '9')

theorem startsIdentifier_iff {c : Char} : startsIdentifier c = true ↔ IsLetter c := by
  have hupper : c.isUpper = true ↔ 'A' ≤ c ∧ c ≤ 'Z' := decide_eq_true_iff
  have hlower : c.isLower = true ↔ 'a' ≤ c ∧ c ≤ 'z' :=
    Bool.and_eq_true_iff.trans (and_congr decide_eq_true_iff decide_eq_true_iff)
  have halpha : c.isAlpha = (c.isUpper || c.isLower) := rfl
  rw [startsIdentifier, halpha, IsLetter, Bool.or_eq_true_iff, Bool.or_eq_true_iff, hupper,
    hlower, beq_iff_eq, or_assoc]

theorem isIdentifier_iff {s : String} : isIdentifier s = true ↔ IsFunctionName s := by
  have hdigit : ∀ d : Char, d.isDigit = true ↔ '0' ≤ d ∧ d ≤ '9' := fun d => by
    simp [Char.isDigit, Char.le_def]
  rw [isIdentifier, IsFunctionName]
  cases s.toList with
  | nil => simp
  | cons c cs => simp [startsIdentifier_iff, hdigit, and_assoc]

/-- **A list of functions**: there is one, and each goes by a name. -/
def IsFunctionList (names : List String) : Prop :=
  names ≠ [] ∧ ∀ name ∈ names, IsFunctionName name

/-- The fault of a list that is none: it is empty, or its first entry that is no name. -/
def FunctionListFault (field : String) (names : List String) (fault : ConfigFault) : Prop :=
  (names = [] ∧ fault = .emptyList field) ∨
    ∃ name, FirstFailing IsFunctionName names name ∧ fault = .invalidName field name

section Checks

variable {field hint : String} {names : List String} {fault : ConfigFault}
variable {value least greatest : Nat}

theorem find?_not_isIdentifier {name : String} :
    names.find? (!isIdentifier ·) = some name ↔ FirstFailing IsFunctionName names name :=
  find?_eq_some_iff_firstFailing fun _ => by rw [Bool.not_eq_false', isIdentifier_iff]

theorem validateNames_eq_ok_iff : validateNames field names = .ok () ↔ IsFunctionList names := by
  have hvalid : names.find? (!isIdentifier ·) = none ↔ ∀ name ∈ names, IsFunctionName name := by
    simp [isIdentifier_iff]
  rw [validateNames, IsFunctionList, ← hvalid, ← List.isEmpty_eq_false_iff]
  split
  · simp_all
  · split <;> simp_all

theorem validateNames_eq_error_iff :
    validateNames field names = .error fault ↔ FunctionListFault field names fault := by
  simp only [validateNames, FunctionListFault, ← find?_not_isIdentifier, List.isEmpty_iff]
  by_cases hempty : names = []
  · simp [hempty, eq_comm]
  · rw [if_neg hempty]
    cases names.find? (!isIdentifier ·) <;> simp [hempty, eq_comm]

/-- A number is refused with the range it is not in: the field, the number and the range are
written out. -/
theorem validateRange_eq_error_iff :
    validateRange field value least greatest hint = .error fault ↔
      ¬ (least ≤ value ∧ value ≤ greatest) ∧
        fault = .range field (toString value) (toString least ++ "..=" ++ toString greatest)
          hint := by
  rw [validateRange]
  split
  · refine iff_of_false (fun h => ?_) fun h => h.1 ‹_›
    cases h
  · rw [Except.error.injEq, eq_comm, and_iff_right ‹_›]
    rfl

end Checks

/-! ## Requirements -/

/-- What is required of a configuration. -/
inductive Requirement where
  | version
  | enabled
  | sources
  | copySinks
  | width
  | threshold
  | budget
deriving DecidableEq

namespace Requirement

variable {c : Config} {r : Requirement} {fault : ConfigFault}

/-- The requirements, in the order they are looked at. -/
def all : List Requirement := [version, enabled, sources, copySinks, width, threshold, budget]

theorem mem_all (r : Requirement) : r ∈ all := by
  cases r <;> decide

/-- **When a configuration meets a requirement.** -/
def Met (c : Config) : Requirement → Prop
  | version => c.version = some 1
  | enabled => ∀ name ∈ c.enabled, name = "ci.NetworkTaint"
  | sources => IsFunctionList c.networkTaint.sources
  | copySinks => IsFunctionList c.networkTaint.copySinks
  | width => 1 ≤ c.networkTaint.width.toNat ∧ c.networkTaint.width.toNat ≤ 64
  | threshold => 1 ≤ c.networkTaint.threshold.toNat ∧
      c.networkTaint.threshold.toNat ≤ min (2 ^ c.networkTaint.width.toNat - 1) (2 ^ 63 - 1)
  | budget => 1 ≤ c.replay.budget ∧ c.replay.budget ≤ 4096

/-- **The fault of a configuration that does not meet a requirement.** It carries the entry
that is at fault, or the number with the range it is not in. -/
def Breach (c : Config) : Requirement → ConfigFault → Prop
  | version, fault => (c.version = none ∧ fault = .missingVersion) ∨
      ∃ v, c.version = some v ∧ v ≠ 1 ∧ fault = .unsupportedVersion v
  | enabled, fault => ∃ name, FirstFailing (· = "ci.NetworkTaint") c.enabled name ∧
      fault = .unknownChecker name (nearest? name ["ci.NetworkTaint"])
  | sources, fault => FunctionListFault "taint_sources" c.networkTaint.sources fault
  | copySinks, fault => FunctionListFault "copy_sinks" c.networkTaint.copySinks fault
  | width, fault => ¬ width.Met c ∧
      fault = .range "threshold_bit_width" (toString c.networkTaint.width.toNat) "1..=64"
        "the threshold is a machine integer"
  | threshold, fault => ¬ threshold.Met c ∧
      fault = .range "threshold" (toString c.networkTaint.threshold.toNat)
        ("1..=" ++ toString (min (2 ^ c.networkTaint.width.toNat - 1) (2 ^ 63 - 1)))
        "must be positive and fit in threshold_bit_width bits"
  | budget, fault => ¬ budget.Met c ∧
      fault = .range "max_constraints_per_path" (toString c.replay.budget) "1..=4096"
        "the solver needs a finite, non-zero budget"

/-- The check of a requirement. -/
def check (c : Config) : Requirement → Except ConfigFault Unit
  | version => Config.validateVersion c.version
  | enabled => Config.validateEnabled c.enabled
  | sources => validateNames "taint_sources" c.networkTaint.sources
  | copySinks => validateNames "copy_sinks" c.networkTaint.copySinks
  | width => validateRange "threshold_bit_width" c.networkTaint.width.toNat 1 64
      "the threshold is a machine integer"
  | threshold => validateRange "threshold" c.networkTaint.threshold.toNat 1
      (NetworkTaintConfig.greatestThreshold c.networkTaint.width).toNat
      "must be positive and fit in threshold_bit_width bits"
  | budget => c.replay.validate

theorem greatestThreshold_eq (width : UInt32) :
    (NetworkTaintConfig.greatestThreshold width).toNat =
      min (2 ^ width.toNat - 1) (2 ^ 63 - 1) := by
  rw [NetworkTaintConfig.toNat_greatestThreshold, Nat.one_shiftLeft, Nat.one_shiftLeft]

theorem isReadable_iff {v : UInt32} : readableVersions.contains v.toNat = true ↔ v = 1 := by
  simp [readableVersions, ← UInt32.toNat_inj]

theorem find?_not_known {enabled : List String} {name : String} :
    enabled.find? (!knownCheckers.contains ·) = some name ↔
      FirstFailing (· = "ci.NetworkTaint") enabled name :=
  find?_eq_some_iff_firstFailing fun _ => by simp [knownCheckers, NetworkTaint.name]

/-- **A check passes exactly if its requirement is met.** -/
theorem check_eq_ok_iff : r.check c = .ok () ↔ r.Met c := by
  cases r with
  | version =>
    rw [check, Met]
    cases c.version with
    | none => exact iff_of_false nofun nofun
    | some v =>
      rw [Option.some.injEq, ← isReadable_iff, Config.validateVersion]
      split <;> simp_all
  | enabled =>
    have hknown : c.enabled.find? (!knownCheckers.contains ·) = none ↔
        ∀ name ∈ c.enabled, name = "ci.NetworkTaint" := by
      simp only [List.find?_eq_none, knownCheckers, NetworkTaint.name, Bool.not_eq_true',
        Bool.not_eq_false, List.contains_iff_mem, List.mem_singleton]
    rw [check, Met, Config.validateEnabled, ← hknown]
    cases c.enabled.find? (!knownCheckers.contains ·) <;> simp
  | sources => exact validateNames_eq_ok_iff
  | copySinks => exact validateNames_eq_ok_iff
  | width => exact validateRange_eq_ok_iff
  | threshold =>
    rw [Met, ← greatestThreshold_eq]
    exact validateRange_eq_ok_iff
  | budget => exact validateRange_eq_ok_iff

/-- **And it fails with the fault of that requirement.** -/
theorem check_eq_error_iff : r.check c = .error fault ↔ r.Breach c fault := by
  cases r with
  | version =>
    rw [check, Breach]
    cases c.version with
    | none => simp [Config.validateVersion, eq_comm]
    | some v =>
      simp only [Config.validateVersion, isReadable_iff, reduceCtorEq, false_and, false_or,
        Option.some.injEq, exists_eq_left']
      split <;> simp_all [eq_comm]
  | enabled =>
    simp only [check, Breach, Config.validateEnabled, ← find?_not_known]
    cases c.enabled.find? (!knownCheckers.contains ·) <;>
      simp [eq_comm, ConfigFault.unknown, knownCheckers, NetworkTaint.name]
  | sources => exact validateNames_eq_error_iff
  | copySinks => exact validateNames_eq_error_iff
  | width => exact validateRange_eq_error_iff
  | threshold =>
    rw [Breach, Met, ← greatestThreshold_eq]
    exact validateRange_eq_error_iff
  | budget => exact validateRange_eq_error_iff

end Requirement

namespace Config

open Requirement (Met Breach)

variable {c : Config} {fault : ConfigFault}

/-- A validation makes these checks in a row. -/
theorem validate_eq_forM (c : Config) :
    c.validate = forM Requirement.all (Requirement.check c) := by
  simp [validate, NetworkTaintConfig.validate, Requirement.all, Requirement.check, bind_assoc]

/-- **A configuration passes exactly if it meets every requirement.** -/
theorem validate_eq_ok_iff : c.validate = .ok () ↔ ∀ r, Met c r := by
  simp only [validate_eq_forM, forM_eq_ok_iff, Requirement.check_eq_ok_iff, Requirement.mem_all,
    true_imp_iff]

/-- **And it is refused for the first one that it does not meet.** -/
theorem validate_eq_error_iff : c.validate = .error fault ↔
    ∃ r, FirstFailing (Met c) Requirement.all r ∧ Breach c r fault := by
  simp only [validate_eq_forM, forM_eq_error_iff, Requirement.check_eq_ok_iff,
    Requirement.check_eq_error_iff]

/-- Where all enabled checkers are the one there is, it is enabled if any is. -/
theorem isEnabled_iff (h : Met c .enabled) :
    c.isEnabled NetworkTaint.name = true ↔ c.enabled ≠ [] := by
  rw [isEnabled, List.contains_iff_mem]
  constructor
  · exact List.ne_nil_of_mem
  · intro hne
    obtain ⟨name, hname⟩ := List.exists_mem_of_ne_nil _ hne
    rwa [NetworkTaint.name, ← h name hname]

end Config

/-! ## Analyzers -/

/-- The registry with the checker in it, which listens to each kind of event once. -/
theorem NetworkTaint.register?_empty (ch : NetworkTaint) : ch.register? .empty =
    some ⟨[⟨name, description⟩], fun k => [ch.respond k]⟩ := by
  have hhandlers : ch.handlers.foldl Registry.file Registry.empty.handlers =
      fun k => [ch.respond k] := by
    funext k
    cases k <;> rfl
  rw [register?, Registry.add?, hhandlers]
  rfl

namespace Analyzer

open Requirement (Met Breach)

variable {c : Config}

/-- **What is made of a configuration that passes**: an analyzer with the checker, or with none
where none is enabled. -/
theorem ofConfig_of_validate (h : c.validate = .ok ()) :
    ofConfig c = .ok
      { config := c
        registry := if c.enabled = [] then .empty else
          { checkers := [⟨NetworkTaint.name, NetworkTaint.description⟩]
            handlers := fun k => [c.networkTaint.checker.respond k] } } := by
  have henabled := Config.isEnabled_iff (Config.validate_eq_ok_iff.1 h .enabled)
  simp only [ofConfig, h, henabled, NetworkTaint.register?_empty]
  split <;> simp_all

/-- Any other is refused for its fault. -/
theorem ofConfig_of_fault {fault : ConfigFault} (h : c.validate = .error fault) :
    ofConfig c = .error (.config fault) := by
  rw [ofConfig, h]

/-- **An analyzer is made exactly of the configurations that meet every requirement.** One that
does not is refused, for the first requirement it does not meet, and for nothing else. In the
analyzer the checker is registered once, however often it is enabled, and listens to each kind
of event once; or none is, if none is enabled. -/
theorem ofConfig_admits (c : Config) :
    ((∃ a, ofConfig c = .ok a) ↔ ∀ r, Met c r) ∧
      (∀ e, ofConfig c = .error e ↔ ∃ fault, e = .config fault ∧
        ∃ r, FirstFailing (Met c) Requirement.all r ∧ Breach c r fault) ∧
      (∀ a, ofConfig c = .ok a → a.config = c ∧
        (c.enabled ≠ [] →
          a.registry.checkers = [⟨"ci.NetworkTaint", NetworkTaint.description⟩] ∧
            ∀ k, a.registry.handlers k = [c.networkTaint.checker.respond k]) ∧
        (c.enabled = [] → a.registry.checkers = [] ∧ ∀ k, a.registry.handlers k = [])) := by
  -- the requirements are what a validation looks at, so that it decides all three parts
  simp only [← Config.validate_eq_ok_iff, ← Config.validate_eq_error_iff]
  cases hvalid : c.validate with
  | error fault =>
    rw [ofConfig_of_fault hvalid]
    simp [eq_comm]
  | ok u =>
    rw [ofConfig_of_validate hvalid]
    refine ⟨by simp, by simp, ?_⟩
    rintro a ⟨⟩
    refine ⟨rfl, fun hne => ?_, fun hnil => ?_⟩
    · simp [hne, NetworkTaint.name]
    · simp [hnil, Registry.empty]

end Analyzer

end TaintReplay
