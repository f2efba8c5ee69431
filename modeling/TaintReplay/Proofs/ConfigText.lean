import TaintReplay.Proofs.Loader
import TaintReplay.Proofs.Validation
/-!
# Texts of configurations — a configuration is read back from its text

A configuration is written as an outline (`Config.outline`, `toList_toYaml`), and the node
of that outline decodes to the configuration (`decode?_outline`). Validation sees to it that
the outline is legible: function names, checker names and numbers are words. So a valid
configuration is read back as it was (`Config.ofYaml_toYaml`), names that look like null or
like a truth value among them.
-/

namespace TaintReplay

open Yaml

/-! ## Numbers -/

namespace Yaml

theorem isWordChar_of_isDigit {c : Char} (h : c.isDigit = true) : isWordChar c = true := by
  simp [isWordChar, Char.isAlphanum, h]

/-- A number is a word. -/
theorem isWord_repr (n : Nat) : IsWord n.repr.toList := by
  rw [Nat.toList_repr]
  refine ⟨Nat.toDigits_ne_nil, fun hhead => ?_, fun c hc => ?_⟩
  · have hdigit : ('.' : Char).isDigit = true := isDigit_of_mem_toDigits (List.mem_of_head? hhead)
    cases hdigit
  · exact isWordChar_of_isDigit (isDigit_of_mem_toDigits hc)

/-- **A number is read back from its digits.** -/
theorem nat?_repr (n : Nat) : nat? n.repr = some n := by
  have hread := digits?_toDigits n
  rw [nat?, Nat.toList_repr]
  rcases toDigits_cases n with hzero | ⟨c, cs, hdigits, hdigit, hc⟩
  · rw [hzero] at hread ⊢
    exact hread
  · rw [hdigits] at hread ⊢
    have hplus : c ≠ '+' := by
      rintro rfl
      cases hdigit
    have hminus : c ≠ '-' := by
      rintro rfl
      cases hdigit
    have hpadded : isPadded (c :: cs) = false := by
      simp [isPadded, Decimal.signed?, hplus, hminus, hc]
    simp [magnitude?, hplus, hc, hpadded, hread]

/-- A number is not null. -/
theorem isNull_repr (n : Nat) : isNull n.repr = false := by
  rw [Bool.eq_false_iff, Ne, isNull, List.contains_iff_mem]
  intro hmem
  have hnone : ∀ s ∈ ["", "~", "null", "Null", "NULL"], nat? s = none := by decide
  have hsome := hnone _ hmem
  rw [nat?_repr] at hsome
  cases hsome

end Yaml

/-! ## Writing -/

section Writing

variable {indent name : String} {n : Nat}

theorem toList_fieldLine (hindent : indent.toList = List.replicate n ' ') (value : String) :
    (fieldLine indent name value).toList =
      List.replicate n ' ' ++ (name.toList ++ ':' :: (Outline.scalar value).text n) := by
  simp [fieldLine, Outline.text, hindent]

theorem toList_listLines (hindent : indent.toList = List.replicate n ' ') (items : List String) :
    (listLines indent name items).toList =
      List.replicate n ' ' ++ (name.toList ++ ':' :: (Outline.names items).text n) := by
  cases items with
  | nil => simp [listLines, fieldLine, Outline.text, hindent]
  | cons s ss =>
    have hitem : ∀ x, (indent ++ "- " ++ quoteName x ++ "\n").toList = itemText n x := by
      intro x
      simp [itemText, hindent]
    simp [listLines, Outline.text, hindent, String.toList_join, List.flatMap_map, hitem]

end Writing

/-- What the settings of the checker are written as. -/
def NetworkTaintConfig.outline (c : NetworkTaintConfig) : List (String × Outline) :=
  [ ("taint_sources", .names c.sources)
  , ("copy_sinks", .names c.copySinks)
  , ("threshold", .scalar c.threshold.toNat.repr)
  , ("threshold_bit_width", .scalar c.width.toNat.repr) ]

/-- What the settings of a replay are written as. -/
def ReplayConfig.outline (c : ReplayConfig) : List (String × Outline) :=
  [ ("max_constraints_per_path", .scalar c.budget.repr)
  , ("parallel", .scalar (if c.isParallel then "true" else "false")) ]

namespace Config

/-- **What a configuration is written as.** -/
def outline (c : Config) : List (String × Outline) :=
  [ ("version", .scalar (c.version.elim "null" fun v => v.toNat.repr))
  , ("enabled_checkers", .names c.enabled)
  , ("network_taint", .fields c.networkTaint.outline)
  , ("replay", .fields c.replay.outline) ]

/-- The text of a configuration is that of its outline. -/
theorem toList_toYaml (c : Config) : c.toYaml.toList = Outline.textOf 0 c.outline := by
  have hnone : ("" : String).toList = List.replicate 0 ' ' := rfl
  have htwo : ("  " : String).toList = List.replicate 2 ' ' := by decide
  rw [toYaml, String.toList_join]
  simp only [List.flatMap_cons, List.flatMap_nil, toList_fieldLine hnone, toList_listLines hnone,
    toList_fieldLine htwo, toList_listLines htwo]
  simp [outline, NetworkTaintConfig.outline, ReplayConfig.outline, Outline.textOf,
    Outline.text_fields]

end Config

/-! ## Reading -/

namespace Yaml

/-- The fields of an outline are those of its node. -/
theorem record?_nodesOf (names : List String) (es : List (String × Outline)) :
    Format.yaml.record? names (.map none (Outline.nodesOf es)) =
      some (es.map fun e => (e.1, e.2.node)) := by
  change (Outline.nodesOf es).mapM (fun e => e.1.text?.map (·, e.2)) = _
  induction es with
  | nil => rfl
  | cons e es ih =>
    rw [Outline.nodesOf, List.mapM_cons, ih]
    rfl

/-- A list of names is read back, in quotes or not. -/
theorem listOf?_names (ss : List String) :
    Format.yaml.listOf? Format.yaml.text? (Outline.names ss).node = some ss := by
  have hlist : Format.yaml.list? (Outline.names ss).node = some (ss.map itemNode) := by
    rw [Outline.node]
    rfl
  rw [Format.listOf?, hlist, Option.bind_some, List.mapM_map]
  exact mapM_eq_pure_self fun _ _ => rfl

/-- A scalar that is written as a number is the number. -/
theorem nat?_scalar (n : Nat) : Format.yaml.nat? (Outline.scalar n.repr).node = some n := by
  rw [Outline.node]
  exact nat?_repr n

theorem isNull_scalar (n : Nat) : Format.yaml.isNull (Outline.scalar n.repr).node = false := by
  rw [Outline.node]
  exact isNull_repr n

theorem bool?_scalar (b : Bool) :
    Format.yaml.bool? (Outline.scalar (if b then "true" else "false")).node = some b := by
  rw [Outline.node]
  cases b <;> rfl

theorem word64?_scalar (w : UInt64) :
    Format.yaml.word64? (Outline.scalar w.toNat.repr).node = some w := by
  rw [Format.word64?, nat?_scalar, Option.bind_some, word64?_toNat]

theorem word32?_scalar (w : UInt32) :
    Format.yaml.word32? (Outline.scalar w.toNat.repr).node = some w := by
  rw [Format.word32?, nat?_scalar, Option.bind_some, word32?_toNat]

end Yaml

theorem NetworkTaintConfig.decode?_outline (c : NetworkTaintConfig) :
    decode? Format.yaml (Outline.fields c.outline).node = some c := by
  have hnode : (Outline.fields c.outline).node = .map none (Outline.nodesOf c.outline) := by
    rw [Outline.node]
  rw [hnode, decode?]
  simp [record?_nodesOf, outline, onlyFields, optional, field?, listOf?_names, word64?_scalar,
    word32?_scalar]

theorem ReplayConfig.decode?_outline (c : ReplayConfig) (h : c.budget < UInt64.size) :
    decode? Format.yaml (Outline.fields c.outline).node = some c := by
  have hnode : (Outline.fields c.outline).node = .map none (Outline.nodesOf c.outline) := by
    rw [Outline.node]
  have hbudget : Format.yaml.count? (Outline.scalar c.budget.repr).node = some c.budget := by
    rw [Format.count?, nat?_scalar, Option.bind_some, count?, if_pos h]
  rw [hnode, decode?]
  simp [record?_nodesOf, outline, onlyFields, optional, field?, hbudget, bool?_scalar]

namespace Config

theorem version?_outline (version : Option UInt32) :
    version? Format.yaml (Outline.scalar (version.elim "null" fun v => v.toNat.repr)).node =
      some version := by
  cases version with
  | none =>
    rw [Outline.node]
    rfl
  | some v =>
    rw [version?, Option.elim_some, isNull_scalar, word32?_scalar]
    rfl

/-- **The node of its outline decodes to the configuration**, whatever its names. -/
theorem decode?_outline (c : Config) (h : c.replay.budget < UInt64.size) :
    decode? Format.yaml (.map none (Outline.nodesOf c.outline)) = some c := by
  rw [decode?]
  simp [record?_nodesOf, outline, onlyFields, optional, field?, version?_outline, listOf?_names,
    c.networkTaint.decode?_outline, c.replay.decode?_outline h]

end Config

/-! ## Words -/

instance (cs : List Char) : Decidable (IsWord cs) :=
  decidable_of_iff (cs ≠ [] ∧ cs.head? ≠ some '.' ∧ cs.all isWordChar = true)
    ⟨fun h => ⟨h.1, h.2.1, List.all_eq_true.1 h.2.2⟩,
      fun h => ⟨h.nonempty, h.head, List.all_eq_true.2 h.chars⟩⟩

/-- A function name is a word. -/
theorem isWord_of_isIdentifier {s : String} (h : isIdentifier s = true) : IsWord s.toList := by
  unfold isIdentifier at h
  cases hs : s.toList with
  | nil => simp [hs] at h
  | cons c cs =>
    have hstart : ∀ d, startsIdentifier d = true → isWordChar d = true := by
      intro d hd
      simp only [startsIdentifier, isWordChar, Char.isAlphanum] at hd ⊢
      grind
    simp only [hs, Bool.and_eq_true, List.all_eq_true, Bool.or_eq_true] at h
    obtain ⟨hc, hcs⟩ := h
    refine ⟨List.cons_ne_nil c cs, fun hhead => ?_, List.forall_mem_cons.2 ⟨hstart c hc, ?_⟩⟩
    · rw [Option.some.inj hhead] at hc
      revert hc
      decide
    · intro d hd
      rcases hcs d hd with hletter | hdigit
      · exact hstart d hletter
      · exact isWordChar_of_isDigit hdigit

theorem isIdentifier_of_validateNames {field : String} {names : List String}
    (h : validateNames field names = .ok ()) : ∀ s ∈ names, isIdentifier s = true := by
  rw [validateNames] at h
  split at h
  · cases h
  · cases hfind : names.find? (!isIdentifier ·) with
    | some s =>
      rw [hfind] at h
      cases h
    | none =>
      intro s hs
      simpa using List.find?_eq_none.1 hfind s hs

theorem mem_knownCheckers_of_validateEnabled {enabled : List String}
    (h : Config.validateEnabled enabled = .ok ()) : ∀ s ∈ enabled, s ∈ knownCheckers := by
  rw [Config.validateEnabled] at h
  cases hfind : enabled.find? (!knownCheckers.contains ·) with
  | some s =>
    rw [hfind] at h
    cases h
  | none =>
    intro s hs
    simpa using List.find?_eq_none.1 hfind s hs

namespace Config

/-- **A valid configuration is written with words only.** -/
theorem legible_outline {c : Config} (h : c.validate = .ok ()) :
    Outline.LegibleAll c.outline := by
  simp only [validate, NetworkTaintConfig.validate, checks_eq_ok_iff] at h
  obtain ⟨-, henabled, ⟨hsources, hcopySinks, -⟩, -⟩ := h
  have hknown : ∀ s ∈ knownCheckers, IsWord s.toList := by decide
  have henabledWords : ∀ s ∈ c.enabled, IsWord s.toList := fun s hs =>
    hknown s (mem_knownCheckers_of_validateEnabled henabled s hs)
  have hsourceWords : ∀ s ∈ c.networkTaint.sources, IsWord s.toList := fun s hs =>
    isWord_of_isIdentifier (isIdentifier_of_validateNames hsources s hs)
  have hsinkWords : ∀ s ∈ c.networkTaint.copySinks, IsWord s.toList := fun s hs =>
    isWord_of_isIdentifier (isIdentifier_of_validateNames hcopySinks s hs)
  have hversion : IsWord (c.version.elim "null" fun v => v.toNat.repr).toList := by
    cases c.version with
    | none => decide
    | some v => exact isWord_repr v.toNat
  have hparallel : IsWord (if c.replay.isParallel then "true" else "false").toList := by
    split <;> decide
  simp only [outline, NetworkTaintConfig.outline, ReplayConfig.outline, Outline.LegibleAll,
    Outline.Legible]
  refine ⟨⟨by decide, by decide⟩, hversion, ⟨by decide, by decide⟩, henabledWords,
    ⟨by decide, by decide⟩, ⟨by simp, ?_⟩, ⟨by decide, by decide⟩, ⟨by simp, ?_⟩, trivial⟩
  · exact ⟨⟨by decide, by decide⟩, hsourceWords, ⟨by decide, by decide⟩, hsinkWords,
      ⟨by decide, by decide⟩, isWord_repr _, ⟨by decide, by decide⟩, isWord_repr _, trivial⟩
  · exact ⟨⟨by decide, by decide⟩, isWord_repr _, ⟨by decide, by decide⟩, hparallel, trivial⟩

/-- **A valid configuration is read back from its text.** -/
theorem ofYaml_toYaml {c : Config} (h : c.validate = .ok ()) : ofYaml c.toYaml = .ok c := by
  have hbudget : c.replay.budget < UInt64.size := by
    simp only [validate, checks_eq_ok_iff, ReplayConfig.validate, validateRange_eq_ok_iff] at h
    have hgreatest : ReplayConfig.greatestBudget < UInt64.size := by decide
    omega
  have htext : c.toYaml = String.ofList (Outline.textOf 0 c.outline) := by
    rw [← toList_toYaml, String.ofList_toList]
  have hheight : Outline.heightOf c.outline < nestingLimit := by
    simp [outline, NetworkTaintConfig.outline, ReplayConfig.outline, Outline.heightOf,
      Outline.height, nestingLimit]
  have hread : Yaml.read? .whole c.toYaml = some (.map none (Outline.nodesOf c.outline)) := by
    rw [htext]
    exact read?_textOf (List.cons_ne_nil _ _) (legible_outline h) hheight
  have hdecode : (Yaml.read? .whole c.toYaml).bind (decode? Format.yaml) = some c := by
    rw [hread, Option.bind_some, c.decode?_outline hbudget]
  rw [ofYaml, hdecode]
  change c.validate.map (fun _ => c) = .ok c
  rw [h]
  rfl

/-- No checker enabled, functions that go by keywords, and the greatest numbers. -/
def keywordNames : Config where
  enabled := []
  networkTaint :=
    { sources := ["null", "True", "no", "_", "null"]
      copySinks := ["NULL", "false"]
      threshold := 9223372036854775807
      width := 64 }
  replay := { budget := 4096, isParallel := false }

/-- Quotes keep the keywords apart from what they stand for. -/
theorem ofYaml_toYaml_keywordNames :
    keywordNames.validate = .ok () ∧ ofYaml keywordNames.toYaml = .ok keywordNames :=
  ⟨rfl, ofYaml_toYaml rfl⟩

end Config

end TaintReplay
