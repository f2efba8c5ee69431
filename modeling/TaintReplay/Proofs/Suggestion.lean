import TaintReplay.Config.Fault
import TaintReplay.Proofs.ByteOrder
import TaintReplay.Proofs.Edits
import Mathlib.Data.Prod.Lex
/-!
# Suggestions — the known name that is offered for an unknown one

A known name is in reach of a name if the edits between the two are at most a third of the
length of the known one, so that each has a limit of its own. Of those in reach the nearest
is suggested, and of equally near ones the first in the order of their bytes
(`unknown_suggests`).

The candidates are the known names in reach with their distances (`mem_candidates_iff`), and
the fold over them finds the least by distance first and name second
(`nearest?_eq_some_iff`). A least element depends on which candidates there are and on
nothing else.
-/

namespace TaintReplay

/-- So many edits turn one text into the other, and no fewer do. -/
def Apart (a b : String) (d : Nat) : Prop := IsLeast {n | Edits n a.toList b.toList} d

theorem apart_iff {a b : String} {d : Nat} : Apart a b d ↔ editDistance a b = d := by
  have hleast : Apart a b (editDistance a b) := by
    rw [Apart, editDistance_eq]
    exact isLeast_levenshtein a.toList b.toList
  exact ⟨hleast.unique, fun h => h ▸ hleast⟩

variable {name k : String} {known known' : List String} {d : Nat}

/-- **The candidates are the known names in reach**, each with its distance. -/
theorem mem_candidates_iff :
    (d, k) ∈ candidates name known ↔ k ∈ known ∧ Apart name k d ∧ d ≤ k.length / 3 := by
  simp only [candidates, List.mem_filter, List.mem_map, Prod.mk.injEq, decide_eq_true_eq,
    apart_iff]
  constructor
  · rintro ⟨⟨k, hk, rfl, rfl⟩, hd⟩
    exact ⟨hk, rfl, hd⟩
  · rintro ⟨hk, rfl, hd⟩
    exact ⟨⟨k, hk, rfl, rfl⟩, hd⟩

/-! ## The least candidate -/

/-- The order of candidates: by distance, and by name at the same distance. -/
theorem nearer_eq_min (a b : Nat × String) : toLex (nearer a b) = min (toLex a) (toLex b) := by
  by_cases h : b.1 < a.1 ∨ b.1 = a.1 ∧ b.2 < a.2
  · rw [nearer, if_pos h, min_eq_right (Prod.Lex.toLex_lt_toLex.2 h).le]
  · rw [nearer, if_neg h, min_eq_left (not_lt.1 fun hlt => h (Prod.Lex.toLex_lt_toLex.1 hlt))]

theorem nearest?_eq_min? (name : String) (known : List String) :
    nearest? name known =
      ((candidates name known).map toLex).min?.map fun c => (ofLex c).2 := by
  rw [nearest?]
  cases candidates name known with
  | nil => rfl
  | cons c cs =>
    have hmin : (cs.map toLex).foldl min (toLex c) = toLex (cs.foldl nearer c) := by
      rw [List.foldl_map]
      exact List.foldl_hom toLex fun x y => (nearer_eq_min x y).symm
    rw [List.map_cons, List.min?_cons', hmin]
    rfl

/-- **What is suggested is the least candidate.** -/
theorem nearest?_eq_some_iff :
    nearest? name known = some k ↔
      ∃ d, (d, k) ∈ candidates name known ∧
        ∀ c ∈ candidates name known, toLex (d, k) ≤ toLex c := by
  simp only [nearest?_eq_min?, Option.map_eq_some_iff, List.min?_eq_some_iff, List.mem_map]
  constructor
  · rintro ⟨_, ⟨⟨⟨d, k⟩, hc, rfl⟩, hle⟩, rfl⟩
    exact ⟨d, hc, fun c hc => hle _ ⟨c, hc, rfl⟩⟩
  · rintro ⟨d, hc, hle⟩
    refine ⟨toLex (d, k), ⟨⟨_, hc, rfl⟩, ?_⟩, rfl⟩
    rintro _ ⟨c, hc, rfl⟩
    exact hle c hc

/-- And nothing is, without candidates. -/
theorem nearest?_eq_none_iff :
    nearest? name known = none ↔ ∀ k ∈ known, ∀ d, Apart name k d → ¬ d ≤ k.length / 3 := by
  rw [nearest?_eq_min?, Option.map_eq_none_iff, List.min?_eq_none_iff, List.map_eq_nil_iff,
    List.eq_nil_iff_forall_not_mem]
  simp only [Prod.forall, mem_candidates_iff, not_and]
  exact ⟨fun h k hk d => h d k hk, fun h d k hk => h k hk d⟩

/-- A candidate that is not smaller is further away, or as far and not before in the order of
bytes. -/
theorem toLex_le_iff {k' : String} {d' : Nat} :
    toLex (d, k) ≤ toLex (d', k') ↔
      d < d' ∨ d = d' ∧ ¬ List.Lex (· < ·) (bytes k') (bytes k) := by
  rw [Prod.Lex.toLex_le_toLex, lex_bytes_iff, not_lt]

/-- **Equally good lists of known names give the same suggestion.** -/
theorem nearest?_congr (h : ∀ k, k ∈ known' ↔ k ∈ known) :
    nearest? name known' = nearest? name known := by
  have hsame : ∀ c, c ∈ candidates name known' ↔ c ∈ candidates name known := by
    rintro ⟨d, k⟩
    rw [mem_candidates_iff, mem_candidates_iff, h]
  refine Option.ext fun k => ?_
  simp only [nearest?_eq_some_iff, hsame]

namespace ConfigFault

/-- **The suggestion is the best known name in reach.** It is a known name, no further from
the name than a third of its own length, and every other known name in reach of its own is
further away, or as far and not before it in the order of bytes. Nothing is suggested exactly
if no known name is in reach. It does not matter in which order, or how often, the known
names are given. -/
theorem unknown_suggests (name : String) (known : List String) :
    (∀ k, unknown name known = unknownChecker name (some k) ↔
      k ∈ known ∧ ∃ d, Apart name k d ∧ d ≤ k.length / 3 ∧
        ∀ k' ∈ known, k' ≠ k → ∀ d', Apart name k' d' → d' ≤ k'.length / 3 →
          d < d' ∨ d = d' ∧ ¬ List.Lex (· < ·) (bytes k') (bytes k)) ∧
      (unknown name known = unknownChecker name none ↔
        ∀ k ∈ known, ∀ d, Apart name k d → ¬ d ≤ k.length / 3) ∧
      ∀ known', (∀ k, k ∈ known' ↔ k ∈ known) → unknown name known' = unknown name known := by
  refine ⟨fun k => ?_, ?_, fun known' h => ?_⟩
  · rw [unknown, unknownChecker.injEq, and_iff_right rfl, nearest?_eq_some_iff]
    constructor
    · rintro ⟨d, hc, hle⟩
      obtain ⟨hk, hd, hreach⟩ := mem_candidates_iff.1 hc
      refine ⟨hk, d, hd, hreach, fun k' hk' _ d' hd' hreach' => ?_⟩
      exact toLex_le_iff.1 (hle _ (mem_candidates_iff.2 ⟨hk', hd', hreach'⟩))
    · rintro ⟨hk, d, hd, hreach, hbest⟩
      refine ⟨d, mem_candidates_iff.2 ⟨hk, hd, hreach⟩, fun ⟨d', k'⟩ hc' => ?_⟩
      obtain ⟨hk', hd', hreach'⟩ := mem_candidates_iff.1 hc'
      by_cases hne : k' = k
      · -- a name given twice is the same candidate
        subst hne
        rw [hd.unique hd']
      · exact toLex_le_iff.2 (hbest k' hk' hne d' hd' hreach')
  · rw [unknown, unknownChecker.injEq, and_iff_right rfl, nearest?_eq_none_iff]
  · rw [unknown, unknown, nearest?_congr h]

/-- Of two names that are equally near the first in order, from a list that is in no order
and repeats one of them. -/
theorem unknown_suggests_htonx :
    let known := ["ntohs", "htons", "htonl", "ntohl", "htons"]
    (∀ k, k ∈ known ↔ k ∈ ["htonl", "htons", "ntohl", "ntohs"]) ∧
      unknown "htonx" known = unknown "htonx" ["htonl", "htons", "ntohl", "ntohs"] ∧
      unknown "htonx" known = unknownChecker "htonx" (some "htonl") := by
  intro known
  have hsame : ∀ k, k ∈ known ↔ k ∈ ["htonl", "htons", "ntohl", "ntohs"] := by
    intro k
    simp only [known, List.mem_cons, List.not_mem_nil, or_false]
    tauto
  exact ⟨hsame, (unknown_suggests "htonx" _).2.2 known hsame, by decide⟩

end ConfigFault

end TaintReplay
