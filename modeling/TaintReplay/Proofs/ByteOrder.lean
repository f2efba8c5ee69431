import Mathlib.Data.String.Basic
/-!
# The order of bytes — texts compare as their bytes do

Texts are ordered character by character. Written in UTF-8 they are ordered byte by byte,
and that is the same order (`lex_bytes_iff`): of two characters the greater one has the
greater byte where their bytes first differ, whatever comes after them
(`lex_append_of_lt`).
-/

namespace TaintReplay

/-- The bytes of a text in UTF-8. -/
def bytes (s : String) : List UInt8 := s.toByteArray.data.toList

/-- They are those of its characters. -/
theorem bytes_eq (s : String) : bytes s = s.toList.flatMap String.utf8EncodeChar := by
  rw [bytes, ← String.utf8Encode_toList, List.utf8Encode, List.toList_data_toByteArray]

theorem lex_ofNat_cons_iff {a b : Nat} (ha : a < 256) (hb : b < 256) (xs ys : List UInt8) :
    List.Lex (· < ·) (UInt8.ofNat a :: xs) (UInt8.ofNat b :: ys) ↔
      a < b ∨ a = b ∧ List.Lex (· < ·) xs ys := by
  rw [List.cons_lex_cons_iff, UInt8.lt_iff_toNat_lt, ← UInt8.toNat_inj,
    UInt8.toNat_ofNat_of_lt' ha, UInt8.toNat_ofNat_of_lt' hb]

/-- **Of two characters the smaller has the smaller bytes**, and no bytes of a character
begin those of another, so that it does not matter what comes after them. -/
theorem lex_append_of_lt {c d : Char} (h : c < d) (xs ys : List UInt8) :
    List.Lex (· < ·) (String.utf8EncodeChar c ++ xs) (String.utf8EncodeChar d ++ ys) := by
  have hval : c.val.toNat < d.val.toNat := h
  have hbound : d.val.toNat < 1114112 := by
    have hvalid := d.valid
    simp only [UInt32.isValidChar, Nat.isValidChar] at hvalid
    omega
  have hquot : ∀ n : Nat, n / 4096 = n / 64 / 64 ∧ n / 262144 = n / 64 / 64 / 64 := by omega
  simp only [String.utf8EncodeChar, hquot]
  -- a character of more bytes has the greater first byte; at the same size the bytes are
  -- digits, and where the first digits that differ stand, `xs` and `ys` do not matter
  by_cases hrest : List.Lex (· < ·) xs ys
  all_goals
    split_ifs
    all_goals
      simp (disch := omega) only [List.cons_append, List.nil_append, lex_ofNat_cons_iff, hrest]
      omega

/-- So texts keep their order when they are written as bytes. -/
theorem lex_flatMap_of_lex {cs ds : List Char} (h : List.Lex (· < ·) cs ds) :
    List.Lex (· < ·) (cs.flatMap String.utf8EncodeChar) (ds.flatMap String.utf8EncodeChar) := by
  induction h with
  | @nil d ds =>
    obtain ⟨b, bs, hd⟩ := List.exists_cons_of_ne_nil (String.utf8EncodeChar_ne_nil (c := d))
    rw [List.flatMap_cons, hd]
    exact .nil
  | cons _ ih =>
    rw [List.flatMap_cons, List.flatMap_cons]
    exact List.Lex.append_left _ ih _
  | rel hlt =>
    rw [List.flatMap_cons, List.flatMap_cons]
    exact lex_append_of_lt hlt _ _

/-- **Texts are in the order of their bytes.** -/
theorem lex_bytes_iff {s t : String} : List.Lex (· < ·) (bytes s) (bytes t) ↔ s < t := by
  have hforth : ∀ {s t : String}, s < t → List.Lex (· < ·) (bytes s) (bytes t) := by
    intro s t h
    rw [bytes_eq, bytes_eq]
    exact lex_flatMap_of_lex (String.lt_iff_toList_lt.1 h)
  refine ⟨fun h => ?_, hforth⟩
  rcases lt_trichotomy s t with hlt | rfl | hgt
  · exact hlt
  · exact absurd h (List.lex_irrefl (fun b => UInt8.lt_irrefl b) _)
  · exact absurd h (List.lex_asymm (fun h => UInt8.lt_asymm h) (hforth hgt))

end TaintReplay
