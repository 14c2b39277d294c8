import Mathlib
import TypedDecl.Catalog.Table

namespace TypedDecl.Name

/-- Word characters, at least one, and the first is no digit. -/
inductive Word : List Char → Prop
  | intro {c : Char} {cs : List Char} (first : isWord c = true) (digit : c.isDigit = false)
      (others : ∀ d ∈ cs, isWord d = true) : Word (c :: cs)

theorem isWord_wordChar (c : Char) : isWord (wordChar c) = true := by
  unfold wordChar
  split
  · assumption
  · rfl

namespace Word

theorem isWord {cs : List Char} (h : Word cs) : ∀ c ∈ cs, isWord c = true := by
  obtain ⟨first, _, others⟩ := h
  exact List.forall_mem_cons.mpr ⟨first, others⟩

theorem head {c : Char} {cs : List Char} (h : Word (c :: cs)) : Name.isWord c = true :=
  h.isWord c List.mem_cons_self

theorem tail {c : Char} {cs : List Char} (h : Word (c :: cs)) :
    ∀ d ∈ cs, Name.isWord d = true := fun d hd => h.isWord d (List.mem_cons_of_mem c hd)

theorem append {a b : List Char} (ha : Word a) (hb : ∀ c ∈ b, Name.isWord c = true) :
    Word (a ++ b) := by
  obtain ⟨first, digit, others⟩ := ha
  apply Word.intro first digit
  intro d hd
  rcases List.mem_append.mp hd with front | back
  · exact others d front
  · exact hb d back

end Word

theorem word_sanitizeChars (cs : List Char) : Word (sanitizeChars cs) := by
  have mapped : ∀ d ∈ cs.map wordChar, isWord d = true := by
    intro d hd
    obtain ⟨c, _, rfl⟩ := List.mem_map.mp hd
    exact isWord_wordChar c
  have underscore : Word ['_'] := .intro rfl rfl (by simp)
  unfold sanitizeChars
  cases hm : cs.map wordChar with
  | nil => exact underscore
  | cons d ds =>
    rw [hm] at mapped
    by_cases digit : d.isDigit = true
    · rw [lead, if_pos digit]
      exact underscore.append mapped
    · rw [lead, if_neg digit]
      obtain ⟨hd, others⟩ := List.forall_mem_cons.mp mapped
      exact .intro hd (by simpa using digit) others

theorem word_sanitize (s : String) : Word (sanitize s).toList := by
  rw [sanitize, String.toList_ofList]
  exact word_sanitizeChars s.toList

/-- A sanitized name can go on from a word. -/
theorem Word.join_sanitize {s : String} (h : Word s.toList) (name : String) :
    Word (s ++ "_" ++ sanitize name).toList := by
  have sign : ∀ c ∈ "_".toList, Name.isWord c = true := by
    intro c hc
    obtain rfl : c = '_' := by simpa using hc
    rfl
  rw [String.toList_append, String.toList_append]
  exact (h.append sign).append (word_sanitize name).isWord

theorem toNat_lt_of_isWord {c : Char} (h : isWord c = true) : c.toNat < 128 := by
  simp only [isWord, Char.isAlphanum, Char.isAlpha, Char.isUpper, Char.isLower, Char.isDigit,
    Bool.or_eq_true, Bool.and_eq_true, decide_eq_true_eq, UInt32.le_iff_toNat_le, ge_iff_le] at h
  rcases h with (letter | digit) | rfl
  · change (65 ≤ c.toNat ∧ c.toNat ≤ 90) ∨ (97 ≤ c.toNat ∧ c.toNat ≤ 122) at letter
    omega
  · change 48 ≤ c.toNat ∧ c.toNat ≤ 57 at digit
    omega
  · decide

end TypedDecl.Name

namespace TypedDecl.Table

open Name (Word)

theorem word_declaredName (withSchema : Bool) (k : TableKey) :
    Word (declaredName withSchema k).toList :=
  Name.word_sanitize _

end TypedDecl.Table
