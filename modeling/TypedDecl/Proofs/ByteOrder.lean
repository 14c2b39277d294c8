import Mathlib.Data.String.Basic

namespace TypedDecl.Text

/-- The bytes of a text in UTF-8. -/
def bytes (s : String) : List UInt8 := s.toUTF8.data.toList

theorem bytes_eq (s : String) : bytes s = s.toList.flatMap String.utf8EncodeChar := by
  have encoded : s.toUTF8 = s.toList.utf8Encode := by
    conv_lhs => rw [← String.ofList_toList (s := s)]
    rfl
  rw [bytes, encoded]
  simp [List.utf8Encode]

theorem utf8EncodeChar_append_lt {c d : Char} (h : c < d) (s t : List UInt8) :
    String.utf8EncodeChar c ++ s < String.utf8EncodeChar d ++ t := by
  have less : c.val.toNat < d.val.toNat := h
  have limit : d.val.toNat < 0x110000 := by
    rcases d.valid with low | high
    · have : d.val.toNat < 0xd800 := low
      omega
    · exact high.2
  -- With each group of six bits a quotient by 64, the digits of the two numbers compare.
  have thirds (n : Nat) : n / 4096 = n / 64 / 64 := by omega
  have fourths (n : Nat) : n / 262144 = n / 64 / 64 / 64 := by omega
  unfold String.utf8EncodeChar
  dsimp only
  split_ifs <;>
    simp only [List.cons_append, List.nil_append, List.cons_lt_cons_iff, UInt8.lt_iff_toNat_lt,
      ← UInt8.toNat_inj, UInt8.toNat_ofNat'] <;>
    simp (disch := omega) only [Nat.mod_eq_of_lt (b := 2 ^ 8), thirds, fourths] <;>
    omega

theorem flatMap_utf8EncodeChar_lt {a b : List Char} (h : a < b) :
    a.flatMap String.utf8EncodeChar < b.flatMap String.utf8EncodeChar := by
  induction a generalizing b with
  | nil =>
    cases b with
    | nil => exact absurd h (List.lt_irrefl _)
    | cons d b =>
      have some_byte : 0 < (String.utf8EncodeChar d).length := by
        rw [String.length_utf8EncodeChar]
        exact Char.utf8Size_pos d
      obtain ⟨x, xs, first⟩ := List.exists_cons_of_length_pos some_byte
      simp [first]
  | cons c a ih =>
    cases b with
    | nil => exact absurd h (List.not_lt_nil _)
    | cons d b =>
      rcases List.cons_lt_cons_iff.mp h with first | ⟨rfl, rest⟩
      · exact utf8EncodeChar_append_lt first _ _
      · exact List.append_left_lt (ih rest)

theorem bytes_lt {a b : String} (h : a < b) : bytes a < bytes b := by
  rw [bytes_eq, bytes_eq]
  exact flatMap_utf8EncodeChar_lt (String.lt_iff.mp h)

/-- The order of texts is that of their bytes. -/
theorem lt_iff_bytes_lt {a b : String} : a < b ↔ bytes a < bytes b := by
  refine ⟨bytes_lt, fun h => ?_⟩
  rcases lt_trichotomy a b with less | same | greater
  · exact less
  · exact absurd (same ▸ h) (List.lt_irrefl _)
  · exact absurd (bytes_lt greater) (List.lt_asymm h)

/-- Names of which each has larger bytes than those before it. -/
def Increasing (names : List String) : Prop := names.Pairwise fun a b => bytes a < bytes b

theorem increasing_iff {names : List String} : Increasing names ↔ names.Pairwise (· < ·) := by
  simp only [Increasing, lt_iff_bytes_lt]

theorem Increasing.nodup {names : List String} (h : Increasing names) : names.Nodup :=
  (increasing_iff.mp h).imp fun less => ne_of_lt less

/-- Entries with different names, sorted by them. -/
theorem increasing_mergeSort {β : Type} {entries : List (String × β)}
    (names : (entries.map Prod.fst).Nodup) :
    Increasing ((entries.mergeSort fun a b => decide (a.1 ≤ b.1)).map Prod.fst) := by
  have perm := List.mergeSort_perm entries fun a b => decide (a.1 ≤ b.1)
  have different := (perm.map Prod.fst).nodup_iff.mpr names
  have sorted : (entries.mergeSort fun a b => decide (a.1 ≤ b.1)).Pairwise
      fun a b => decide (a.1 ≤ b.1) = true := by
    apply List.pairwise_mergeSort
    · intro a b c hab hbc
      rw [decide_eq_true_eq] at hab hbc ⊢
      exact le_trans hab hbc
    · intro a b
      rw [Bool.or_eq_true, decide_eq_true_eq, decide_eq_true_eq]
      exact le_total a.1 b.1
  rw [List.Nodup, List.pairwise_map] at different
  rw [increasing_iff, List.pairwise_map]
  exact (sorted.and different).imp fun both => lt_of_le_of_ne (decide_eq_true_eq.mp both.1) both.2

/-- Names in this order are told by what they are. -/
theorem Increasing.eq_of_mem_iff {a b : List String} (ha : Increasing a) (hb : Increasing b)
    (same : ∀ n, n ∈ a ↔ n ∈ b) : a = b := by
  have perm : a.Perm b := (List.perm_ext_iff_of_nodup ha.nodup hb.nodup).mpr same
  refine perm.eq_of_pairwise (fun m n _ _ less greater => ?_) (increasing_iff.mp ha)
    (increasing_iff.mp hb)
  exact absurd less (lt_asymm greater)

end TypedDecl.Text
