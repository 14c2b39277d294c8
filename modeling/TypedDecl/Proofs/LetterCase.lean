import Mathlib.Data.List.Forall2
import TypedDecl.Catalog.TypeMap

namespace TypedDecl

namespace Text

/-- A letter A to Z and the same letter of the lower case. -/
structure CaseOf (upper lower : Char) : Prop where
  first : 'A' ≤ upper
  last : upper ≤ 'Z'
  lower : lower.toNat = upper.toNat + 32

/-- The same character, but for the case of a letter A to Z. -/
def SameLetter (c d : Char) : Prop := c = d ∨ CaseOf c d ∨ CaseOf d c

/-- The same text, but for the case of its letters A to Z. -/
def SameUpToCase (a b : String) : Prop := List.Forall₂ SameLetter a.toList b.toList

theorem le_iff_toNat {c d : Char} : c ≤ d ↔ c.toNat ≤ d.toNat := UInt32.le_iff_toNat_le

theorem caseOf_iff {c d : Char} :
    CaseOf c d ↔ 65 ≤ c.toNat ∧ c.toNat ≤ 90 ∧ d.toNat = c.toNat + 32 :=
  ⟨fun ⟨first, last, lower⟩ => ⟨le_iff_toNat.mp first, le_iff_toNat.mp last, lower⟩,
    fun ⟨first, last, lower⟩ => ⟨le_iff_toNat.mpr first, le_iff_toNat.mpr last, lower⟩⟩

theorem toNat_toLower (c : Char) :
    c.toLower.toNat = if 65 ≤ c.toNat ∧ c.toNat ≤ 90 then c.toNat + 32 else c.toNat := by
  have apart : ('a'.val - 'A'.val).toNat = 32 := rfl
  unfold Char.toLower
  simp only [ge_iff_le, UInt32.le_iff_toNat_le]
  change _ = if 'A'.val.toNat ≤ c.val.toNat ∧ c.val.toNat ≤ 'Z'.val.toNat then _ else _
  split
  · rename_i upper
    have small : c.toNat ≤ 90 := upper.2
    change (c.val + _).toNat = _
    rw [UInt32.toNat_add, apart]
    change (c.toNat + 32) % 2 ^ 32 = _
    omega
  · rfl

theorem toLower_eq_iff {c d : Char} : c.toLower = d.toLower ↔ SameLetter c d := by
  rw [SameLetter, caseOf_iff, caseOf_iff, ← Char.toNat_inj, ← Char.toNat_inj, toNat_toLower,
    toNat_toLower]
  split <;> split <;> omega

instance (c d : Char) : Decidable (SameLetter c d) := decidable_of_iff _ toLower_eq_iff

theorem foldCase_eq_iff {a b : String} : foldCase a = foldCase b ↔ SameUpToCase a b := by
  have letters : List.Forall₂ (fun c d : Char => c.toLower = d.toLower) a.toList b.toList ↔
      SameUpToCase a b := by
    simp only [toLower_eq_iff]
    rfl
  rw [foldCase, foldCase, String.ofList_inj, ← letters, ← List.forall₂_eq_eq_eq]
  exact List.forall₂_map_left_iff.trans List.forall₂_map_right_iff

instance (a b : String) : Decidable (SameUpToCase a b) := decidable_of_iff _ foldCase_eq_iff

theorem SameUpToCase.refl (a : String) : SameUpToCase a a := foldCase_eq_iff.mp rfl

theorem SameUpToCase.symm {a b : String} (h : SameUpToCase a b) : SameUpToCase b a :=
  foldCase_eq_iff.mp (foldCase_eq_iff.mpr h).symm

theorem SameUpToCase.trans {a b c : String} (h : SameUpToCase a b) (h' : SameUpToCase b c) :
    SameUpToCase a c :=
  foldCase_eq_iff.mp ((foldCase_eq_iff.mpr h).trans (foldCase_eq_iff.mpr h'))

end Text

end TypedDecl
