import Mathlib.Data.List.Induction
import Mathlib.Data.List.Nodup

namespace TypedDecl

variable {α : Type} [DecidableEq α]

/-- What is kept of a list: its members, in the order in which they came first. -/
structure FirstsOf (given kept : List α) : Prop where
  mem : ∀ a, a ∈ kept ↔ a ∈ given
  order : kept.Pairwise fun a b => given.idxOf a < given.idxOf b

theorem eraseDups_append_singleton (l : List α) (a : α) :
    (l ++ [a]).eraseDups = if a ∈ l then l.eraseDups else l.eraseDups ++ [a] := by
  rw [List.eraseDups_append]
  split_ifs with known
  · simp [List.removeAll, known]
  · simp [List.removeAll, known, List.eraseDups_cons]

theorem nodup_eraseDups (l : List α) : l.eraseDups.Nodup := by
  induction l using List.reverseRecOn with
  | nil => exact List.nodup_nil
  | append_singleton l a ih =>
    rw [eraseDups_append_singleton]
    split_ifs with known
    · exact ih
    · rw [← List.concat_eq_append]
      apply ih.concat
      rw [List.mem_eraseDups]
      exact known

theorem firstsOf_eraseDups (l : List α) : FirstsOf l l.eraseDups := by
  refine ⟨fun a => List.mem_eraseDups, ?_⟩
  induction l using List.reverseRecOn with
  | nil => exact .nil
  | append_singleton l a ih =>
    have place {b : α} (hb : b ∈ l.eraseDups) : (l ++ [a]).idxOf b = l.idxOf b :=
      List.idxOf_append_of_mem (List.mem_eraseDups.mp hb)
    have old : l.eraseDups.Pairwise fun b c => (l ++ [a]).idxOf b < (l ++ [a]).idxOf c := by
      apply ih.imp_of_mem
      intro b c hb hc before
      rw [place hb, place hc]
      exact before
    rw [eraseDups_append_singleton]
    split_ifs with known
    · exact old
    · refine List.pairwise_append.mpr ⟨old, List.pairwise_singleton _ _, ?_⟩
      intro b hb c hc
      obtain rfl := List.mem_singleton.mp hc
      have last : (l ++ [c]).idxOf c = l.length := by
        rw [List.idxOf_append_of_notMem known]
        simp
      rw [place hb, last]
      exact List.idxOf_lt_length_of_mem (List.mem_eraseDups.mp hb)

end TypedDecl
