import Mathlib.Data.Finset.Card
import TypedDecl.Dictionary

namespace TypedDecl

section LastMembers

variable {β : Type} {p : β → Prop} {l : List β} {x y : β}

/-- Of the members with a property, this one is the last. -/
def IsLast (p : β → Prop) (l : List β) (x : β) : Prop :=
  ∃ before after, l = before ++ x :: after ∧ p x ∧ ∀ y ∈ after, ¬ p y

theorem isLast_nil : ¬ IsLast p [] x := by
  rintro ⟨before, after, split, -⟩
  simp at split

theorem isLast_cons : IsLast p (y :: l) x ↔ IsLast p l x ∨ (∀ z ∈ l, ¬ p z) ∧ p y ∧ x = y := by
  constructor
  · rintro ⟨before, after, split, own, none⟩
    rcases List.cons_eq_append_iff.mp split with ⟨rfl, first⟩ | ⟨before, rfl, rfl⟩
    · cases first
      exact .inr ⟨none, own, rfl⟩
    · exact .inl ⟨before, after, rfl, own, none⟩
  · rintro (⟨before, after, rfl, own, none⟩ | ⟨none, own, rfl⟩)
    · exact ⟨y :: before, after, rfl, own, none⟩
    · exact ⟨[], l, rfl, own, none⟩

theorem IsLast.mem (h : IsLast p l x) : x ∈ l := by
  obtain ⟨before, after, rfl, -⟩ := h
  simp

theorem IsLast.has (h : IsLast p l x) : p x := by
  obtain ⟨before, after, -, own, -⟩ := h
  exact own

theorem IsLast.append {before : List β} (h : IsLast p l x) : IsLast p (before ++ l) x := by
  obtain ⟨first, after, rfl, own, none⟩ := h
  exact ⟨before ++ first, after, (List.append_assoc ..).symm, own, none⟩

theorem exists_isLast (some : ∃ x ∈ l, p x) : ∃ x, IsLast p l x := by
  induction l with
  | nil => simp at some
  | cons y l ih =>
    by_cases later : ∃ x ∈ l, p x
    · obtain ⟨x, last⟩ := ih later
      exact ⟨x, isLast_cons.mpr (.inl last)⟩
    · obtain ⟨x, mem, own⟩ := some
      have none : ∀ z ∈ l, ¬ p z := fun z mem own => later ⟨z, mem, own⟩
      rcases List.mem_cons.mp mem with rfl | mem
      · exact ⟨x, isLast_cons.mpr (.inr ⟨none, own, rfl⟩)⟩
      · exact absurd own (none x mem)

theorem IsLast.unique (h : IsLast p l x) (h' : IsLast p l y) : x = y := by
  induction l with
  | nil => exact absurd h isLast_nil
  | cons z l ih =>
    rcases isLast_cons.mp h with h | ⟨none, -, rfl⟩
    · rcases isLast_cons.mp h' with h' | ⟨none, -⟩
      · exact ih h h'
      · exact absurd h.has (none x h.mem)
    · rcases isLast_cons.mp h' with h' | ⟨-, -, rfl⟩
      · exact absurd h'.has (none y h'.mem)
      · rfl

end LastMembers

namespace Dictionary

variable {β κ ν : Type} [DecidableEq κ] {key : β → κ} {value : β → ν} {d : Dictionary κ ν}
  {l : List β} {k : κ} {v : ν}

/-- Enters the members of a list one after the other. -/
def fill (key : β → κ) (value : β → ν) (d : Dictionary κ ν) (l : List β) : Dictionary κ ν :=
  l.foldl (fun d x => d.insert (key x) (value x)) d

theorem fill_cons {x : β} : d.fill key value (x :: l) =
    (d.insert (key x) (value x)).fill key value l := rfl

/-- The last member with a key stands under it, and without one what stood there before. -/
theorem get?_fill : (d.fill key value l).get? k = some v ↔
    (∃ x, IsLast (key · = k) l x ∧ value x = v) ∨ (∀ x ∈ l, key x ≠ k) ∧ d.get? k = some v := by
  induction l generalizing d with
  | nil => simp [fill, isLast_nil]
  | cons x l ih =>
    rw [fill_cons, ih, get?_insert]
    simp only [isLast_cons, List.forall_mem_cons]
    by_cases own : key x = k
    · simp only [own]
      grind
    · grind

theorem mem_keys_insert {k' : κ} :
    k' ∈ (d.insert k v).entries.map Prod.fst ↔ k' = k ∨ k' ∈ d.entries.map Prod.fst := by
  simp only [insert, List.map_cons, List.mem_cons, List.mem_map, List.mem_filter]
  grind

theorem mem_keys_fill : k ∈ (d.fill key value l).entries.map Prod.fst ↔
    k ∈ l.map key ∨ k ∈ d.entries.map Prod.fst := by
  induction l generalizing d with
  | nil => simp [fill]
  | cons x l ih =>
    rw [fill_cons, ih, mem_keys_insert, List.map_cons, List.mem_cons]
    tauto

/-- A dictionary that was empty has an entry for each key of the members. -/
theorem size_fill_empty : (empty.fill key value l).size = (l.map key).toFinset.card := by
  have none_before : (empty : Dictionary κ ν).entries.map Prod.fst = [] := rfl
  have same : (l.map key).toFinset = ((empty.fill key value l).entries.map Prod.fst).toFinset := by
    ext k
    rw [List.mem_toFinset, List.mem_toFinset, mem_keys_fill, none_before]
    simp
  rw [same, List.toFinset_card_of_nodup (empty.fill key value l).distinct, List.length_map, size]

end Dictionary

end TypedDecl
