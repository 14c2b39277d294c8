import Mathlib.Data.List.Induction
import TypedDecl.Proofs.LetterCase

namespace TypedDecl

open Text (SameUpToCase foldCase_eq_iff)

/-- Entries of type maps: native types and what stands for them. -/
abbrev TypeEntries := List (String × String)

namespace TypeEntries

/-- No entry is for this native type. -/
def Lack (entries : TypeEntries) (native : String) : Prop :=
  ∀ e ∈ entries, ¬ SameUpToCase e.1 native

/-- The last entry for this native type has this target. -/
def Last (entries : TypeEntries) (native target : String) : Prop :=
  ∃ before key after, entries = before ++ (key, target) :: after ∧ SameUpToCase key native ∧
    Lack after native

/-- An entry for this native type has this target. -/
def Has (entries : TypeEntries) (native target : String) : Prop :=
  ∃ key, (key, target) ∈ entries ∧ SameUpToCase key native

variable {entries : TypeEntries} {e : String × String} {native target : String}

theorem lack_cons : Lack (e :: entries) native ↔ ¬ SameUpToCase e.1 native ∧ Lack entries native :=
  List.forall_mem_cons

theorem last_cons : Last (e :: entries) native target ↔
    Last entries native target ∨
      Lack entries native ∧ SameUpToCase e.1 native ∧ e.2 = target := by
  constructor
  · rintro ⟨before, key, after, split, same, lack⟩
    rcases List.cons_eq_append_iff.mp split with ⟨rfl, first⟩ | ⟨before, rfl, rfl⟩
    · cases first
      exact .inr ⟨lack, same, rfl⟩
    · exact .inl ⟨before, key, after, rfl, same, lack⟩
  · rintro (⟨before, key, after, rfl, same, lack⟩ | ⟨lack, same, rfl⟩)
    · exact ⟨e :: before, key, after, rfl, same, lack⟩
    · exact ⟨[], e.1, entries, rfl, same, lack⟩

theorem Last.has (h : Last entries native target) : Has entries native target := by
  obtain ⟨before, key, after, rfl, same, -⟩ := h
  exact ⟨key, by simp, same⟩

end TypeEntries

namespace TypeMap

open TypeEntries (Has Lack Last lack_cons last_cons)

variable {native target : String}

theorem get?_insert (m : TypeMap) (key target native : String) :
    (m.insert key target).get? native =
      if SameUpToCase key native then some target else m.get? native := by
  have same : foldCase native = foldCase key ↔ SameUpToCase key native :=
    eq_comm.trans foldCase_eq_iff
  have inserted : (m.insert key target).get? native =
      (m.targets.insert (foldCase key) target).get? (foldCase native) := rfl
  rw [inserted, Dictionary.get?_insert]
  simp only [same]
  rfl

/-- What is put into a map: one entry, or many. -/
inductive Change
  | insert (native target : String)
  | extend (entries : TypeEntries)

def Change.entries : Change → TypeEntries
  | insert native target => [(native, target)]
  | extend entries => entries

def perform (m : TypeMap) : Change → TypeMap
  | .insert native target => m.insert native target
  | .extend entries => m.extend entries

/-- The map after one change and the next. -/
def changed (m : TypeMap) (changes : List Change) : TypeMap := changes.foldl perform m

theorem perform_eq (m : TypeMap) (c : Change) : m.perform c = m.extend c.entries := by
  cases c <;> rfl

theorem extend_append (m : TypeMap) (a b : TypeEntries) :
    m.extend (a ++ b) = (m.extend a).extend b := List.foldl_append

theorem changed_eq (m : TypeMap) (changes : List Change) :
    m.changed changes = m.extend (changes.flatMap Change.entries) := by
  induction changes generalizing m with
  | nil => rfl
  | cons c changes ih =>
    have step : m.changed (c :: changes) = (m.perform c).changed changes := rfl
    rw [step, ih, perform_eq, List.flatMap_cons, extend_append]

/-- After entries are put into a map, the last one for a native type holds; if there is none, what
the map had holds. -/
theorem get?_extend (m : TypeMap) (entries : TypeEntries) :
    (m.extend entries).get? native = some target ↔
      Last entries native target ∨ Lack entries native ∧ m.get? native = some target := by
  induction entries generalizing m with
  | nil =>
    have none_last : ¬ Last [] native target := by
      rintro ⟨before, key, after, split, -⟩
      simp at split
    simp [extend, none_last, Lack]
  | cons e entries ih =>
    have step : m.extend (e :: entries) = (m.insert e.1 e.2).extend entries := rfl
    rw [step, ih, get?_insert, last_cons, lack_cons]
    by_cases same : SameUpToCase e.1 native
    · simp [same]
    · simp [same]

/-- One entry for each of the standard types, in whichever case. -/
theorem get?_standard :
    standard.get? native = some target ↔ Has standardTypes native target := by
  have none_before : empty.get? native = none := rfl
  rw [standard, get?_extend, none_before]
  simp only [reduceCtorEq, and_false, or_false]
  constructor
  · exact Last.has
  · rintro ⟨key, mem, same⟩
    obtain ⟨before, after, split⟩ := List.append_of_mem mem
    refine ⟨before, key, after, split, same, ?_⟩
    intro e other same'
    have apart : standardTypes.Pairwise fun a b => foldCase a.1 ≠ foldCase b.1 := by
      decide +kernel
    rw [split, List.pairwise_append, List.pairwise_cons] at apart
    exact apart.2.1.1 e other (foldCase_eq_iff.mpr (same.trans same'.symm))

section Sizes

/-- The native types in a map. -/
def keys (m : TypeMap) : List String := m.targets.entries.map Prod.fst

theorem mem_keys_insert {m : TypeMap} {key target k : String} :
    k ∈ (m.insert key target).keys ↔ k = foldCase key ∨ k ∈ m.keys := by
  have entries : (m.insert key target).keys =
      foldCase key :: (m.targets.entries.filter (·.1 ≠ foldCase key)).map Prod.fst := rfl
  rw [entries, List.mem_cons, keys, List.mem_map, List.mem_map]
  by_cases new : k = foldCase key
  · simp [new]
  · refine or_congr_right (exists_congr fun e => ?_)
    rw [List.mem_filter]
    grind

theorem mem_keys_extend {m : TypeMap} {entries : TypeEntries} {k : String} :
    k ∈ (m.extend entries).keys ↔ k ∈ m.keys ∨ k ∈ (entries.map Prod.fst).map foldCase := by
  induction entries generalizing m with
  | nil => simp [extend]
  | cons e entries ih =>
    have step : m.extend (e :: entries) = (m.insert e.1 e.2).extend entries := rfl
    rw [step, ih, mem_keys_insert, List.map_cons, List.map_cons, List.mem_cons]
    tauto

/-- Some of the texts, so that each text is the same as one of them and no two of them are, up to
the case of letters A to Z. -/
structure Represents (kinds texts : List String) : Prop where
  apart : kinds.Pairwise fun a b => ¬ SameUpToCase a b
  members : ∀ k ∈ kinds, k ∈ texts
  all : ∀ t ∈ texts, ∃ k ∈ kinds, SameUpToCase k t

/-- So many of the texts differ in more than the case of letters A to Z. -/
def HasKinds (texts : List String) (n : Nat) : Prop :=
  (∃ kinds, Represents kinds texts) ∧ ∀ kinds, Represents kinds texts → kinds.length = n

theorem exists_represents (texts : List String) : ∃ kinds, Represents kinds texts := by
  induction texts with
  | nil => exact ⟨[], .nil, nofun, nofun⟩
  | cons t texts ih =>
    obtain ⟨kinds, apart, members, all⟩ := ih
    by_cases known : ∃ k ∈ kinds, SameUpToCase k t
    · refine ⟨kinds, apart, fun k mem => List.mem_cons_of_mem _ (members k mem), ?_⟩
      exact List.forall_mem_cons.mpr ⟨known, all⟩
    · refine ⟨t :: kinds, List.pairwise_cons.mpr ⟨?_, apart⟩, ?_, ?_⟩
      · intro k mem same
        exact known ⟨k, mem, same.symm⟩
      · intro k mem
        exact List.mem_cons.mpr ((List.mem_cons.mp mem).imp_right (members k))
      · intro u mem
        rcases List.mem_cons.mp mem with rfl | mem
        · exact ⟨u, List.mem_cons_self, .refl u⟩
        · obtain ⟨k, known, same⟩ := all u mem
          exact ⟨k, List.mem_cons_of_mem _ known, same⟩

/-- The keys of the map are, in lower case, what represents the native types of the entries. -/
theorem size_eq {entries : TypeEntries} {kinds : List String}
    (h : Represents kinds (entries.map Prod.fst)) : (empty.extend entries).size = kinds.length := by
  have folded : (kinds.map foldCase).Nodup := by
    rw [List.Nodup, List.pairwise_map]
    exact h.apart.imp fun apart same => apart (foldCase_eq_iff.mp same)
  have same : ∀ k, k ∈ (empty.extend entries).keys ↔ k ∈ kinds.map foldCase := by
    intro k
    have none_before : k ∉ empty.keys := List.not_mem_nil
    rw [mem_keys_extend, or_iff_right none_before, List.mem_map, List.mem_map]
    constructor
    · rintro ⟨t, mem, rfl⟩
      obtain ⟨k, kind, same⟩ := h.all t mem
      exact ⟨k, kind, foldCase_eq_iff.mpr same⟩
    · rintro ⟨k, kind, rfl⟩
      exact ⟨k, h.members k kind, rfl⟩
  have perm := (List.perm_ext_iff_of_nodup (empty.extend entries).targets.distinct folded).mpr same
  calc (empty.extend entries).size
      = (empty.extend entries).keys.length := (List.length_map _).symm
    _ = (kinds.map foldCase).length := perm.length_eq
    _ = kinds.length := List.length_map _

theorem hasKinds_size (entries : TypeEntries) :
    HasKinds (entries.map Prod.fst) (empty.extend entries).size :=
  ⟨exists_represents _, fun _ h => (size_eq h).symm⟩

end Sizes

end TypeMap

end TypedDecl
