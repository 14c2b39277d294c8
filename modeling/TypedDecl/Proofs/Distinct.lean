import Mathlib.Data.List.Nodup
import TypedDecl.Declaration.Distinct

namespace TypedDecl.Declaration

/-- The names of a list are different, and none of them was seen before. -/
def Fresh {α : Type} (name : α → String) (xs : List α) (seen : List String) : Prop :=
  (xs.map name).Nodup ∧ ∀ x ∈ xs, name x ∉ seen

theorem fresh_cons {α : Type} {name : α → String} {x : α} {xs : List α} {seen : List String} :
    Fresh name (x :: xs) seen ↔ name x ∉ seen ∧ Fresh name xs (name x :: seen) := by
  simp only [Fresh, List.map_cons, List.nodup_cons, List.mem_map, List.forall_mem_cons]
  constructor
  · intro h
    rcases h with ⟨⟨other, nodup⟩, first, others⟩
    refine ⟨first, nodup, ?_⟩
    intro y hy hs
    rcases List.mem_cons.mp hs with he | hs
    · exact other ⟨y, hy, he⟩
    · exact others y hy hs
  · intro h
    rcases h with ⟨first, nodup, others⟩
    refine ⟨⟨?_, nodup⟩, first, ?_⟩
    · intro h
      rcases h with ⟨y, hy, he⟩
      apply others y hy
      rw [he]
      exact List.mem_cons_self
    · intro y hy hs
      exact others y hy (List.mem_cons_of_mem _ hs)

theorem takenMember?_eq_none {reserved : List String} {ms : List Member} {seen : List String} :
    takenMember? reserved ms seen = none ↔
      Fresh Member.name ms seen ∧ ∀ m ∈ ms, m.name ∉ reserved := by
  induction ms generalizing seen with
  | nil => simp [takenMember?, Fresh]
  | cons m ms ih =>
    rw [takenMember?, fresh_cons, List.forall_mem_cons]
    by_cases taken : (reserved.contains m.name || seen.contains m.name) = true
    · have held : m.name ∈ reserved ∨ m.name ∈ seen := by simpa using taken
      rw [if_pos taken]
      constructor
      · intro h
        cases h
      · rintro ⟨⟨unseen, _⟩, unreserved, _⟩
        exact absurd held (not_or.mpr ⟨unreserved, unseen⟩)
    · have free : m.name ∉ reserved ∧ m.name ∉ seen := by simpa using taken
      rw [if_neg taken, ih]
      tauto

/-- The members of a declaration have different names, none of which is reserved. -/
def MembersDistinct (d : Declaration) : Prop :=
  (d.members.map Member.name).Nodup ∧ ∀ m ∈ d.members, m.name ∉ d.reserved

theorem checkMembers_eq_ok {d : Declaration} : d.checkMembers = .ok () ↔ d.MembersDistinct := by
  have none : takenMember? d.reserved d.members [] = none ↔ d.MembersDistinct := by
    simp [takenMember?_eq_none, MembersDistinct, Fresh]
  rw [checkMembers, ← none]
  cases takenMember? d.reserved d.members [] <;> simp

theorem checkFrom_eq_ok {ds : List Declaration} {seen : List String} :
    checkFrom ds seen = .ok () ↔
      Fresh Declaration.name ds seen ∧ ∀ d ∈ ds, d.MembersDistinct := by
  induction ds generalizing seen with
  | nil => simp [checkFrom, Fresh]
  | cons d ds ih =>
    rw [checkFrom, fresh_cons, List.forall_mem_cons, ← checkMembers_eq_ok]
    by_cases taken : seen.contains d.name = true
    · have held : d.name ∈ seen := by simpa using taken
      simp [held]
    · have fresh : d.name ∉ seen := by simpa using taken
      rw [if_neg taken]
      cases d.checkMembers with
      | error e => simp
      | ok u => simp [ih, fresh]

/-- The names in a set of declarations are different where they have to be. -/
def Distinct (ds : List Declaration) : Prop :=
  (ds.map Declaration.name).Nodup ∧ ∀ d ∈ ds, d.MembersDistinct

theorem checkDistinct_eq_ok {ds : List Declaration} : checkDistinct ds = .ok () ↔ Distinct ds := by
  simp [checkDistinct, checkFrom_eq_ok, Distinct, Fresh]

theorem checkFrom_error {ds : List Declaration} {seen : List String} {e : Error}
    (h : checkFrom ds seen = .error e) : ∃ name scope, e = .collision name scope := by
  induction ds generalizing seen with
  | nil => cases h
  | cons d ds ih =>
    rw [checkFrom] at h
    split at h
    · cases h
      exact ⟨d.name, .wholeSet, rfl⟩
    · cases hm : d.checkMembers with
      | error e' =>
        rw [hm] at h
        cases h
        unfold checkMembers at hm
        split at hm
        · cases hm
          exact ⟨_, _, rfl⟩
        · cases hm
      | ok u =>
        rw [hm] at h
        exact ih h

/-- Either the names are different, or the check fails over one of them. -/
theorem checkDistinct_error {ds : List Declaration} (h : ¬Distinct ds) :
    ∃ name scope, checkDistinct ds = .error (.collision name scope) := by
  cases hc : checkDistinct ds with
  | ok u => exact absurd (checkDistinct_eq_ok.mp hc) h
  | error e =>
    obtain ⟨name, scope, rfl⟩ := checkFrom_error hc
    exact ⟨name, scope, rfl⟩

end TypedDecl.Declaration
