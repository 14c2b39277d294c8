import TypedDecl.Proofs.Distinct

namespace TypedDecl.Declaration

section Members

variable {reserved seen : List String} {m : Member} {ms : List Member} {j : ℕ} {n : String}

/-- The name of the member with this number is reserved, or it was seen before. -/
structure MemberTaken (reserved seen : List String) (ms : List Member) (j : ℕ) (n : String) :
    Prop where
  here : ms[j]?.map Member.name = some n
  taken : n ∈ reserved ∨ n ∈ seen ∨ n ∈ (ms.take j).map Member.name

theorem memberTaken_zero :
    MemberTaken reserved seen (m :: ms) 0 n ↔ m.name = n ∧ (n ∈ reserved ∨ n ∈ seen) := by
  constructor
  · rintro ⟨here, taken⟩
    exact ⟨by simpa using here, by simpa using taken⟩
  · rintro ⟨here, taken⟩
    exact ⟨by simpa using here, by simpa using taken⟩

theorem memberTaken_succ :
    MemberTaken reserved seen (m :: ms) (j + 1) n ↔
      MemberTaken reserved (m.name :: seen) ms j n := by
  constructor
  · rintro ⟨here, taken⟩
    refine ⟨here, ?_⟩
    simp only [List.take_succ_cons, List.map_cons, List.mem_cons] at taken ⊢
    tauto
  · rintro ⟨here, taken⟩
    refine ⟨here, ?_⟩
    simp only [List.take_succ_cons, List.map_cons, List.mem_cons] at taken ⊢
    tauto

/-- The first member with a name that is taken is the one that is found. -/
theorem takenMember?_first (reserved : List String) (ms : List Member) (seen : List String) :
    match takenMember? reserved ms seen with
    | none => ∀ j n, ¬MemberTaken reserved seen ms j n
    | some n => ∃ j, MemberTaken reserved seen ms j n ∧
        ∀ j' n', MemberTaken reserved seen ms j' n' → j ≤ j' := by
  induction ms generalizing seen with
  | nil =>
    rintro j n ⟨here, _⟩
    simp at here
  | cons m ms ih =>
    rw [takenMember?]
    by_cases taken : (reserved.contains m.name || seen.contains m.name) = true
    · have held : m.name ∈ reserved ∨ m.name ∈ seen := by simpa using taken
      rw [if_pos taken]
      exact ⟨0, memberTaken_zero.mpr ⟨rfl, held⟩, fun _ _ _ => Nat.zero_le _⟩
    · have free (n : String) : ¬MemberTaken reserved seen (m :: ms) 0 n := by
        rw [memberTaken_zero]
        rintro ⟨rfl, held⟩
        exact taken (by simpa using held)
      rw [if_neg taken]
      have rest := ih (m.name :: seen)
      cases found : takenMember? reserved ms (m.name :: seen) with
      | none =>
        rw [found] at rest
        rintro (_ | j) n here
        · exact free n here
        · exact rest j n (memberTaken_succ.mp here)
      | some n =>
        rw [found] at rest
        obtain ⟨j, here, first⟩ := rest
        refine ⟨j + 1, memberTaken_succ.mpr here, ?_⟩
        rintro (_ | j') n' other
        · exact absurd other (free n')
        · exact Nat.succ_le_succ (first j' n' (memberTaken_succ.mp other))

end Members

section Names

variable {before : List String} {d : Declaration} {j : ℕ} {e : Error}

/-- A name of a declaration is taken, so that the error is the one over this name. The declaration's
own name has number 0, and those of its members follow; `before` are the names of the declarations
before this one. -/
inductive Taken (before : List String) (d : Declaration) : ℕ → Error → Prop
  | own (known : d.name ∈ before) : Taken before d 0 (.collision d.name .wholeSet)
  | handle (j : ℕ) (m : Member) (here : d.members[j]? = some m) (schema table : String)
      (kind : d.kind = .table schema table) (same : m.name = "__table") :
      Taken before d (j + 1) (.collision m.name (.declaration d.name))
  | member (j : ℕ) (m : Member) (here : d.members[j]? = some m)
      (known : m.name ∈ (d.members.take j).map Member.name) :
      Taken before d (j + 1) (.collision m.name (.declaration d.name))

theorem mem_reserved {n : String} :
    n ∈ d.reserved ↔ (∃ schema table, d.kind = .table schema table) ∧ n = "__table" := by
  cases kind : d.kind <;> simp [reserved, kind, Kind.isTable, handleName]

theorem taken_zero :
    Taken before d 0 e ↔ d.name ∈ before ∧ e = .collision d.name .wholeSet := by
  constructor
  · rintro ⟨known⟩
    exact ⟨known, rfl⟩
  · rintro ⟨known, rfl⟩
    exact .own known

theorem taken_succ :
    Taken before d (j + 1) e ↔
      ∃ n, MemberTaken d.reserved [] d.members j n ∧ e = .collision n (.declaration d.name) := by
  constructor
  · intro taken
    cases taken with
    | handle _ m here schema table kind same =>
      have held : m.name ∈ d.reserved := mem_reserved.mpr ⟨⟨schema, table, kind⟩, same⟩
      exact ⟨m.name, ⟨by rw [here, Option.map_some], .inl held⟩, rfl⟩
    | member _ m here known =>
      exact ⟨m.name, ⟨by rw [here, Option.map_some], .inr (.inr known)⟩, rfl⟩
  · rintro ⟨n, ⟨named, taken⟩, rfl⟩
    obtain ⟨m, here, rfl⟩ := Option.map_eq_some_iff.mp named
    rcases taken with held | unseen | known
    · obtain ⟨⟨schema, table, kind⟩, same⟩ := mem_reserved.mp held
      exact .handle j m here schema table kind same
    · exact absurd unseen List.not_mem_nil
    · exact .member j m here known

theorem Taken.unique {e' : Error} (h : Taken before d j e) (h' : Taken before d j e') : e = e' := by
  cases j with
  | zero =>
    obtain ⟨_, rfl⟩ := taken_zero.mp h
    obtain ⟨_, rfl⟩ := taken_zero.mp h'
    rfl
  | succ j =>
    obtain ⟨n, taken, rfl⟩ := taken_succ.mp h
    obtain ⟨n', taken', rfl⟩ := taken_succ.mp h'
    rw [Option.some.inj (taken.here.symm.trans taken'.here)]

/-- The check of one declaration, given the names of those before. -/
def checkOne (seen : List String) (d : Declaration) : Except Error Unit :=
  if seen.contains d.name then .error (.collision d.name .wholeSet) else d.checkMembers

theorem checkFrom_cons (d : Declaration) (ds : List Declaration) (seen : List String) :
    checkFrom (d :: ds) seen = (checkOne seen d).bind fun _ => checkFrom ds (d.name :: seen) := by
  rw [checkFrom, checkOne]
  split_ifs
  · rfl
  · cases d.checkMembers <;> rfl

/-- The first name of a declaration that is taken is the one that its check fails over. -/
theorem checkOne_first (seen : List String) (d : Declaration) :
    match checkOne seen d with
    | .ok () => ∀ j e, ¬Taken seen.reverse d j e
    | .error e => ∃ j, Taken seen.reverse d j e ∧
        ∀ j' e', Taken seen.reverse d j' e' → j ≤ j' := by
  rw [checkOne]
  by_cases known : seen.contains d.name = true
  · have held : d.name ∈ seen.reverse := by simpa using known
    rw [if_pos known]
    exact ⟨0, .own held, fun _ _ _ => Nat.zero_le _⟩
  · have free (e : Error) : ¬Taken seen.reverse d 0 e := by
      rw [taken_zero]
      rintro ⟨held, _⟩
      exact known (by simpa using held)
    rw [if_neg known, checkMembers]
    have members := takenMember?_first d.reserved d.members []
    cases found : takenMember? d.reserved d.members [] with
    | none =>
      rw [found] at members
      rintro (_ | j) e taken
      · exact free e taken
      · obtain ⟨n, taken, _⟩ := taken_succ.mp taken
        exact members j n taken
    | some n =>
      rw [found] at members
      obtain ⟨j, here, first⟩ := members
      refine ⟨j + 1, taken_succ.mpr ⟨n, here, rfl⟩, ?_⟩
      rintro (_ | j') e' other
      · exact absurd other (free e')
      · obtain ⟨n', other, _⟩ := taken_succ.mp other
        exact Nat.succ_le_succ (first j' n' other)

end Names

section Sets

variable {before : List String} {d : Declaration} {ds : List Declaration} {i j : ℕ} {e : Error}

/-- A name in a list of declarations is taken: the one with number `j` in the declaration with
number `i`. The list follows on declarations with the names `before`. -/
def Violation (before : List String) (ds : List Declaration) (i j : ℕ) (e : Error) : Prop :=
  ∃ d, ds[i]? = some d ∧ Taken (before ++ (ds.take i).map Declaration.name) d j e

/-- The first name that is taken, going through the declarations in order and in each through its
names. -/
structure FirstViolation (before : List String) (ds : List Declaration) (i j : ℕ) (e : Error) :
    Prop where
  here : Violation before ds i j e
  first : ∀ i' j' e', Violation before ds i' j' e' → i < i' ∨ i = i' ∧ j ≤ j'

theorem violation_zero : Violation before (d :: ds) 0 j e ↔ Taken before d j e := by
  simp [Violation]

theorem violation_succ :
    Violation before (d :: ds) (i + 1) j e ↔ Violation (before ++ [d.name]) ds i j e := by
  simp [Violation]

theorem Violation.unique {e' : Error} (h : Violation before ds i j e)
    (h' : Violation before ds i j e') : e = e' := by
  obtain ⟨d, here, taken⟩ := h
  obtain ⟨d', here', taken'⟩ := h'
  obtain rfl : d = d' := Option.some.inj (here.symm.trans here')
  exact taken.unique taken'

theorem FirstViolation.unique {i' j' : ℕ} {e' : Error} (h : FirstViolation before ds i j e)
    (h' : FirstViolation before ds i' j' e') : e = e' := by
  have front := h.first i' j' e' h'.here
  have back := h'.first i j e h.here
  obtain rfl : i = i' := by omega
  obtain rfl : j = j' := by omega
  exact h.here.unique h'.here

/-- The first violation in a list is what the check of it fails over. -/
theorem checkFrom_first (ds : List Declaration) (seen : List String) :
    match checkFrom ds seen with
    | .ok () => ∀ i j e, ¬Violation seen.reverse ds i j e
    | .error e => ∃ i j, FirstViolation seen.reverse ds i j e := by
  induction ds generalizing seen with
  | nil =>
    rintro i j e ⟨d, here, _⟩
    simp at here
  | cons d ds ih =>
    have one := checkOne_first seen d
    have rest := ih (d.name :: seen)
    rw [List.reverse_cons] at rest
    rw [checkFrom_cons]
    cases checked : checkOne seen d with
    | error e =>
      rw [checked] at one
      obtain ⟨j, here, first⟩ := one
      refine ⟨0, j, violation_zero.mpr here, ?_⟩
      rintro (_ | i') j' e' other
      · exact .inr ⟨rfl, first j' e' (violation_zero.mp other)⟩
      · exact .inl (Nat.succ_pos i')
    | ok u =>
      rw [checked] at one
      rw [Except.bind]
      cases found : checkFrom ds (d.name :: seen) with
      | error e =>
        rw [found] at rest
        obtain ⟨i, j, here, first⟩ := rest
        refine ⟨i + 1, j, violation_succ.mpr here, ?_⟩
        rintro (_ | i') j' e' other
        · exact absurd (violation_zero.mp other) (one j' e')
        · have behind := first i' j' e' (violation_succ.mp other)
          omega
      | ok u =>
        rw [found] at rest
        rintro (_ | i) j e here
        · exact one j e (violation_zero.mp here)
        · exact rest i j e (violation_succ.mp here)

end Sets

theorem membersDistinct_iff {d : Declaration} :
    d.MembersDistinct ↔ (d.members.map Member.name).Nodup ∧
      ∀ schema table, d.kind = .table schema table → ∀ m ∈ d.members, m.name ≠ "__table" := by
  simp only [MembersDistinct, mem_reserved]
  refine and_congr_right fun _ => ?_
  constructor
  · intro free schema table kind m hm same
    exact free m hm ⟨⟨schema, table, kind⟩, same⟩
  · rintro free m hm ⟨⟨schema, table, kind⟩, same⟩
    exact free schema table kind m hm same

/-- A set of declarations passes the check exactly if the names in it are different where they have
to be, and otherwise the check fails over the first name that is taken. -/
theorem checkDistinct_outcome (ds : List Declaration) :
    (checkDistinct ds = .ok () ↔
      (ds.map Declaration.name).Nodup ∧ (∀ d ∈ ds, (d.members.map Member.name).Nodup) ∧
        ∀ d ∈ ds, ∀ schema table, d.kind = .table schema table →
          ∀ m ∈ d.members, m.name ≠ "__table") ∧
    (∀ e, checkDistinct ds = .error e ↔ ∃ i j, FirstViolation [] ds i j e) ∧
    Scope.wholeSet.message = "the generated set" ∧
    ∀ n, (Scope.declaration n).message = "class '" ++ n ++ "'" := by
  have outcome := checkFrom_first ds []
  rw [List.reverse_nil] at outcome
  refine ⟨?_, ?_, rfl, fun n => rfl⟩
  · rw [checkDistinct_eq_ok, Distinct]
    simp only [membersDistinct_iff, forall_and]
  · intro e
    rw [checkDistinct]
    cases found : checkFrom ds [] with
    | ok u =>
      rw [found] at outcome
      refine iff_of_false (by simp) ?_
      rintro ⟨i, j, first⟩
      exact outcome i j e first.here
    | error e' =>
      rw [found] at outcome
      obtain ⟨i, j, first⟩ := outcome
      rw [Except.error.injEq]
      constructor
      · rintro rfl
        exact ⟨i, j, first⟩
      · rintro ⟨i', j', first'⟩
        exact first.unique first'

/-- A member of the first declaration comes before the name of the second. -/
example : checkDistinct [⟨"Posts", .table "dbo" "Posts", [⟨"__table", "A", "a"⟩]⟩,
    ⟨"Posts", .registry, []⟩] = .error (.collision "__table" (.declaration "Posts")) := by
  rfl

end TypedDecl.Declaration
