import TypedDecl.Proofs.BuiltDirectories

namespace TypedDecl.Directory

open Relation (ReflTransGen)

variable {d x root : Directory} {way : List String}

theorem at?_cons_eq_some {n : String} : d.at? (n :: way) = some x ↔
    ∃ c, d.children.find? (·.name = n) = some c ∧ c.at? way = some x :=
  Option.bind_eq_some_iff

theorem find?_name {ds : List Directory} {c : Directory} (names : (ds.map name).Nodup)
    (hc : c ∈ ds) : ds.find? (·.name = c.name) = some c := by
  induction ds with
  | nil => cases hc
  | cons d ds ih =>
    obtain ⟨fresh, names⟩ := List.nodup_cons.mp names
    rcases List.mem_cons.mp hc with rfl | later
    · simp
    · have other : d.name ≠ c.name := by
        intro same
        rw [same] at fresh
        exact fresh (List.mem_map_of_mem later)
      rw [List.find?_cons_of_neg (by simpa using other)]
      exact ih names later

/-- Where names are not repeated, a way leads to every directory below, and to no others. -/
theorem Unrepeated.reached_iff (h : Unrepeated root) :
    ReflTransGen Child root d ↔ ∃ way, root.at? way = some d := by
  constructor
  · intro reached
    induction reached using ReflTransGen.head_induction_on with
    | refl => exact ⟨[], rfl⟩
    | @head d c below _ ih =>
      obtain ⟨way, led⟩ := ih (h.child below)
      obtain ⟨-, names, -⟩ := h
      exact ⟨c.name :: way, at?_cons_eq_some.mpr ⟨c, find?_name names below, led⟩⟩
  · intro ⟨way, led⟩
    induction way generalizing root with
    | nil =>
      obtain rfl := Option.some.inj led
      exact .refl
    | cons n way ih =>
      obtain ⟨c, found, led⟩ := at?_cons_eq_some.mp led
      have below : Child root c := List.mem_of_find?_eq_some found
      exact (ih (h.child below) led).head below

/-- One directory stands in the place of another at the end of a way, and all else is the same. -/
inductive Replaced (x y : Directory) : List String → Directory → Directory → Prop
  | here : Replaced x y [] x y
  | inside {way : List String} {c c' : Directory} (name : String) (files : List String)
      {front : List Directory} (back : List Directory) (exposed : Bool)
      (others : ∀ b ∈ front, b.name ≠ c.name) (h : Replaced x y way c c') :
      Replaced x y (c.name :: way) (mk name files (front ++ c :: back) exposed)
        (mk name files (front ++ c' :: back) exposed)

theorem updateChild_append {f : Directory → Directory} {front : List Directory} {c : Directory}
    (others : ∀ b ∈ front, b.name ≠ c.name) (back : List Directory) :
    updateChild c.name f (front ++ c :: back) = front ++ f c :: back := by
  induction front with
  | nil => rw [List.nil_append, updateChild, if_pos rfl, List.nil_append]
  | cons b front ih =>
    obtain ⟨here, further⟩ := List.forall_mem_cons.mp others
    rw [List.cons_append, updateChild, if_neg here, ih further, List.cons_append]

/-- A change takes place where the way leads and nowhere else. -/
theorem replaced_updateAt {f : Directory → Directory} (led : d.at? way = some x) :
    Replaced x (f x) way d (d.updateAt f way) := by
  induction way generalizing d with
  | nil =>
    obtain rfl := Option.some.inj led
    exact .here
  | cons n way ih =>
    obtain ⟨name, files, children, exposed⟩ := d
    obtain ⟨c, found, reached⟩ := at?_cons_eq_some.mp led
    obtain ⟨same, front, back, split, before⟩ := List.find?_eq_some_iff_append.mp found
    obtain rfl : c.name = n := of_decide_eq_true same
    obtain rfl : children = front ++ c :: back := split
    have others : ∀ b ∈ front, b.name ≠ c.name := by
      intro b hb
      simpa using before b hb
    have changed : updateAt f (c.name :: way) (mk name files (front ++ c :: back) exposed) =
        mk name files (front ++ updateAt f way c :: back) exposed := by
      rw [updateAt]
      exact congrArg (mk name files · exposed) (updateChild_append others back)
    rw [changed]
    exact .inside name files back exposed others (ih reached)

theorem updateChild_eq_self {f : Directory → Directory} {n : String} {ds : List Directory}
    (same : ∀ c, ds.find? (·.name = n) = some c → f c = c) : updateChild n f ds = ds := by
  induction ds with
  | nil => rfl
  | cons d ds ih =>
    rw [updateChild]
    by_cases own : d.name = n
    · rw [if_pos own, same d (List.find?_cons_of_pos (decide_eq_true own))]
    · rw [if_neg own, ih]
      intro c found
      apply same
      rw [List.find?_cons_of_neg (by simpa using own)]
      exact found

/-- Nothing changes in the tree if nothing does where the way leads, or if it leads nowhere. -/
theorem updateAt_eq_self {f : Directory → Directory}
    (same : ∀ x, d.at? way = some x → f x = x) : d.updateAt f way = d := by
  induction way generalizing d with
  | nil => exact same d rfl
  | cons n way ih =>
    have children : updateChild n (updateAt f way) d.children = d.children := by
      apply updateChild_eq_self
      intro c found
      apply ih
      intro x led
      exact same x (at?_cons_eq_some.mpr ⟨c, found, led⟩)
    rw [updateAt, children]
    cases d
    rfl

theorem updateChild_updateChild {f g : Directory → Directory}
    (keeps : ∀ d, (g d).name = d.name) (n : String) (ds : List Directory) :
    updateChild n f (updateChild n g ds) = updateChild n (fun d => f (g d)) ds := by
  induction ds with
  | nil => rfl
  | cons d ds ih =>
    rw [updateChild, updateChild]
    by_cases same : d.name = n
    · rw [if_pos same, if_pos same, updateChild, if_pos (by rw [keeps, same])]
    · rw [if_neg same, if_neg same, updateChild, if_neg same, ih]

/-- Two changes in one place are one change there. -/
theorem updateAt_updateAt {f g : Directory → Directory} (keeps : ∀ d, (g d).name = d.name)
    (way : List String) (d : Directory) :
    (d.updateAt g way).updateAt f way = d.updateAt (fun d => f (g d)) way := by
  induction way generalizing d with
  | nil => rfl
  | cons n way ih =>
    have joined : (fun d => updateAt f way (updateAt g way d)) =
        updateAt (fun d => f (g d)) way := funext ih
    rw [updateAt, updateAt, updateAt, ← joined]
    exact congrArg (mk d.name d.files · d.exposed)
      (updateChild_updateChild (name_updateAt keeps way) n d.children)

theorem updateChild_map {f : Directory → Directory} {b : String → Directory}
    (own : ∀ n, (b n).name = n) (m : String) {names : List String} (nodup : names.Nodup) :
    updateChild m f (names.map b) = names.map fun n => if n = m then f (b n) else b n := by
  induction names with
  | nil => rfl
  | cons n names ih =>
    obtain ⟨fresh, nodup⟩ := List.nodup_cons.mp nodup
    rw [List.map_cons, List.map_cons, updateChild, own]
    by_cases same : n = m
    · subst same
      rw [if_pos rfl, if_pos rfl]
      congr 1
      apply List.map_congr_left
      intro k hk
      have other : k ≠ n := by
        intro equal
        exact fresh (equal ▸ hk)
      rw [if_neg other]
    · rw [if_neg same, if_neg same, ih nodup]

/-- A file and a subdirectory can be added in either order. -/
theorem addFile_addChild (d c : Directory) (file : String) :
    (d.addChild c).addFile file = (d.addFile file).addChild c := by
  by_cases held : file ∈ d.files
  · rw [addFile_of_mem held, addFile_of_mem (by rwa [files_addChild])]
  · rw [addFile_of_notMem held, addFile_of_notMem (by rwa [files_addChild])]
    by_cases there : c.name ∈ d.children.map name
    · rw [addChild_of_mem there]
      exact (addChild_of_mem (d := mk d.name _ d.children d.exposed) there).symm
    · rw [addChild_of_notMem there]
      exact (addChild_of_notMem (d := mk d.name _ d.children d.exposed) there).symm

end TypedDecl.Directory
