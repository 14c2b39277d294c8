import TypedDecl.Proofs.Files.Passages
import TypedDecl.Proofs.Scans

namespace TypedDecl

open Files (Node)

namespace Files.Node

section Names

variable {top new made after : Node} {path text : String} {place : List String}

theorem nodup_putEntry (name : String) (new : Node) {es : List (String × Node)}
    (h : (es.map Prod.fst).Nodup) :
    ((putEntry name new es).map Prod.fst).Nodup ∧
      ∀ x ∈ putEntry name new es, x ∈ es ∨ x = (name, new) := by
  induction es with
  | nil => simp [putEntry]
  | cons e es ih =>
    obtain ⟨m, n⟩ := e
    rw [List.map_cons, List.nodup_cons] at h
    obtain ⟨nodup, each⟩ := ih h.2
    by_cases same : m = name
    · subst same
      simp only [putEntry, if_true, List.map_cons, List.nodup_cons, List.mem_cons]
      exact ⟨h, fun x hx => hx.symm.imp_left .inr⟩
    · simp only [putEntry, same, if_false, List.map_cons, List.nodup_cons, List.mem_cons]
      refine ⟨⟨fun mem => ?_, nodup⟩, fun x hx => ?_⟩
      · obtain ⟨x, hx, rfl⟩ := List.mem_map.mp mem
        rcases each x hx with old | rfl
        · exact h.1 (List.mem_map.mpr ⟨x, old, rfl⟩)
        · exact same rfl
      · rcases hx with first | later
        · exact .inl (.inl first)
        · exact (each x later).imp_left .inr

theorem wellNamed_putAt (h : top.wellNamed = true) (fresh : new.wellNamed = true)
    (names : ∀ m ∈ place, '/' ∉ m.toList) : (putAt new place top).wellNamed = true := by
  induction place generalizing top with
  | nil => exact fresh
  | cons m place ih =>
    rw [List.forall_mem_cons] at names
    obtain ⟨es, put, entries⟩ : ∃ es, putAt new (m :: place) top =
        directory (putEntry m (putAt new place ((es.lookup m).getD empty)) es) ∧
        (directory es).wellNamed = true := by
      cases top with
      | directory es => exact ⟨es, rfl, h⟩
      | file content | link target => exact ⟨[], rfl, rfl⟩
    rw [put]
    rw [wellNamed_directory] at entries ⊢
    obtain ⟨nodup, each⟩ :=
      nodup_putEntry m (putAt new place ((es.lookup m).getD empty)) entries.1
    refine ⟨nodup, fun x hx => ?_⟩
    rcases each x hx with old | rfl
    · exact entries.2 x old
    · refine ⟨names.1, ih ?_ names.2⟩
      cases found : es.lookup m with
      | none => rfl
      | some n => exact (entries.2 _ ((child?_eq_some entries.1).mp found)).2

theorem wellNamed_makeDirectory {base parts : List String} (h : top.wellNamed = true)
    (names : ∀ m ∈ parts, '/' ∉ m.toList) (made : top.makeDirectory base parts = .ok new) :
    new.wellNamed = true := by
  obtain ⟨above, name, dir, rfl, -, inside, -, -, -, rfl⟩ := makeDirectory_ok made
  obtain ⟨es, here⟩ := exists_of_isDirectory inside
  refine wellNamed_putAt h rfl fun m hm => ?_
  rcases List.mem_append.mp hm with own | last
  · exact (wellNamed_at? h here).2 m own
  · exact names m (List.mem_append_right above last)

theorem wellNamed_makeDirectories {base parts : List String} (h : top.wellNamed = true)
    (names : ∀ m ∈ parts, '/' ∉ m.toList) :
    (top.makeDirectories base parts).1.wellNamed = true := by
  induction parts generalizing top with
  | nil => exact h
  | cons name above ih =>
    have all : ∀ m ∈ (name :: above).reverse, '/' ∉ m.toList :=
      fun m hm => names m (List.mem_reverse.mp hm)
    have outer := ih h (List.forall_mem_cons.mp names).2
    rw [makeDirectories]
    split
    · next made => exact wellNamed_makeDirectory h all made
    · split
      · next ran =>
        rw [ran] at outer
        exact outer
      · next ran =>
        rw [ran] at outer
        split
        · next made => exact wellNamed_makeDirectory outer all made
        · exact outer
    · exact h

theorem not_mem_splitGo {acc cs : List Char} (h : '/' ∉ acc) :
    ∀ part ∈ Path.splitGo acc cs, '/' ∉ part := by
  induction cs generalizing acc with
  | nil => simpa [Path.splitGo] using h
  | cons c cs ih =>
    rw [Path.splitGo]
    split
    · exact List.forall_mem_cons.mpr ⟨by simpa using h, ih (by simp)⟩
    · next other => exact ih (by simp [h, Ne.symm other])

/-- Between the slashes of a path there are none. -/
theorem not_mem_names {m : String} {path : String}
    (h : m ∈ ((Path.splitGo [] path.toList).filter (!·.isEmpty)).map String.ofList) :
    '/' ∉ m.toList := by
  obtain ⟨part, mem, rfl⟩ := List.mem_map.mp h
  rw [String.toList_ofList]
  exact not_mem_splitGo (by simp) part (List.mem_filter.mp mem).1

theorem not_mem_parts (path : String) : ∀ m ∈ Path.parts path, '/' ∉ m.toList := by
  intro m hm
  rcases List.mem_append.mp hm with name | last
  · exact not_mem_names name
  · split at last
    · obtain rfl := List.mem_singleton.mp last
      decide
    · cases last

theorem not_mem_components (path : String) : ∀ m ∈ Path.components path, '/' ∉ m.toList := by
  intro m hm
  have names (h : m ∈ ((Path.splitGo [] path.toList).filter (!·.isEmpty)).map String.ofList) :=
    not_mem_names h
  simp only [Path.components] at hm
  split at hm
  · next rest whole =>
    rw [whole] at names
    rcases List.mem_append.mp hm with first | others
    · split at first
      · cases first
      · obtain rfl := List.mem_singleton.mp first
        decide
    · exact names (List.mem_cons_of_mem _ (List.mem_filter.mp others).1)
  · exact names (List.mem_filter.mp hm).1

theorem not_mem_parentParts (path : String) : ∀ m ∈ parentParts path, '/' ∉ m.toList := by
  unfold parentParts
  split
  · decide
  · exact fun m hm => not_mem_components path m (List.dropLast_subset _ hm)

/-- A write keeps the names of a tree in order. -/
theorem Written.wellNamed [Start] (written : top.Written after path text place)
    (h : top.wellNamed = true) : after.wellNamed = true := by
  have made : (top.prepare path).1.wellNamed = true := by
    have kept : (top.makeParents path).1.wellNamed = true := by
      rw [makeParents, makeWay]
      split
      · exact h
      · exact wellNamed_makeDirectories h (by simpa using not_mem_parentParts path)
    rw [prepare]
    cases ran : top.makeParents path with
    | mk made result =>
      rw [ran] at kept
      cases result <;> exact kept
  obtain ⟨above, name, dir, fits, rfl⟩ := placeFor_eq_ok_iff.mp (prepare_ok written.placed)
  have inside := fits.inside
  rw [any_held?] at inside
  obtain ⟨es, here⟩ := exists_of_isDirectory inside
  rw [written.put]
  refine wellNamed_putAt made rfl fun m hm => ?_
  rcases List.mem_append.mp hm with own | last
  · exact (wellNamed_at? made here).2 m own
  · refine not_mem_parts path m ?_
    rw [fits.parts]
    exact List.mem_append_right above last

end Names

end Files.Node

namespace Directory

variable {top new : Node} {place : List String} {path : String} {d : Directory}

/-- A directory is as it was where the same places hold directories and resources. -/
theorem Scanned.congr [Files.Start] (h : Scanned top place path d)
    (directories : ∀ w, (new.at? (place ++ w)).any Node.isDirectory =
      (top.at? (place ++ w)).any Node.isDirectory)
    (resources : ∀ w f, new.IsResource (place ++ w) (pathBelow path w) f ↔
      top.IsResource (place ++ w) (pathBelow path w) f) : Scanned new place path d := by
  induction h with
  | @intro place path name files children files_increasing mem_files children_increasing
      mem_children _ ih =>
    have further (m : String) (w : List String) : place ++ [m] ++ w = place ++ m :: w := by simp
    refine .intro files_increasing (fun f => ?_) children_increasing (fun m => ?_) fun c hc => ?_
    · have here := resources [] f
      rw [List.append_nil] at here
      exact (mem_files f).trans here.symm
    · rw [directories, mem_children]
    · refine ih c hc (fun w => ?_) fun w f => ?_
      · rw [further]
        exact directories (c.name :: w)
      · rw [further]
        exact resources (c.name :: w) f

end Directory

namespace Generated

open Directory (Scanned pathBelow)

/-- A file that is put at a place, once the directories on the way to it are there, is apart from
the resources of a directory: it is not a new one among them, no directory is made among them, none
of them is a link that waits for such a directory, and neither the directory itself nor one that a
link in it leads to is found through the place. -/
structure Apart [Files.Start] (top made : Node) (root : String) (base place : List String) :
    Prop where
  listed : ∀ w f, place = base ++ w ++ [f] → top.IsResource (base ++ w) (pathBelow root w) f
  unmade : ∀ w, top.at? (base ++ w) = none → made.at? (base ++ w) = none
  waiting : ∀ w f target, top.at? (base ++ w ++ [f]) = some (.link target) →
    made.StandsForDirectory (Files.Path.join (pathBelow root w) f) →
      top.StandsForDirectory (Files.Path.join (pathBelow root w) f)
  reached : ¬top.PassesOn place root
  linked : ∀ w f target, top.at? (base ++ w ++ [f]) = some (.link target) →
    top.StandsForDirectory (Files.Path.join (pathBelow root w) f) →
      ¬top.PassesOn place (Files.Path.join (pathBelow root w) f)

variable [Files.Start]

/-- Where the file replaces no link nothing is found through its place. -/
theorem Apart.of_unlinked {top made : Node} {root : String} {base place : List String}
    (leaf : (top.held? place).any Node.isDirectory = false)
    (plain : ∀ target, top.held? place ≠ some (.link target))
    (stands : top.StandsForDirectory root)
    (listed : ∀ w f, place = base ++ w ++ [f] → top.IsResource (base ++ w) (pathBelow root w) f)
    (unmade : ∀ w, top.at? (base ++ w) = none → made.at? (base ++ w) = none)
    (waiting : ∀ w f target, top.at? (base ++ w ++ [f]) = some (.link target) →
      made.StandsForDirectory (Files.Path.join (pathBelow root w) f) →
        top.StandsForDirectory (Files.Path.join (pathBelow root w) f)) :
    Apart top made root base place := by
  have free {path : String} (stands : top.StandsForDirectory path) : ¬top.PassesOn place path := by
    obtain ⟨-, dir, leads, inside⟩ := stands
    exact leads.not_passes leaf plain inside
  exact ⟨listed, unmade, waiting, free stands, fun _ _ _ _ stands => free stands⟩

/-- Where no directory has to be made, a file in the place of another or outside of the resources is
apart from them. -/
theorem Apart.of_standing {top : Node} {path root : String} {base place : List String}
    (prepared : top.prepare path = (top, .ok place)) (stands : top.StandsForDirectory root)
    (plain : ∀ target, top.held? place ≠ some (.link target))
    (clear : (∃ content, top.at? place = some (.file content)) ∨ ∀ w, place ≠ base ++ w) :
    Apart top top root base place := by
  refine .of_unlinked (Node.leaf_of_prepare prepared).2 plain stands (fun w f whole => ?_)
    (fun _ nothing => nothing) fun _ _ _ _ stands => stands
  rcases clear with ⟨content, here⟩ | outside
  · rw [whole] at here
    exact .file here
  · exact absurd (whole.trans (List.append_assoc base w [f])) (outside (w ++ [f]))

section Rescans

variable {top made after : Node} {path text root : String} {base place : List String}
  (prepared : top.prepare path = (made, .ok place))
  (written : top.Written after path text place) (apart : Apart top made root base place)

include prepared written apart

/-- Below the root of the resources each place but that of the file holds what it held. -/
theorem Apart.held? (w : List String) (other : base ++ w ≠ place) :
    after.held? (base ++ w) = top.held? (base ++ w) := by
  rw [written.others prepared _ other]
  rcases Node.kept_of_prepare prepared (base ++ w) with same | ⟨nothing, new⟩
  · exact same
  · rw [Node.held?, Option.map_eq_none_iff] at nothing
    rw [Node.held?, apart.unmade w nothing] at new
    cases new

theorem Apart.directories (w : List String) : (after.at? (base ++ w)).any Node.isDirectory =
    (top.at? (base ++ w)).any Node.isDirectory := by
  rw [← Node.any_held?, ← Node.any_held?]
  by_cases own : base ++ w = place
  · rw [own, written.leaf, (Node.leaf_of_prepare prepared).2]
  · rw [apart.held? prepared written w own]

theorem Apart.resources (w : List String) (f : String) :
    after.IsResource (base ++ w) (pathBelow root w) f ↔
      top.IsResource (base ++ w) (pathBelow root w) f := by
  by_cases own : base ++ w ++ [f] = place
  · have here := written.holds
    rw [← own] at here
    exact iff_of_true (.file here) (apart.listed w f own.symm)
  · have held : after.held? (base ++ w ++ [f]) = top.held? (base ++ w ++ [f]) := by
      rw [List.append_assoc] at own ⊢
      exact apart.held? prepared written (w ++ [f]) own
    have leaf {n : Node} (plain : n.isDirectory = false) :
        after.at? (base ++ w ++ [f]) = some n ↔ top.at? (base ++ w ++ [f]) = some n := by
      rw [← Node.held?_eq_some_iff plain, ← Node.held?_eq_some_iff plain, held]
    constructor
    · intro resource
      cases resource with
      | file here => exact .file ((leaf rfl).mp here)
      | link here elsewhere =>
        have before := (leaf rfl).mp here
        exact .link before fun stands =>
          elsewhere (written.standsForDirectory prepared stands (apart.linked w f _ before stands))
    · intro resource
      cases resource with
      | file here => exact .file ((leaf rfl).mpr here)
      | link here elsewhere =>
        exact .link ((leaf rfl).mpr here) fun stands =>
          elsewhere (apart.waiting w f _ here (written.standsForDirectory_made prepared stands))

/-- A scan finds the same after the write. -/
theorem Apart.rescan {d : Directory} (named : top.wellNamed = true)
    (based : top.resolve root = .ok base)
    (found : ((scan Node.host root).run top).1 = .ok d) :
    ((scan Node.host root).run after).1 = .ok d := by
  obtain ⟨base', resolved, inside, name, scanned, readable⟩ := scan_eq_ok named found
  rw [based] at resolved
  cases resolved
  rw [← Node.any_held?] at inside
  -- The root is found where it was.
  have again : after.resolve root = .ok base := by
    rw [Node.resolve] at based ⊢
    split at based
    · cases based
    · exact Node.walk_of_leads (written.leads prepared (Node.leads_of_walk based) apart.reached)
  have directory := written.inside prepared inside
  rw [Node.any_held?] at directory
  obtain ⟨es, here⟩ := Node.exists_of_isDirectory directory
  have start : after.find root = .ok (.directory es) := by
    rw [Node.find, again, Except.bind, here]
  -- A directory that is refused after the write was refused before.
  have all_readable : ∀ p fault, ¬Unreadable .plain after root p fault := by
    intro p fault unreadable
    obtain ⟨place', w, resolved, below, rfl, refusal⟩ := unreadable.refusal_of_find start
    rw [again] at resolved
    cases resolved
    rw [apart.directories prepared written w] at below
    exact readable _ _ (.refused based below refusal)
  obtain ⟨place', d', resolved, outcome, name', -, unique⟩ :=
    (scan_outcome (written.wellNamed named) .plain root).2.2 all_readable
  rw [again] at resolved
  cases resolved
  have same := scanned.congr (apart.directories prepared written)
    (apart.resources prepared written)
  rw [Node.host, outcome, unique d name same]

end Rescans

end Generated

end TypedDecl
