import Mathlib.Data.List.Nodup
import Mathlib.Data.List.Perm.Lattice
import TypedDecl.Proofs.ByteOrder
import TypedDecl.Proofs.DirectoryModel
import TypedDecl.Proofs.Files.Walks
import TypedDecl.Resource.Listing

namespace TypedDecl.Files.Node

mutual

/-- The names in every directory are different and have no slashes. -/
def wellNamed : Node → Bool
  | file _ => true
  | link _ => true
  | directory entries => decide (entries.map Prod.fst).Nodup && entriesWellNamed entries

def entriesWellNamed : List (String × Node) → Bool
  | [] => true
  | (name, n) :: es => !name.toList.contains '/' && n.wellNamed && entriesWellNamed es

end

/-- A resource under a name at a place, where the directory there has a path: a file, or a link
whose own path does not stand for a directory. -/
inductive IsResource [Start] (top : Node) (place : List String) (path name : String) : Prop
  | file {content : ByteArray} (here : top.at? (place ++ [name]) = some (.file content)) :
    IsResource top place path name
  | link {target : String} (here : top.at? (place ++ [name]) = some (.link target))
    (elsewhere : ¬top.StandsForDirectory (Path.join path name)) : IsResource top place path name

theorem entriesWellNamed_iff {es : List (String × Node)} :
    entriesWellNamed es = true ↔ ∀ x ∈ es, '/' ∉ x.1.toList ∧ x.2.wellNamed = true := by
  induction es with
  | nil => simp [entriesWellNamed]
  | cons e es ih => simp [entriesWellNamed, ih, and_assoc]

theorem wellNamed_directory {es : List (String × Node)} :
    (directory es).wellNamed = true ↔
      (es.map Prod.fst).Nodup ∧ ∀ x ∈ es, '/' ∉ x.1.toList ∧ x.2.wellNamed = true := by
  rw [wellNamed, Bool.and_eq_true, decide_eq_true_eq, entriesWellNamed_iff]

theorem child?_eq_some {es : List (String × Node)} (h : (es.map Prod.fst).Nodup) {m : String}
    {n : Node} : (directory es).child? m = some n ↔ (m, n) ∈ es := by
  rw [child?]
  induction es with
  | nil => simp
  | cons e es ih =>
    rw [List.map_cons, List.nodup_cons] at h
    obtain ⟨name, first⟩ := e
    by_cases same : m = name
    · subst same
      have absent : (m, n) ∉ es := fun mem => h.1 (List.mem_map.mpr ⟨_, mem, rfl⟩)
      simp [absent, eq_comm]
    · have other : (m == name) = false := by simpa using same
      simp [List.lookup_cons, other, same, ih h.2]

/-- Only a directory has something below it. -/
theorem exists_directory_of_child? {n c : Node} {m : String} (h : n.child? m = some c) :
    ∃ es, n = directory es := by
  cases n with
  | directory es => exact ⟨es, rfl⟩
  | file content => cases h
  | link target => cases h

theorem exists_of_isDirectory {n : Option Node} (h : n.any isDirectory = true) :
    ∃ es, n = some (directory es) := by
  cases n with
  | none => cases h
  | some n =>
    cases n with
    | directory es => exact ⟨es, rfl⟩
    | file content => cases h
    | link target => cases h

theorem wellNamed_at? {n c : Node} {w : List String} (h : n.wellNamed = true)
    (hc : n.at? w = some c) : c.wellNamed = true ∧ ∀ m ∈ w, '/' ∉ m.toList := by
  induction w generalizing n with
  | nil =>
    cases hc
    exact ⟨h, by simp⟩
  | cons m w ih =>
    rw [at?, Option.bind_eq_some_iff] at hc
    obtain ⟨d, hd, hc⟩ := hc
    obtain ⟨es, rfl⟩ := exists_directory_of_child? hd
    rw [wellNamed_directory] at h
    have here := h.2 _ ((child?_eq_some h.1).mp hd)
    have below := ih here.2 hc
    exact ⟨below.1, List.forall_mem_cons.mpr ⟨here.1, below.2⟩⟩

/-- What is listed is what is told of the entries of a directory. -/
theorem listVia_ok [Start] {l : Listing} {top : Node} {path : String}
    {entries : List (String × Entry)} (h : top.listVia l path = .ok entries) :
    ∃ place es, top.resolve path = .ok place ∧ top.at? place = some (directory es) ∧
      l.refusal path = none ∧ entries = l.order path (entriesAt l top path es) := by
  rw [listVia] at h
  cases resolved : top.resolve path with
  | error fault =>
    rw [resolved] at h
    cases h
  | ok place =>
    rw [resolved, Except.bind] at h
    split at h
    · next es here =>
      split at h
      · cases h
      · next open_to =>
        cases h
        exact ⟨place, es, rfl, here, open_to, rfl⟩
    · cases h
    · cases h

end TypedDecl.Files.Node

namespace TypedDecl.Directory

open Files (Node)

section Assembling

variable {found : List (String × Option Directory)}

/-- No name is there twice, and directories are found under their own names. -/
structure Separate (found : List (String × Option Directory)) : Prop where
  names : (found.map Prod.fst).Nodup
  own : ∀ x ∈ found, ∀ c ∈ x.2, c.name = x.1

/-- What is found under new names is added as it comes. -/
theorem foldl_addFound (h : Separate found) {d : Directory}
    (new : ∀ x ∈ found, x.1 ∉ d.files ∧ x.1 ∉ d.children.map name) :
    found.foldl addFound d =
      mk d.name (d.files ++ (found.filter (·.2.isNone)).map Prod.fst)
        (d.children ++ found.filterMap Prod.snd) d.exposed := by
  induction found generalizing d with
  | nil =>
    cases d
    simp [Directory.name, files, children, exposed]
  | cons x found ih =>
    obtain ⟨names, own⟩ := h
    rw [List.map_cons, List.nodup_cons] at names
    rw [List.forall_mem_cons] at new own
    have others : ∀ y ∈ found, y.1 ≠ x.1 := fun y hy same =>
      names.1 (same ▸ List.mem_map_of_mem hy)
    obtain ⟨n, child⟩ := x
    cases child with
    | none =>
      have added : addFound d (n, none) = mk d.name (d.files ++ [n]) d.children d.exposed :=
        addFile_of_notMem new.1.1
      rw [List.foldl_cons, added, ih ⟨names.2, own.2⟩]
      · simp [Directory.name, files, children, exposed]
      · intro y hy
        simpa [files, children, others y hy] using new.2 y hy
    | some c =>
      have named : c.name = n := own.1 c rfl
      have added : addFound d (n, some c) = mk d.name d.files (d.children ++ [c]) d.exposed := by
        rw [← named] at new
        exact addChild_of_notMem new.1.2
      rw [List.foldl_cons, added, ih ⟨names.2, own.2⟩]
      · simp [Directory.name, files, children, exposed]
      · intro y hy
        simpa [files, children, others y hy, named] using new.2 y hy

theorem map_name_filterMap (own : ∀ x ∈ found, ∀ c ∈ x.2, c.name = x.1) :
    (found.filterMap Prod.snd).map name = (found.filter (·.2.isSome)).map Prod.fst := by
  induction found with
  | nil => rfl
  | cons x found ih =>
    rw [List.forall_mem_cons] at own
    obtain ⟨n, child⟩ := x
    cases child with
    | none => simp [ih own.2]
    | some c => simp [ih own.2, own.1 c rfl]

/-- What has different names and comes in their order is there in that order. -/
theorem foldl_addFound_empty (h : Separate found) (sorted : (found.map Prod.fst).Pairwise (· < ·))
    (n : String) :
    ∃ files children, found.foldl addFound (empty n) = mk n files children true ∧
      Text.Increasing files ∧ (∀ f, f ∈ files ↔ (f, none) ∈ found) ∧
      Text.Increasing (children.map name) ∧ ∀ c, c ∈ children ↔ (c.name, some c) ∈ found := by
  have filled := foldl_addFound h (d := empty n) (by simp [empty, files, children])
  have none_before : (empty n).files = [] ∧ (empty n).children = [] := ⟨rfl, rfl⟩
  rw [none_before.1, none_before.2, List.nil_append, List.nil_append] at filled
  refine ⟨_, _, filled, ?_, ?_, ?_, ?_⟩
  · rw [Text.increasing_iff]
    exact sorted.sublist (List.filter_sublist.map _)
  · intro f
    simp
  · rw [Text.increasing_iff, map_name_filterMap h.own]
    exact sorted.sublist (List.filter_sublist.map _)
  · intro c
    rw [List.mem_filterMap]
    constructor
    · rintro ⟨⟨m, child⟩, hx, rfl⟩
      rwa [h.own _ hx c rfl]
    · exact fun hc => ⟨_, hc, rfl⟩

end Assembling

section Telling

variable {found others : List Found} {n : String} {d : Directory}

theorem told_eq_ok_iff {x : Found} {y : String × Option Directory} :
    told x = .ok y ↔ x = (y.1, .ok y.2) := by
  obtain ⟨m, c⟩ := x
  obtain ⟨m', c'⟩ := y
  cases c <;> simp [told, Except.map, Prod.ext_iff]

theorem mapM_told_ok {plain : List (String × Option Directory)} (h : found.mapM told = .ok plain) :
    found = plain.map fun y => (y.1, .ok y.2) := by
  induction found generalizing plain with
  | nil =>
    cases h
    rfl
  | cons x found ih =>
    rw [List.mapM_cons] at h
    cases first : told x with
    | error u =>
      rw [first] at h
      cases h
    | ok y =>
      cases rest : found.mapM told with
      | error u =>
        rw [first, rest] at h
        cases h
      | ok ys =>
        rw [first, rest] at h
        cases h
        rw [List.map_cons, ← ih rest, told_eq_ok_iff.mp first]

theorem mapM_told_error {u : Unlisted} (h : found.mapM told = .error u) :
    ∃ m, (m, .error u) ∈ found := by
  induction found with
  | nil => cases h
  | cons x found ih =>
    rw [List.mapM_cons] at h
    obtain ⟨m, c⟩ := x
    cases c with
    | error v =>
      cases h
      exact ⟨m, List.mem_cons_self⟩
    | ok c =>
      have first : told (m, .ok c) = .ok (m, c) := rfl
      cases rest : found.mapM told with
      | error v =>
        rw [first, rest] at h
        cases h
        obtain ⟨m', mem⟩ := ih rest
        exact ⟨m', List.mem_cons_of_mem _ mem⟩
      | ok ys =>
        rw [first, rest] at h
        cases h

/-- What is found in the order of the names is added in that order. -/
theorem assemble_of_sorted (n : String)
    (sorted : found.Pairwise fun a b => decide (a.1 ≤ b.1) = true) :
    assemble n found = (found.mapM told).map fun plain => plain.foldl addFound (empty n) := by
  rw [assemble, List.mergeSort_of_pairwise sorted]

/-- The order in which things are found does not matter. -/
theorem assemble_congr (names : (found.map Prod.fst).Nodup) (perm : found.Perm others) :
    assemble n found = assemble n others := by
  have names' := (perm.map Prod.fst).nodup_iff.mp names
  have sorted := Text.increasing_iff.mp (Text.increasing_mergeSort names)
  have sorted' := Text.increasing_iff.mp (Text.increasing_mergeSort names')
  rw [List.pairwise_map] at sorted sorted'
  have same : (found.mergeSort fun a b => decide (a.1 ≤ b.1)) =
      others.mergeSort fun a b => decide (a.1 ≤ b.1) := by
    have both : (found.mergeSort fun a b => decide (a.1 ≤ b.1)).Perm
        (others.mergeSort fun a b => decide (a.1 ≤ b.1)) :=
      (List.mergeSort_perm ..).trans (perm.trans (List.mergeSort_perm ..).symm)
    refine both.eq_of_pairwise (fun a b _ _ less greater => ?_) sorted sorted'
    exact absurd less (lt_asymm greater)
  rw [assemble, assemble, same]

/-- All that is found is there, in the order of the names. -/
theorem assemble_ok (names : (found.map Prod.fst).Nodup)
    (own : ∀ x ∈ found, ∀ c, x.2 = .ok (some c) → c.name = x.1) (h : assemble n found = .ok d) :
    (∀ x ∈ found, ∃ c, x.2 = .ok c) ∧
    ∃ files children, d = mk n files children true ∧
      Text.Increasing files ∧ (∀ f, f ∈ files ↔ (f, .ok none) ∈ found) ∧
      Text.Increasing (children.map name) ∧ ∀ c, c ∈ children ↔ (c.name, .ok (some c)) ∈ found := by
  have perm := List.mergeSort_perm found fun a b => decide (a.1 ≤ b.1)
  have sorted := Text.increasing_iff.mp (Text.increasing_mergeSort names)
  rw [assemble] at h
  cases told_all : (found.mergeSort fun a b => decide (a.1 ≤ b.1)).mapM told with
  | error u =>
    rw [told_all] at h
    cases h
  | ok plain =>
    rw [told_all] at h
    cases h
    have told_so := mapM_told_ok told_all
    rw [told_so] at perm sorted
    rw [List.map_map] at sorted
    have mem (m : String) (c : Option Directory) : (m, c) ∈ plain ↔ (m, .ok c) ∈ found := by
      rw [← perm.mem_iff]
      simp
    have separate : Separate plain :=
      ⟨sorted.imp fun less => ne_of_lt less,
        fun x hx c hc => own (x.1, .ok x.2) ((mem x.1 x.2).mp hx) c (congrArg Except.ok hc)⟩
    constructor
    · intro x hx
      obtain ⟨y, -, rfl⟩ := List.mem_map.mp (perm.mem_iff.mpr hx)
      exact ⟨y.2, rfl⟩
    · obtain ⟨files, children, filled, increasing, file, apart, child⟩ :=
        foldl_addFound_empty separate sorted n
      exact ⟨files, children, filled, increasing, fun f => (file f).trans (mem f none), apart,
        fun c => (child c).trans (mem c.name (some c))⟩

/-- Why nothing is assembled. -/
theorem assemble_error {u : Unlisted} (h : assemble n found = .error u) :
    ∃ m, (m, .error u) ∈ found := by
  rw [assemble] at h
  cases told_all : (found.mergeSort fun a b => decide (a.1 ≤ b.1)).mapM told with
  | ok plain =>
    rw [told_all] at h
    cases h
  | error v =>
    rw [told_all] at h
    cases h
    obtain ⟨m, mem⟩ := mapM_told_error told_all
    exact ⟨m, (List.mergeSort_perm ..).mem_iff.mp mem⟩

end Telling

theorem name_addFound (d : Directory) (x : String × Option Directory) :
    (d.addFound x).name = d.name := by
  obtain ⟨n, child⟩ := x
  cases child with
  | none =>
    exact name_addFile d n
  | some c =>
    exact name_addChild d c

theorem name_assemble {n : String} {found : List Found} {d : Directory}
    (h : assemble n found = .ok d) : d.name = n := by
  have kept (xs : List (String × Option Directory)) (d : Directory) :
      (xs.foldl addFound d).name = d.name := by
    induction xs generalizing d with
    | nil => rfl
    | cons x xs ih => rw [List.foldl_cons, ih, name_addFound]
  rw [assemble] at h
  cases told_all : (found.mergeSort fun a b => decide (a.1 ≤ b.1)).mapM told with
  | error u =>
    rw [told_all] at h
    cases h
  | ok plain =>
    rw [told_all] at h
    cases h
    exact kept plain (empty n)

section Visits

theorem visitsBelow_eq (ds : List Directory) :
    visitsBelow ds = ds.flatMap fun d => d.visits.map (Visit.below d.name) := by
  induction ds with
  | nil => rfl
  | cons d ds ih => rw [visitsBelow, ih, List.flatMap_cons]

theorem mem_visitsBelow {ds : List Directory} {v : Visit} :
    v ∈ visitsBelow ds ↔ ∃ d ∈ ds, ∃ u ∈ d.visits, u.below d.name = v := by
  simp [visitsBelow_eq]

variable {n : String} {files : List String} {children : List Directory} {shown : Bool}

theorem map_way_visits :
    (mk n files children shown).visits.map Visit.way =
      [] :: children.flatMap fun c => (c.visits.map Visit.way).map (c.name :: ·) := by
  rw [visits, visitsBelow_eq, List.map_cons, List.map_flatMap]
  simp only [List.map_map]
  rfl

theorem cons_mem_ways {m : String} {w : List String} :
    m :: w ∈ (mk n files children shown).visits.map Visit.way ↔
      ∃ c ∈ children, c.name = m ∧ w ∈ c.visits.map Visit.way := by
  rw [map_way_visits, List.mem_cons, or_iff_right (List.cons_ne_nil m w), List.mem_flatMap]
  refine exists_congr fun c => and_congr_right fun _ => ?_
  rw [List.mem_map]
  constructor
  · rintro ⟨_, hw, same⟩
    cases same
    exact ⟨rfl, hw⟩
  · rintro ⟨rfl, hw⟩
    exact ⟨w, hw, rfl⟩

/-- Below different names no two ways are the same. -/
theorem nodup_ways (names : (children.map name).Nodup)
    (below : ∀ c ∈ children, (c.visits.map Visit.way).Nodup) :
    ((mk n files children shown).visits.map Visit.way).Nodup := by
  rw [map_way_visits, List.nodup_cons, List.nodup_flatMap]
  refine ⟨by simp, fun c hc => (below c hc).map fun _ _ same => (List.cons.inj same).2, ?_⟩
  rw [List.Nodup, List.pairwise_map] at names
  refine names.imp fun different => ?_
  rintro w hc hd
  obtain ⟨_, -, rfl⟩ := List.mem_map.mp hc
  obtain ⟨_, -, same⟩ := List.mem_map.mp hd
  exact different (List.cons.inj same).1.symm

end Visits

section Walking

variable {l : Listing} {top : Node} {place : List String} {path : String}

/-- Where a place is that of a directory, what is below it is what the directory has. -/
theorem at?_below {es : List (String × Node)} (here : top.at? place = some (.directory es))
    (names : (es.map Prod.fst).Nodup) {m : String} {n : Node} :
    top.at? (place ++ [m]) = some n ↔ (m, n) ∈ es := by
  rw [Node.at?_append, here, ← Node.child?_eq_some names]
  cases h : (Node.directory es).child? m <;> simp [Node.at?, h]

theorem foundEntries_eq (path : String) (es : List (String × Entry)) :
    foundEntries path es =
      es.filterMap fun e => foundEntry (Files.Path.join path e.1) e.1 e.2 := by
  induction es with
  | nil => rfl
  | cons e es ih =>
    rw [foundEntries, ih, List.filterMap_cons]
    cases foundEntry (Files.Path.join path e.1) e.1 e.2 <;> rfl

/-- The path of what names lead to from the directory at a path. -/
def pathBelow (path : String) (way : List String) : String := way.foldl Files.Path.join path

variable [Files.Start]

/-- The walk visits the real directories below a place, and each has its resources. -/
structure Covers (top : Node) (place : List String) (path : String) (vs : List Visit) : Prop where
  nodup : (vs.map Visit.way).Nodup
  ways : ∀ w, w ∈ vs.map Visit.way ↔ (top.at? (place ++ w)).any Node.isDirectory = true
  exposed : ∀ v ∈ vs, v.exposed = true
  files : ∀ v ∈ vs, v.files.Nodup ∧
    ∀ f, f ∈ v.files ↔ top.IsResource (place ++ v.way) (pathBelow path v.way) f

/-- A directory as it is at a place and under a path: its files are the resources there and its
subdirectories the real directories, all in the order of their names; and so it is with each of
them. -/
inductive Scanned (top : Node) : List String → String → Directory → Prop
  | intro {place : List String} {path name : String} {files : List String}
    {children : List Directory} (files_increasing : Text.Increasing files)
    (mem_files : ∀ f, f ∈ files ↔ top.IsResource place path f)
    (children_increasing : Text.Increasing (children.map Directory.name))
    (mem_children : ∀ m, m ∈ children.map Directory.name ↔
      (top.at? (place ++ [m])).any Node.isDirectory = true)
    (below : ∀ c ∈ children, Scanned top (place ++ [c.name]) (Files.Path.join path c.name) c) :
    Scanned top place path (mk name files children true)

/-- What is found of the entries of a directory as they are listed. -/
def foundAt (l : Listing) (top : Node) (path : String) (es : List (String × Node)) : List Found :=
  foundEntries path (l.order path (top.entriesAt l path es))

/-- What is found of one of them. -/
def foundNode (l : Listing) (top : Node) (path : String) (x : String × Node) : Option Found :=
  foundEntry (Files.Path.join path x.1) x.1 (top.entry l (Files.Path.join path x.1) x.2)

theorem foundNode_link (m target : String) :
    foundNode l top path (m, .link target) =
      if top.isDirectoryAt (Files.Path.join path m) then none else some (m, .ok none) := rfl

theorem foundNode_closed {m : String} {fault : Files.Fault}
    (h : l.refusal (Files.Path.join path m) = some fault) (sub : List (String × Node)) :
    foundNode l top path (m, .directory sub) =
      some (m, .error (Files.Path.join path m, fault)) := by
  rw [foundNode, Node.entry, h, foundEntry]

theorem foundNode_directory {m : String} (h : l.refusal (Files.Path.join path m) = none)
    (sub : List (String × Node)) :
    foundNode l top path (m, .directory sub) =
      some (m, (assemble m (foundAt l top (Files.Path.join path m) sub)).map some) := by
  rw [foundNode, Node.entry, h, foundEntry, foundAt]

theorem entriesAt_eq (es : List (String × Node)) :
    top.entriesAt l path es =
      es.map fun x => (x.1, top.entry l (Files.Path.join path x.1) x.2) := by
  induction es with
  | nil => rfl
  | cons e es ih => rw [Node.entriesAt, ih, List.map_cons]

/-- The order of a listing is one of the entries. -/
theorem foundAt_perm (es : List (String × Node)) :
    (foundAt l top path es).Perm (es.filterMap (foundNode l top path)) := by
  rw [foundAt, foundEntries_eq]
  refine ((l.perm path _).filterMap _).trans ?_
  rw [entriesAt_eq, List.filterMap_map]
  exact .refl _

/-- What is found under a name has that name. -/
theorem name_foundNode {x : String × Node} {y : Found} (h : foundNode l top path x = some y) :
    y.1 = x.1 ∧ ∀ c, y.2 = .ok (some c) → c.name = y.1 := by
  obtain ⟨m, n⟩ := x
  cases n with
  | file content =>
    cases h
    exact ⟨rfl, by simp⟩
  | link target =>
    rw [foundNode_link] at h
    split at h
    · cases h
    · cases h
      exact ⟨rfl, by simp⟩
  | directory sub =>
    cases refused : l.refusal (Files.Path.join path m) with
    | some fault =>
      rw [foundNode_closed refused] at h
      cases h
      exact ⟨rfl, by simp⟩
    | none =>
      rw [foundNode_directory refused] at h
      cases h
      refine ⟨rfl, fun c hc => ?_⟩
      cases assembled : assemble m (foundAt l top (Files.Path.join path m) sub) with
      | error u =>
        rw [assembled] at hc
        cases hc
      | ok d =>
        rw [assembled] at hc
        cases hc
        exact name_assemble assembled

theorem nodup_foundAt {es : List (String × Node)} (h : (es.map Prod.fst).Nodup) :
    ((foundAt l top path es).map Prod.fst).Nodup := by
  rw [((foundAt_perm es).map Prod.fst).nodup_iff]
  rw [List.Nodup, List.pairwise_map] at h ⊢
  rw [List.pairwise_filterMap]
  refine h.imp fun different x hx y hy => ?_
  rwa [(name_foundNode hx).1, (name_foundNode hy).1]

theorem mem_foundAt {es : List (String × Node)} {y : Found} :
    y ∈ foundAt l top path es ↔ ∃ x ∈ es, foundNode l top path x = some y := by
  rw [(foundAt_perm es).mem_iff, List.mem_filterMap]

theorem isResource_iff {f : String} {n : Node} (h : top.at? (place ++ [f]) = some n) :
    top.IsResource place path f ↔ foundNode l top path (f, n) = some (f, .ok none) := by
  constructor
  · intro resource
    cases resource with
    | file here =>
      rw [h] at here
      cases here
      rfl
    | link here elsewhere =>
      rw [h] at here
      cases here
      rw [foundNode_link, if_neg (mt Node.isDirectoryAt_iff.mp elsewhere)]
  · intro found
    cases n with
    | file content => exact .file h
    | link target =>
      refine .link h fun leads => ?_
      rw [foundNode_link, if_pos (Node.isDirectoryAt_iff.mpr leads)] at found
      cases found
    | directory sub =>
      cases refused : l.refusal (Files.Path.join path f) with
      | some fault =>
        rw [foundNode_closed refused] at found
        cases found
      | none =>
        rw [foundNode_directory refused] at found
        cases made : assemble f (foundAt l top (Files.Path.join path f) sub) <;>
          simp [made, Except.map] at found

/-- The files that are found are the resources. -/
theorem file_mem_foundAt {es : List (String × Node)}
    (here : top.at? place = some (.directory es)) (names : (es.map Prod.fst).Nodup) (f : String) :
    (f, .ok none) ∈ foundAt l top path es ↔ top.IsResource place path f := by
  rw [mem_foundAt]
  constructor
  · rintro ⟨⟨m, n⟩, mem, found⟩
    obtain rfl : f = m := (name_foundNode found).1
    exact (isResource_iff ((at?_below here names).mpr mem)).mpr found
  · intro resource
    obtain ⟨n, node⟩ : ∃ n, top.at? (place ++ [f]) = some n := by
      cases resource with
      | file here => exact ⟨_, here⟩
      | link here _ => exact ⟨_, here⟩
    exact ⟨(f, n), (at?_below here names).mp node, (isResource_iff node).mp resource⟩

/-- The subdirectories that are found are the real ones. -/
theorem child_mem_foundAt {es : List (String × Node)} {m : String} {c : Directory} :
    (m, .ok (some c)) ∈ foundAt l top path es ↔
      ∃ sub, (m, .directory sub) ∈ es ∧ l.refusal (Files.Path.join path m) = none ∧
        assemble m (foundAt l top (Files.Path.join path m) sub) = .ok c := by
  rw [mem_foundAt]
  constructor
  · rintro ⟨⟨name, n⟩, mem, found⟩
    obtain rfl : m = name := (name_foundNode found).1
    cases n with
    | file content => cases found
    | link target =>
      rw [foundNode_link] at found
      split at found <;> cases found
    | directory sub =>
      cases refused : l.refusal (Files.Path.join path m) with
      | some fault =>
        rw [foundNode_closed refused] at found
        cases found
      | none =>
        rw [foundNode_directory refused] at found
        cases assembled : assemble m (foundAt l top (Files.Path.join path m) sub) with
        | error u =>
          rw [assembled] at found
          cases found
        | ok d =>
          rw [assembled] at found
          cases found
          exact ⟨sub, mem, rfl, assembled⟩
  · rintro ⟨sub, mem, refused, assembled⟩
    refine ⟨_, mem, ?_⟩
    rw [foundNode_directory refused, assembled]
    rfl

/-- What is found instead of a directory that cannot be listed, or that has one below it. -/
theorem error_mem_foundAt {es : List (String × Node)} {m : String} {u : Unlisted} :
    (m, .error u) ∈ foundAt l top path es ↔ ∃ sub, (m, .directory sub) ∈ es ∧
      ((∃ fault, l.refusal (Files.Path.join path m) = some fault ∧
          u = (Files.Path.join path m, fault)) ∨
        l.refusal (Files.Path.join path m) = none ∧
          assemble m (foundAt l top (Files.Path.join path m) sub) = .error u) := by
  rw [mem_foundAt]
  constructor
  · rintro ⟨⟨name, n⟩, mem, found⟩
    obtain rfl : m = name := (name_foundNode found).1
    cases n with
    | file content => cases found
    | link target =>
      rw [foundNode_link] at found
      split at found <;> cases found
    | directory sub =>
      refine ⟨sub, mem, ?_⟩
      cases refused : l.refusal (Files.Path.join path m) with
      | some fault =>
        rw [foundNode_closed refused] at found
        cases found
        exact .inl ⟨fault, rfl, rfl⟩
      | none =>
        rw [foundNode_directory refused] at found
        cases assembled : assemble m (foundAt l top (Files.Path.join path m) sub) with
        | error v =>
          rw [assembled] at found
          cases found
          exact .inr ⟨rfl, rfl⟩
        | ok d =>
          rw [assembled] at found
          cases found
  · rintro ⟨sub, mem, ⟨fault, refused, rfl⟩ | ⟨refused, assembled⟩⟩
    · exact ⟨_, mem, foundNode_closed refused sub⟩
    · refine ⟨_, mem, ?_⟩
      rw [foundNode_directory refused, assembled]
      rfl

/-- A walk through what a scan finds. -/
theorem Scanned.covers {d : Directory} (h : Scanned top place path d)
    (here : (top.at? place).any Node.isDirectory = true) : Covers top place path d.visits := by
  induction h with
  | @intro place path n files children files_increasing mem_files children_increasing mem_children
      _ ih =>
    have further (m : String) (w : List String) : place ++ [m] ++ w = place ++ m :: w := by simp
    have below (c : Directory) (hc : c ∈ children) :
        Covers top (place ++ [c.name]) (Files.Path.join path c.name) c.visits :=
      ih c hc ((mem_children c.name).mp (List.mem_map_of_mem hc))
    refine ⟨nodup_ways children_increasing.nodup fun c hc => (below c hc).nodup, ?_, ?_, ?_⟩
    · rintro (_ | ⟨m, w⟩)
      · simpa [map_way_visits] using here
      rw [cons_mem_ways, ← further]
      constructor
      · rintro ⟨c, hc, rfl, hw⟩
        exact ((below c hc).ways w).mp hw
      · intro directory
        obtain ⟨c, hc, rfl⟩ :=
          List.mem_map.mp ((mem_children m).mpr (Node.isDirectory_of_append directory))
        exact ⟨c, hc, rfl, ((below c hc).ways w).mpr directory⟩
    · rw [visits, List.forall_mem_cons]
      refine ⟨rfl, fun v hv => ?_⟩
      obtain ⟨c, hc, u, hu, rfl⟩ := mem_visitsBelow.mp hv
      exact (below c hc).exposed u hu
    · rw [visits, List.forall_mem_cons]
      refine ⟨⟨files_increasing.nodup, by simpa [pathBelow] using mem_files⟩, fun v hv => ?_⟩
      obtain ⟨c, hc, u, hu, rfl⟩ := mem_visitsBelow.mp hv
      have found := (below c hc).files u hu
      rw [further] at found
      exact found

/-- What a place is like and the name tell the whole directory. -/
theorem Scanned.unique {d d' : Directory} (h : Scanned top place path d)
    (h' : Scanned top place path d') (named : d.name = d'.name) : d = d' := by
  induction h generalizing d' with
  | @intro place path n files children files_increasing mem_files children_increasing mem_children
      below ih =>
    cases h' with
    | @intro _ _ n' files' children' files_increasing' mem_files' children_increasing'
        mem_children' below' =>
      obtain rfl : n = n' := named
      have same_files : files = files' :=
        files_increasing.eq_of_mem_iff files_increasing' fun f =>
          (mem_files f).trans (mem_files' f).symm
      have same_names : children.map Directory.name = children'.map Directory.name :=
        children_increasing.eq_of_mem_iff children_increasing' fun m =>
          (mem_children m).trans (mem_children' m).symm
      have same_children : children = children' := by
        refine List.ext_getElem (by simpa using congrArg List.length same_names) fun i hi hi' => ?_
        have same_name : children[i].name = children'[i].name := by
          have at_i := congrArg (fun names : List String => names[i]?) same_names
          simpa [hi, hi'] using at_i
        have there := below' children'[i] (List.getElem_mem hi')
        rw [← same_name] at there
        exact ih children[i] (List.getElem_mem hi) there same_name
      rw [same_files, same_children]

end Walking

end TypedDecl.Directory
