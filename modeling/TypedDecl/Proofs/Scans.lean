import TypedDecl.Generation
import TypedDecl.Proofs.Scanning

namespace TypedDecl

open Files (Node)

namespace Directory

section

variable {l l' : Listing} {top : Node}

theorem sizeOf_directory_lt {es sub : List (String × Node)} {m : String}
    (mem : (m, Node.directory sub) ∈ es) : sizeOf sub < sizeOf es := by
  have smaller := List.sizeOf_lt_of_mem mem
  simp only [Prod.mk.sizeOf_spec, Node.directory.sizeOf_spec] at smaller
  omega

variable [Files.Start]

/-- What is made of a directory depends on which directories are listed and not on how. -/
theorem assemble_foundAt_congr {path : String} {es : List (String × Node)}
    (same : l'.refusal = l.refusal) (named : (Node.directory es).wellNamed = true) (n : String) :
    assemble n (foundAt l' top path es) = assemble n (foundAt l top path es) := by
  obtain ⟨names, below⟩ := Node.wellNamed_directory.mp named
  have each : ∀ x ∈ es, foundNode l' top path x = foundNode l top path x := by
    rintro ⟨m, node⟩ mem
    cases node with
    | file content => rfl
    | link target => rfl
    | directory sub =>
      cases refused : l.refusal (Files.Path.join path m) with
      | some fault =>
        rw [foundNode_closed refused, foundNode_closed (same ▸ refused)]
      | none =>
        have smaller := sizeOf_directory_lt mem
        rw [foundNode_directory refused, foundNode_directory (same ▸ refused),
          assemble_foundAt_congr same (below _ mem).2 m]
  have perm : (foundAt l' top path es).Perm (foundAt l top path es) := by
    refine (foundAt_perm es).trans ?_
    rw [List.filterMap_congr each]
    exact (foundAt_perm es).symm
  exact assemble_congr (nodup_foundAt names) perm
termination_by sizeOf es

/-- What is made of a directory is what is there, and then all directories below are listed. -/
theorem scanned_of_assemble {place : List String} {path n : String} {es : List (String × Node)}
    {d : Directory} (here : top.at? place = some (.directory es))
    (named : (Node.directory es).wellNamed = true)
    (h : assemble n (foundAt l top path es) = .ok d) :
    Scanned top place path d ∧ ∀ w ≠ [], (top.at? (place ++ w)).any Node.isDirectory = true →
      l.refusal (pathBelow path w) = none := by
  obtain ⟨names, below⟩ := Node.wellNamed_directory.mp named
  have own : ∀ y ∈ foundAt l top path es, ∀ c, y.2 = .ok (some c) → c.name = y.1 := by
    intro y hy
    obtain ⟨x, -, found⟩ := mem_foundAt.mp hy
    exact (name_foundNode found).2
  obtain ⟨all, files, children, rfl, files_increasing, mem_files, children_increasing,
    mem_children⟩ := assemble_ok (nodup_foundAt names) own h
  have real {c : Directory} (hc : c ∈ children) := child_mem_foundAt.mp ((mem_children c).mp hc)
  -- A directory that was not listed would have been found as such.
  have listed {m : String} {sub : List (String × Node)} (mem : (m, Node.directory sub) ∈ es) :
      l.refusal (Files.Path.join path m) = none ∧ ∃ c ∈ children, c.name = m ∧
        assemble m (foundAt l top (Files.Path.join path m) sub) = .ok c := by
    cases refused : l.refusal (Files.Path.join path m) with
    | some fault =>
      obtain ⟨c, hc⟩ := all _ (error_mem_foundAt.mpr ⟨sub, mem, .inl ⟨fault, refused, rfl⟩⟩)
      cases hc
    | none =>
      cases made : assemble m (foundAt l top (Files.Path.join path m) sub) with
      | error u =>
        obtain ⟨c, hc⟩ := all _ (error_mem_foundAt.mpr ⟨sub, mem, .inr ⟨refused, made⟩⟩)
        cases hc
      | ok c =>
        have same := name_assemble made
        have found := child_mem_foundAt.mpr ⟨sub, mem, refused, made⟩
        exact ⟨rfl, c, (mem_children c).mpr (same.symm ▸ found), same, rfl⟩
  refine ⟨?_, ?_⟩
  · refine .intro files_increasing
      (fun f => (mem_files f).trans (file_mem_foundAt here names f)) children_increasing
      (fun m => ?_) (fun c hc => ?_)
    · constructor
      · intro hm
        obtain ⟨c, hc, rfl⟩ := List.mem_map.mp hm
        obtain ⟨sub, mem, -⟩ := real hc
        rw [(at?_below here names).mpr mem]
        rfl
      · intro directory
        obtain ⟨sub, node⟩ := Node.exists_of_isDirectory directory
        obtain ⟨-, c, hc, same, -⟩ := listed ((at?_below here names).mp node)
        exact List.mem_map.mpr ⟨c, hc, same⟩
    · obtain ⟨sub, mem, -, made⟩ := real hc
      have smaller := sizeOf_directory_lt mem
      exact (scanned_of_assemble ((at?_below here names).mpr mem) (below _ mem).2 made).1
  · intro w some_name directory
    cases w with
    | nil => exact absurd rfl some_name
    | cons m w =>
      rw [← List.singleton_append, ← List.append_assoc] at directory
      obtain ⟨sub, node⟩ := Node.exists_of_isDirectory (Node.isDirectory_of_append directory)
      have mem := (at?_below here names).mp node
      obtain ⟨refused, c, -, -, made⟩ := listed mem
      cases w with
      | nil => exact refused
      | cons m' w =>
        have smaller := sizeOf_directory_lt mem
        exact (scanned_of_assemble node (below _ mem).2 made).2 (m' :: w) (by simp) directory
termination_by sizeOf es

/-- Where nothing is made of a directory, one below it is not listed. -/
theorem refused_of_assemble {place : List String} {path n : String} {es : List (String × Node)}
    {u : Unlisted} (here : top.at? place = some (.directory es))
    (named : (Node.directory es).wellNamed = true)
    (h : assemble n (foundAt l top path es) = .error u) :
    ∃ w, (top.at? (place ++ w)).any Node.isDirectory = true ∧ u.1 = pathBelow path w ∧
      l.refusal u.1 = some u.2 := by
  obtain ⟨names, below⟩ := Node.wellNamed_directory.mp named
  obtain ⟨m, found⟩ := assemble_error h
  obtain ⟨sub, mem, ⟨fault, refused, rfl⟩ | ⟨-, made⟩⟩ := error_mem_foundAt.mp found
  · refine ⟨[m], ?_, rfl, refused⟩
    rw [(at?_below here names).mpr mem]
    rfl
  · have smaller := sizeOf_directory_lt mem
    obtain ⟨w, directory, same, refused⟩ :=
      refused_of_assemble ((at?_below here names).mpr mem) (below _ mem).2 made
    rw [List.append_assoc] at directory
    exact ⟨m :: w, directory, same, refused⟩
termination_by sizeOf es

end

end Directory

namespace Generated

open Directory (Scanned pathBelow)

/-- A directory that a scan comes to and that is not listed, and why: the one that it begins with,
where there may be none, or one below that. -/
inductive Unreadable [Files.Start] (l : Listing) (top : Node) (path : String) :
    String → Files.Fault → Prop
  | lost {fault : Files.Fault} (h : top.find path = .error fault) : Unreadable l top path path fault
  | other {n : Node} (h : top.find path = .ok n) (leaf : n.isDirectory = false) :
    Unreadable l top path path .notDirectory
  | refused {place w : List String} {fault : Files.Fault} (h : top.resolve path = .ok place)
    (directory : (top.at? (place ++ w)).any Node.isDirectory = true)
    (refusal : l.refusal (pathBelow path w) = some fault) :
    Unreadable l top path (pathBelow path w) fault

section Outcomes

variable [Files.Start] {l : Listing} {top : Node} {path : String}

/-- Where a scan begins with a directory, only a refusal is in its way. -/
theorem Unreadable.refusal_of_find {es : List (String × Node)} {p : String} {fault : Files.Fault}
    (h : Unreadable l top path p fault) (found : top.find path = .ok (.directory es)) :
    ∃ place w, top.resolve path = .ok place ∧
      (top.at? (place ++ w)).any Node.isDirectory = true ∧ p = pathBelow path w ∧
      l.refusal p = some fault := by
  cases h with
  | lost lost =>
    rw [found] at lost
    cases lost
  | other other leaf =>
    rw [found] at other
    cases other
    cases leaf
  | refused resolved directory refusal => exact ⟨_, _, resolved, directory, rfl, refusal⟩

theorem run_scan (l : Listing) (top : Node) (path : String) :
    ((scan (Node.hostVia l) path).run top).1 =
      match top.listVia l path with
      | .error fault => .error (.unreadable path fault)
      | .ok entries =>
        (Directory.ofEntries path entries).mapError fun (path, fault) => .unreadable path fault := by
  have listed : ((Node.hostVia l).list path).run top = pure (top.listVia l path, top) := rfl
  cases h : top.listVia l path with
  | error fault =>
    rw [h] at listed
    simp only [scan, StateT.run_bind, listed]
    rfl
  | ok entries =>
    rw [h] at listed
    simp only [scan, StateT.run_bind, listed]
    rfl

/-- Listing a directory fails where there is none or where it is refused. -/
theorem unreadable_of_listVia {fault : Files.Fault} (h : top.listVia l path = .error fault) :
    Unreadable l top path path fault := by
  rw [Node.listVia] at h
  cases resolved : top.resolve path with
  | error fault' =>
    rw [resolved] at h
    cases h
    refine .lost ?_
    rw [Node.find, resolved]
    rfl
  | ok place =>
    rw [resolved, Except.bind] at h
    cases node : top.at? place with
    | none =>
      rw [node] at h
      cases h
      refine .lost ?_
      rw [Node.find, resolved, Except.bind, node]
    | some n =>
      have found : top.find path = .ok n := by rw [Node.find, resolved, Except.bind, node]
      rw [node] at h
      cases n with
      | file content =>
        cases h
        exact .other found rfl
      | link target =>
        cases h
        exact .other found rfl
      | directory es =>
        cases refusal : l.refusal path with
        | none =>
          simp only [refusal] at h
          cases h
        | some fault' =>
          simp only [refusal] at h
          cases h
          refine .refused (w := []) resolved ?_ refusal
          rw [List.append_nil, node]
          rfl

theorem scan_eq_ok {d : Directory} (named : top.wellNamed = true)
    (h : ((scan (Node.hostVia l) path).run top).1 = .ok d) :
    ∃ place, top.resolve path = .ok place ∧ (top.at? place).any Node.isDirectory = true ∧
      d.name = "" ∧ Scanned top place path d ∧ ∀ p fault, ¬Unreadable l top path p fault := by
  rw [run_scan] at h
  cases listed : top.listVia l path with
  | error fault =>
    rw [listed] at h
    cases h
  | ok entries =>
    obtain ⟨place, es, resolved, here, listing, rfl⟩ := Node.listVia_ok listed
    rw [listed] at h
    cases made : Directory.ofEntries path (l.order path (top.entriesAt l path es)) with
    | error u =>
      simp only [made] at h
      cases h
    | ok d' =>
      simp only [made] at h
      cases h
      have found : top.find path = .ok (.directory es) := by
        rw [Node.find, resolved, Except.bind, here]
      obtain ⟨scanned, listings⟩ :=
        Directory.scanned_of_assemble here (Node.wellNamed_at? named here).1 made
      have directory : (top.at? place).any Node.isDirectory = true := by
        rw [here]
        rfl
      refine ⟨place, resolved, directory, Directory.name_assemble made, scanned, ?_⟩
      intro p fault unreadable
      obtain ⟨place', w, resolved', directory, rfl, refusal⟩ := unreadable.refusal_of_find found
      rw [resolved] at resolved'
      cases resolved'
      cases w with
      | nil =>
        rw [pathBelow, List.foldl_nil, listing] at refusal
        cases refusal
      | cons m w =>
        rw [listings (m :: w) (by simp) directory] at refusal
        cases refusal

theorem scan_eq_error {e : Error} (named : top.wellNamed = true)
    (h : ((scan (Node.hostVia l) path).run top).1 = .error e) :
    ∃ p fault, e = .unreadable p fault ∧ Unreadable l top path p fault := by
  rw [run_scan] at h
  cases listed : top.listVia l path with
  | error fault =>
    rw [listed] at h
    cases h
    exact ⟨path, fault, rfl, unreadable_of_listVia listed⟩
  | ok entries =>
    obtain ⟨place, es, resolved, here, -, rfl⟩ := Node.listVia_ok listed
    rw [listed] at h
    cases made : Directory.ofEntries path (l.order path (top.entriesAt l path es)) with
    | ok d =>
      simp only [made] at h
      cases h
    | error u =>
      simp only [made] at h
      cases h
      obtain ⟨w, directory, same, refusal⟩ :=
        Directory.refused_of_assemble here (Node.wellNamed_at? named here).1 made
      refine ⟨u.1, u.2, rfl, ?_⟩
      rw [same] at refusal ⊢
      exact .refused resolved directory refusal

/-- However directories are listed, a scan ends with one and the same directory, which is what
is there; and if it comes to a directory that is not listed, it ends with such a one and nothing
else. -/
theorem scan_outcome (named : top.wellNamed = true) (l : Listing) (path : String) :
    (∀ l' : Listing, l'.refusal = l.refusal →
      ((scan (Node.hostVia l') path).run top).1 = ((scan (Node.hostVia l) path).run top).1) ∧
    ((∃ p fault, Unreadable l top path p fault) →
      ∃ p fault, Unreadable l top path p fault ∧
        ((scan (Node.hostVia l) path).run top).1 = .error (.unreadable p fault)) ∧
    ((∀ p fault, ¬Unreadable l top path p fault) →
      ∃ place d, top.resolve path = .ok place ∧
        ((scan (Node.hostVia l) path).run top).1 = .ok d ∧ d.name = "" ∧ Scanned top place path d ∧
        ∀ d' : Directory, d'.name = "" → Scanned top place path d' → d' = d) := by
  refine ⟨fun l' same => ?_, fun some_unreadable => ?_, fun all_readable => ?_⟩
  · rw [run_scan, run_scan, Node.listVia, Node.listVia]
    cases resolved : top.resolve path with
    | error fault => rfl
    | ok place =>
      simp only [Except.bind]
      cases node : top.at? place with
      | none => rfl
      | some n =>
        cases n with
        | file content => rfl
        | link target => rfl
        | directory es =>
          rw [same]
          cases refusal : l.refusal path with
          | some fault => rfl
          | none =>
            exact congrArg (Except.mapError _)
              (Directory.assemble_foundAt_congr same (Node.wellNamed_at? named node).1 "")
  · obtain ⟨p, fault, unreadable⟩ := some_unreadable
    cases outcome : ((scan (Node.hostVia l) path).run top).1 with
    | ok d =>
      obtain ⟨-, -, -, -, -, readable⟩ := scan_eq_ok named outcome
      exact absurd unreadable (readable p fault)
    | error e =>
      obtain ⟨p', fault', rfl, first⟩ := scan_eq_error named outcome
      exact ⟨p', fault', first, rfl⟩
  · cases outcome : ((scan (Node.hostVia l) path).run top).1 with
    | error e =>
      obtain ⟨p, fault, -, unreadable⟩ := scan_eq_error named outcome
      exact absurd unreadable (all_readable p fault)
    | ok d =>
      obtain ⟨place, resolved, -, root, scanned, -⟩ := scan_eq_ok named outcome
      refine ⟨place, d, resolved, rfl, root, scanned, fun d' root' scanned' => ?_⟩
      exact scanned'.unique scanned (root'.trans root.symm)

end Outcomes

/-- Files with links in circles: one to its own directory, one to itself, one from below upwards. -/
def circularFiles : Node :=
  .directory [("site", .directory [("z.css", .file ⟨#[]⟩), ("here", .link "."),
    ("self", .link "self"), ("img", .directory [("up", .link "../../site"),
      ("b.png", .file ⟨#[]⟩)]), ("a.js", .file ⟨#[]⟩)])]

/-- Directories are listed backwards, and some are not. -/
def backwards (refusal : String → Option Files.Fault) : Listing :=
  ⟨fun _ es => es.reverse, fun _ es => es.reverse_perm, refusal⟩

/-- Circles of links do not keep a scan from its end: two of them lead to directories and are left
out, the third is listed. A directory that may not be read keeps it from its end. -/
theorem scan_of_circularFiles :
    let denied : Files.Fault := .other "Permission denied (os error 13)"
    let guarded := backwards fun path => if path = "site/img" then some denied else none
    let found := Directory.mk "" ["a.js", "self", "z.css"] [.mk "img" ["b.png"] [] true] true
    circularFiles.wellNamed = true ∧
      ((scan (Node.hostVia (backwards fun _ => none)) "site").run circularFiles).1 = .ok found ∧
      Scanned circularFiles ["site"] "site" found ∧
      ((scan (Node.hostVia guarded) "site").run circularFiles).1 =
        .error (.unreadable "site/img" denied) := by
  intro denied guarded found
  have named : circularFiles.wellNamed = true := by decide +kernel
  have resolved : circularFiles.resolve "site" = .ok ["site"] := rfl
  obtain ⟨es, directory⟩ : ∃ es, circularFiles.find "site" = .ok (.directory es) := ⟨_, rfl⟩
  have computed :
      ((scan (Node.hostVia (backwards fun _ => none)) "site").run circularFiles).1 = .ok found := by
    have listed : circularFiles.listVia (backwards fun _ => none) "site" = .ok [("a.js", .file),
        ("img", .directory [("b.png", .file), ("up", .link true)]), ("self", .link false),
        ("here", .link true), ("z.css", .file)] := rfl
    have told : Directory.foundEntries "site" [("a.js", .file),
        ("img", .directory [("b.png", .file), ("up", .link true)]), ("self", .link false),
        ("here", .link true), ("z.css", .file)] =
      [("a.js", .ok none), ("img", (Directory.assemble "img" [("b.png", .ok none)]).map some),
        ("self", .ok none), ("z.css", .ok none)] := rfl
    have img : Directory.assemble "img" [("b.png", .ok none)] =
        .ok (.mk "img" ["b.png"] [] true) :=
      Directory.assemble_of_sorted _ (List.pairwise_singleton ..)
    have sorted : ([("a.js", .ok none),
        ("img", .ok (some (Directory.mk "img" ["b.png"] [] true))), ("self", .ok none),
        ("z.css", .ok none)] : List Found).Pairwise fun a b => decide (a.1 ≤ b.1) = true := by
      decide +kernel
    rw [run_scan, listed]
    dsimp only
    rw [Directory.ofEntries, told, img]
    exact congrArg (Except.mapError _) (Directory.assemble_of_sorted _ sorted)
  refine ⟨named, computed, ?_, ?_⟩
  · have readable : ∀ p fault,
        ¬Unreadable (backwards fun _ => none) circularFiles "site" p fault := by
      intro p fault unreadable
      obtain ⟨-, -, -, -, -, refusal⟩ := unreadable.refusal_of_find directory
      cases refusal
    obtain ⟨place, d, resolved', outcome, -, scanned, -⟩ :=
      (scan_outcome named (backwards fun _ => none) "site").2.2 readable
    rw [resolved] at resolved'
    cases resolved'
    rw [computed] at outcome
    cases outcome
    exact scanned
  · have unreadable : Unreadable guarded circularFiles "site" "site/img" denied :=
      .refused (w := ["img"]) resolved rfl rfl
    obtain ⟨p, fault, first, outcome⟩ :=
      (scan_outcome named guarded "site").2.1 ⟨_, _, unreadable⟩
    obtain ⟨-, -, -, -, -, refusal⟩ := first.refusal_of_find directory
    simp only [guarded, backwards, Option.ite_none_right_eq_some] at refusal
    rw [refusal.1, ← Option.some.inj refusal.2] at outcome
    exact outcome

end Generated

end TypedDecl
