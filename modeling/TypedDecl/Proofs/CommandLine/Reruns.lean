import TypedDecl.Proofs.CommandLine.Runs
import TypedDecl.Proofs.Rescans

namespace TypedDecl.CommandLine

open Files (Node)

section Again

variable [Files.Start]

theorem run_staticMap_eq (s : Settings) (p : Provenance) (root : String) (top : Node) :
    (Generated.staticMap Node.host s p root).run top =
      (((Generated.scan Node.host root).run top).1.bind (Generated.ofDirectory s p), top) := by
  obtain ⟨found, ran⟩ := ReadsOnly.scan root top
  rw [Generated.staticMap, StateT.run_bind, ran]
  rfl

/-- Where the settings are read and the resources found as before, a command comes to the same. -/
theorem Comes.reread {top after : Node} {i : Invocation} {s : Settings} {g : Generated}
    {root : String} (h : Comes top i s g) (command : i.command = .staticMap root)
    (settings : ((i.loadSettings Node.host).run after).1 = ((i.loadSettings Node.host).run top).1)
    (found : ((Generated.scan Node.host root).run after).1 =
      ((Generated.scan Node.host root).run top).1) : Comes after i s g := by
  have generates (p : Provenance) (top : Node) : (i.generate Node.host p (i.settings s)).run top =
      (((Generated.scan Node.host root).run top).1.bind
        (Generated.ofDirectory (i.settings s) p), top) := by
    rw [Invocation.generate, command]
    exact run_staticMap_eq (i.settings s) p root top
  refine ⟨?_, fun p => ?_⟩
  · obtain ⟨loaded, ran⟩ := ReadsOnly.loadSettings i after
    rw [ran, h.loaded] at settings
    rw [ran]
    exact congrArg (·, after) settings
  · have made := h.made p
    rw [generates] at made ⊢
    rw [found]
    exact congrArg (·, after) (congrArg Prod.fst made)

/-- What a run has written, and what it has come to before. -/
theorem comes_of_target {top after : Node} {now : Moment} {words : List String} {outcome : Outcome}
    {i : Invocation} {path : String} (request : Request.ofWords words = .run i)
    (absent : dryRunWord ∉ words) (h : (run Node.host now words).run top = (outcome, after))
    (done : outcome.code = 0) (target : WritesTo top words path) :
    ∃ s g place, Comes top i s g ∧ path = i.output (i.settings s) ∧
      top.Written after path (Header.text s.shownLicense (.own now) ++ g.code) place := by
  have writes : i.dryRun = false :=
    Bool.eq_false_iff.mpr fun dry => absent ((dryRun_of_ofWords request).mp dry)
  rw [run_ofWords request] at h
  obtain ⟨s, g, place, comes, -, written⟩ := comes_of_run h writes done
  obtain ⟨i', s', request', loaded, rfl⟩ := target
  rw [request] at request'
  cases request'
  rw [comes.loaded] at loaded
  cases loaded
  exact ⟨s, g, place, comes, rfl, written⟩

theorem run_loadSettings {i : Invocation} {c : String} (config : i.config = some c) (top : Node) :
    ((i.loadSettings Node.host).run top).1 =
      match top.readText c with
      | .error fault => .error (.unreadable c fault)
      | .ok text =>
        match Settings.parse text with
        | some s => .ok s
        | none => .error (.invalidSettings c) := by
  have reads : (Node.host.readText c).run top = (pure (top.readText c, top) : Id _) := rfl
  rw [Invocation.loadSettings, config]
  change ((Settings.load Node.host c).run top).1 = _
  rw [Settings.load, StateT.run_bind, reads, pure_bind]
  cases top.readText c with
  | error fault => rfl
  | ok text =>
    dsimp only
    cases Settings.parse text <;> rfl

/-- Settings that are not found through the place of the output are read again as they were. -/
theorem loadSettings_again {top made after : Node} {i : Invocation} {s : Settings}
    {path text : String} {place : List String} (prepared : top.prepare path = (made, .ok place))
    (written : top.Written after path text place)
    (loaded : ((i.loadSettings Node.host).run top).1 = .ok s)
    (config : ∀ c ∈ i.config, ¬top.PassesOn place c) :
    ((i.loadSettings Node.host).run after).1 = .ok s := by
  cases given : i.config with
  | none =>
    have standard : i.loadSettings Node.host = pure (.ok .standard) := by
      rw [Invocation.loadSettings, given]
    rw [standard] at loaded ⊢
    exact loaded
  | some c =>
    rw [run_loadSettings given] at loaded ⊢
    cases read : top.read c with
    | error fault =>
      simp only [Node.readText, read, Except.bind] at loaded
      cases loaded
    | ok content =>
      have again := written.read_eq prepared read (config c given)
      simp only [Node.readText, read, again] at loaded ⊢
      exact loaded

/-- Running a command again leaves the code of the first run, each with the time of its own, if the
output is apart from the resources and neither the settings nor the output are found through its
place. -/
theorem rerun_same {top made after : Node} {now : Moment} {words : List String} {outcome : Outcome}
    {i : Invocation} {root path : String} {base place : List String} (named : top.wellNamed = true)
    (request : Request.ofWords words = .run i) (command : i.command = .staticMap root)
    (absent : dryRunWord ∉ words) (h : (run Node.host now words).run top = (outcome, after))
    (done : outcome.code = 0) (target : WritesTo top words path)
    (based : top.resolve root = .ok base) (prepared : top.prepare path = (made, .ok place))
    (apart : Generated.Apart top made root base place)
    (config : ∀ c ∈ i.config, ¬top.PassesOn place c) (free : ¬made.WrittenThrough place path)
    (later : Moment) :
    ∃ outcome' again license body,
      (run Node.host later words).run after = (outcome', again) ∧ outcome'.code = 0 ∧
        WritesTo after words path ∧
        top.Written after path (Header.text license (.own now) ++ body) place ∧
        after.Written again path (Header.text license (.own later) ++ body) place := by
  obtain ⟨s, g, place', comes, rfl, written⟩ := comes_of_target request absent h done target
  obtain rfl : place' = place := by
    have placed := written.placed
    rw [prepared] at placed
    exact (Except.ok.inj placed).symm
  have loaded := congrArg Prod.fst comes.loaded
  have settings := loadSettings_again prepared written loaded config
  have found : ((Generated.scan Node.host root).run after).1 =
      ((Generated.scan Node.host root).run top).1 := by
    cases scanned : ((Generated.scan Node.host root).run top).1 with
    | ok d => exact apart.rescan prepared written named based scanned
    | error e =>
      have made := comes.made (.own now)
      rw [Invocation.generate, command] at made
      rw [run_staticMap_eq, scanned] at made
      cases made
  have again := comes.reread command (settings.trans loaded.symm) found
  have placed : (after.prepare (i.output (i.settings s))).2 = .ok place' := by
    rw [written.prepare_again prepared free]
  obtain ⟨new, ran, rewritten⟩ :=
    Node.write_of_place placed (Header.text s.shownLicense (.own later) ++ g.code)
  refine ⟨.written (g.headed s.shownLicense (.own later)) (i.output (i.settings s)), new,
    s.shownLicense, g.code, ?_, rfl, ⟨i, s, request, again.loaded, rfl⟩, written, rewritten⟩
  have writes : i.dryRun = false :=
    Bool.eq_false_iff.mpr fun dry => absent ((dryRun_of_ofWords request).mp dry)
  rw [run_ofWords request, again.run_eq later]
  exact emit_written writes ran

end Again

section Home

attribute [local instance] Node.home

/-- With the output beside the resources, the second run leaves the same code a year later. -/
theorem rerun_of_output_beside_resources : ∃ outcome after outcome' again license body,
    (run Node.host ⟨2024, 1, 2, 3, 4, 5, 0⟩ ["static-map", "--root", "site", "-o", "out.rs"]).run
      siteWithOutput = (outcome, after) ∧ outcome.code = 0 ∧
    (run Node.host ⟨2025, 1, 2, 3, 4, 5, 0⟩ ["static-map", "--root", "site", "-o", "out.rs"]).run
      after = (outcome', again) ∧ outcome'.code = 0 ∧
    siteWithOutput.Written after "out.rs"
      (Header.text license (.own ⟨2024, 1, 2, 3, 4, 5, 0⟩) ++ body) ["home", "out.rs"] ∧
    after.Written again "out.rs"
      (Header.text license (.own ⟨2025, 1, 2, 3, 4, 5, 0⟩) ++ body) ["home", "out.rs"] := by
  let words := ["static-map", "--root", "site", "-o", "out.rs"]
  let first := (run Node.host ⟨2024, 1, 2, 3, 4, 5, 0⟩ words).run siteWithOutput
  let i : Invocation := ⟨.staticMap "site", none, [("root", "site"), ("output", "out.rs")], false⟩
  have named : siteWithOutput.wellNamed = true := by decide +kernel
  have request : Request.ofWords words = .run i := by decide
  have absent : dryRunWord ∉ words := by decide
  have done : first.1.code = 0 := by decide +kernel
  have runs : (run Node.host ⟨2024, 1, 2, 3, 4, 5, 0⟩ words).run siteWithOutput =
      (first.1, first.2) := (Prod.eta first).symm
  have target : WritesTo siteWithOutput words "out.rs" := ⟨i, .standard, request, rfl, rfl⟩
  have prepared : siteWithOutput.prepare "out.rs" = (siteWithOutput, .ok ["home", "out.rs"]) := rfl
  have old : siteWithOutput.held? ["home", "out.rs"] = some (.file ⟨#[]⟩) := rfl
  have plain target : siteWithOutput.held? ["home", "out.rs"] ≠ some (.link target) := by
    rw [old]
    exact nofun
  have stands : siteWithOutput.StandsForDirectory "site" := Node.isDirectoryAt_iff.mp rfl
  have apart : Generated.Apart siteWithOutput siteWithOutput "site" ["home", "site"]
      ["home", "out.rs"] :=
    .of_standing prepared stands plain (.inr fun w => by simp)
  obtain ⟨outcome', again, license, body, reruns, redone, -, written, rewritten⟩ :=
    rerun_same named request rfl absent runs done target rfl prepared apart nofun
      (Node.not_writtenThrough prepared plain) ⟨2025, 1, 2, 3, 4, 5, 0⟩
  exact ⟨first.1, first.2, outcome', again, license, body, runs, done, reruns, redone, written,
    rewritten⟩

end Home

/-- The exit codes of a run and of the same run after it. -/
def exitCodes [Files.Start] (top : Node) (words : List String) : Nat × Nat :=
  let first := (run Node.host ⟨2024, 1, 2, 3, 4, 5, 0⟩ words).run top
  let second := (run Node.host ⟨2024, 1, 2, 3, 4, 5, 0⟩ words).run first.2
  (first.1.code, second.1.code)

/-- The files and the directories in the root that is scanned, before a run and after it. -/
def namesAround [Files.Start] (top : Node) (root : String) (words : List String) :
    Option (List String) × Option (List String) :=
  let after := ((run Node.host ⟨2024, 1, 2, 3, 4, 5, 0⟩ words).run top).2
  let names (d : Directory) := d.files ++ d.children.map Directory.name
  (((Generated.scan Node.host root).run top).1.toOption.map names,
    ((Generated.scan Node.host root).run after).1.toOption.map names)

/-- What can be in the way of the same code: an output among the resources, one in the place of a
link to the settings, to the resources or to a directory among them, one in the place of the link
that its own path leads through, and one with a directory that is made among the resources or that a
link among them has waited for. -/
theorem rerun_of_output_in_the_way :
    exitCodes (.directory [("site", .empty)]) ["static-map", "--root", "site", "-o", "site/self"] =
        (0, 1) ∧
      exitCodes (.directory [("site", .empty), ("etc", .directory [("c.toml", .file ⟨#[]⟩)]),
          ("www", .link "etc")])
        ["static-map", "--root", "site", "--config", "www/c.toml", "-o", "www"] = (0, 1) ∧
      exitCodes (.directory [("site", .empty), ("www", .link "site")])
        ["static-map", "--root", "www", "-o", "www"] = (0, 1) ∧
      namesAround (.directory [("site", .directory [("up", .link "../www")]), ("www", .link ".")])
        "site" ["static-map", "--root", "site", "-o", "www"] = (some [], some ["up"]) ∧
      exitCodes (.directory [("site", .empty), ("www", .link ".")])
        ["static-map", "--root", "site", "-o", "www/www"] = (0, 1) ∧
      namesAround (.directory [("site", .empty)]) "site"
        ["static-map", "--root", "site", "-o", "site/new/../../out.rs"] = (some [], some ["new"]) ∧
      namesAround (.directory [("site", .directory [("gen", .link "../gen")])]) "site"
        ["static-map", "--root", "site", "-o", "gen/out.rs"] = (some ["gen"], some []) := by
  refine ⟨?_, ?_, ?_, ?_, ?_, ?_, ?_⟩ <;> decide +kernel

end TypedDecl.CommandLine
