import TypedDecl.CommandLine.Run
import TypedDecl.Proofs.CommandLine.DryRun
import TypedDecl.Proofs.Files.Writes

namespace TypedDecl

open Files (Node)

/-- The licence in the header, which is none if it is blank. -/
def Settings.shownLicense (s : Settings) : Option String :=
  if Unicode.allBlank s.license then none else some s.license

namespace Generated

/-- Code with the header before it. -/
def headed (license : Option String) (p : Provenance) (g : Generated) : Generated :=
  ⟨Header.text license p ++ g.code, g.count⟩

/-- Whatever declarations are rendered, only the header depends on the provenance. -/
theorem rendered_headed {α : Type} (ns : String) (s : Settings) (described : Except Error α)
    (declarations : α → List Declaration) :
    ∃ r : Except Error Generated, ∀ p,
      (do
        let d ← described
        let code ← render ns (declarations d) (s.renderOptions s.sql.runtime p)
        pure (⟨code, (declarations d).length⟩ : Generated)) = r.map (headed s.shownLicense p) := by
  cases described with
  | error e => exact ⟨.error e, fun p => rfl⟩
  | ok d =>
    have rendered (p : Provenance) : render ns (declarations d) (s.renderOptions s.sql.runtime p) =
        (renderCode ns (declarations d) s.sql.runtime).map (Header.text s.shownLicense p ++ ·) := rfl
    refine ⟨(renderCode ns (declarations d) s.sql.runtime).map (⟨·, (declarations d).length⟩),
      fun p => ?_⟩
    change (render ns (declarations d) (s.renderOptions s.sql.runtime p) >>= fun code => pure _) = _
    rw [rendered]
    cases renderCode ns (declarations d) s.sql.runtime <;> rfl

theorem ofColumns_headed (s : Settings) (columns : List Column) :
    ∃ r : Except Error Generated, ∀ p, ofColumns s p columns = r.map (headed s.shownLicense p) :=
  rendered_headed _ s (CatalogModel.ofColumns s.sql.catalogOptions columns) CatalogModel.declarations

theorem ofDirectory_headed (s : Settings) (root : Directory) :
    ∃ r : Except Error Generated, ∀ p, ofDirectory s p root = r.map (headed s.shownLicense p) :=
  rendered_headed _ s root.describe id

end Generated

namespace CommandLine

/-- A computation that only reads. -/
def ReadsOnly {α : Type} (x : StateM Node α) : Prop := ∀ top, ∃ a, x.run top = (a, top)

namespace ReadsOnly

variable {α β : Type} {x : StateM Node α}

theorem pure (a : α) : ReadsOnly (Pure.pure a : StateM Node α) := fun _ => ⟨a, rfl⟩

theorem bind (h : ReadsOnly x) {f : α → StateM Node β} (next : ∀ a, ReadsOnly (f a)) :
    ReadsOnly (x >>= f) := by
  intro top
  obtain ⟨a, ran⟩ := h top
  obtain ⟨b, then_ran⟩ := next a top
  refine ⟨b, ?_⟩
  rw [StateT.run_bind, ran]
  exact then_ran

variable [Files.Start]

theorem readText (path : String) : ReadsOnly (Node.host.readText path) :=
  fun top => ⟨top.readText path, rfl⟩

theorem list (path : String) : ReadsOnly (Node.host.list path) :=
  fun top => ⟨top.list path, rfl⟩

theorem loadCatalog (path : String) : ReadsOnly (Catalog.load Node.host path) := by
  refine (readText path).bind fun read => ?_
  cases read with
  | error fault => exact .pure _
  | ok text => exact .pure _

theorem connect (directory : String) (target : Target) :
    ReadsOnly (Catalog.connect Node.host directory target) := by
  rw [Catalog.connect]
  split
  · exact .pure _
  · exact .loadCatalog _

theorem loadSettings (i : Invocation) : ReadsOnly (i.loadSettings Node.host) := by
  rw [Invocation.loadSettings]
  split
  · next path _ =>
    refine (readText path).bind fun read => ?_
    cases read with
    | error fault => exact .pure _
    | ok text =>
      dsimp only
      split
      · exact .pure _
      · exact .pure _
  · exact .pure _

theorem scan (path : String) : ReadsOnly (Generated.scan Node.host path) := by
  refine (list path).bind fun listed => ?_
  cases listed with
  | error fault => exact .pure _
  | ok entries => exact .pure _

end ReadsOnly

/-- Reading a source changes nothing, and only the header depends on the provenance. -/
theorem run_generate [Files.Start] (i : Invocation) (s : Settings) (top : Node) :
    ∃ r : Except Error Generated, ∀ p,
      (i.generate Node.host p s).run top = (r.map (Generated.headed s.shownLicense p), top) := by
  cases command : i.command with
  | sql directory =>
    cases told : Target.ofSettings s.sql.source with
    | error e =>
      refine ⟨.error e, fun p => ?_⟩
      simp only [Invocation.generate, command, Generated.sql, told]
      rfl
    | ok target =>
      obtain ⟨columns, ran⟩ := ReadsOnly.connect directory target top
      cases columns with
      | error e =>
        refine ⟨.error e, fun p => ?_⟩
        simp only [Invocation.generate, command, Generated.sql, told, StateT.run_bind, ran]
        rfl
      | ok columns =>
        obtain ⟨r, headed⟩ := Generated.ofColumns_headed s columns
        refine ⟨r, fun p => ?_⟩
        simp only [Invocation.generate, command, Generated.sql, told, StateT.run_bind, ran]
        exact congrArg (·, top) (headed p)
  | staticMap path =>
    obtain ⟨root, ran⟩ := ReadsOnly.scan path top
    cases root with
    | error e =>
      refine ⟨.error e, fun p => ?_⟩
      simp only [Invocation.generate, command, Generated.staticMap, ran, StateT.run_bind]
      rfl
    | ok root =>
      obtain ⟨r, headed⟩ := Generated.ofDirectory_headed s root
      refine ⟨r, fun p => ?_⟩
      simp only [Invocation.generate, command, Generated.staticMap, ran, StateT.run_bind]
      exact congrArg (·, top) (headed p)

/-- No option changes the licence. -/
theorem shownLicense_settings (i : Invocation) (s : Settings) :
    (i.settings s).shownLicense = s.shownLicense := by
  cases command : i.command <;> simp only [Invocation.settings, command] <;> rfl

/-- What a command comes to with these files: settings, and code but for its header. -/
structure Comes [Files.Start] (top : Node) (i : Invocation) (s : Settings) (g : Generated) :
    Prop where
  loaded : (i.loadSettings Node.host).run top = (.ok s, top)
  made : ∀ p, (i.generate Node.host p (i.settings s)).run top =
    (.ok (g.headed s.shownLicense p), top)

namespace Comes

variable [Files.Start] {top : Node} {i i' : Invocation} {s : Settings} {g : Generated}

/-- What is done with the code is all that is left of the run. -/
theorem run_eq (h : Comes top i s g) (now : Moment) :
    (i.run Node.host now).run top =
      (i.emit Node.host (i.settings s)
        (g.headed s.shownLicense (.own now))).run top := by
  rw [Invocation.run, StateT.run_bind, h.loaded]
  change (i.generate Node.host (.own now) (i.settings s) >>= _).run top = _
  rw [StateT.run_bind, h.made]
  rfl

/-- A dry run of the same command with the same options comes to the same. -/
theorem same (h : Comes top i s g) (command : i'.command = i.command)
    (config : i'.config = i.config)
    (given : ∀ k ≠ dryRunKey, i'.given.value? k = i.given.value? k) : Comes top i' s g := by
  have settings : i'.settings s = i.settings s := by
    simp only [Invocation.settings, command, Invocation.applySql, Invocation.applyStaticMap,
      given "server" (by decide), given "db" (by decide), given "connection-string" (by decide),
      given "user-id" (by decide), given "password" (by decide), given "ns" (by decide),
      given "with-schema" (by decide), given "output" (by decide)]
  refine ⟨?_, fun p => ?_⟩
  · rw [← h.loaded, Invocation.loadSettings, Invocation.loadSettings, config]
  · rw [settings, ← h.made p, Invocation.generate, Invocation.generate, command]

end Comes

/-- A run fails with nothing changed, whenever it takes place, or it comes to code. -/
theorem run_cases [Files.Start] (top : Node) (i : Invocation) :
    (∃ e, ∀ now, (i.run Node.host now).run top = (.failure e, top)) ∨ ∃ s g, Comes top i s g := by
  obtain ⟨loaded, ran⟩ := ReadsOnly.loadSettings i top
  cases loaded with
  | error e =>
    refine .inl ⟨e, fun now => ?_⟩
    rw [Invocation.run, StateT.run_bind, ran]
    rfl
  | ok s =>
    obtain ⟨generated, made⟩ := run_generate i (i.settings s) top
    cases generated with
    | error e =>
      refine .inl ⟨e, fun now => ?_⟩
      rw [Invocation.run, StateT.run_bind, ran]
      change (i.generate Node.host (.own now) (i.settings s) >>= _).run top = _
      rw [StateT.run_bind, made]
      rfl
    | ok g =>
      simp only [shownLicense_settings] at made
      exact .inr ⟨s, g, ran, made⟩

theorem code_failure (e : Error) : (Outcome.failure e).code ≠ 0 := by
  cases e <;> simp [Outcome.failure]

section Emitting

variable [Files.Start]

theorem run_writeFile {top after : Node} {path text : String} {result : Except Files.Fault Unit}
    (ran : top.write path text = (after, result)) :
    (writeFile Node.host path text).run top = (result.mapError (.unwritable path), after) := by
  have write : (Node.host.write path text).run top = (result, after) := by
    change (top.write path text).swap = _
    rw [ran]
    rfl
  rw [writeFile, StateT.run_bind, write]
  rfl

theorem emit_written {i : Invocation} (writes : i.dryRun = false) {s : Settings} {g : Generated}
    {top after : Node} (ran : top.write (i.output s) g.code = (after, .ok ())) :
    (i.emit Node.host s g).run top = (.written g (i.output s), after) := by
  rw [Invocation.emit, writes]
  change (writeFile Node.host (i.output s) g.code >>= _).run top = _
  rw [StateT.run_bind, run_writeFile ran]
  rfl

/-- Code is written as a whole, or the run fails and at most makes directories. -/
theorem emit_cases {i : Invocation} (writes : i.dryRun = false) (s : Settings) (g : Generated)
    (top : Node) :
    (∃ e after, (i.emit Node.host s g).run top = (.failure e, after) ∧ top.Kept after) ∨
      ∃ after place, (i.emit Node.host s g).run top = (.written g (i.output s), after) ∧
        top.Written after (i.output s) g.code place := by
  rcases top.write_cases (i.output s) g.code with
    ⟨fault, after, ran, kept⟩ | ⟨after, place, ran, written⟩
  · refine .inl ⟨.unwritable (i.output s) fault, after, ?_, kept⟩
    rw [Invocation.emit, writes]
    change (writeFile Node.host (i.output s) g.code >>= _).run top = _
    rw [StateT.run_bind, run_writeFile ran]
    rfl
  · exact .inr ⟨after, place, emit_written writes ran, written⟩

/-- The file that a command line has its code written to. -/
def WritesTo (top : Node) (words : List String) (path : String) : Prop :=
  ∃ i s, Request.ofWords words = .run i ∧ (i.loadSettings Node.host).run top = (.ok s, top) ∧
    path = i.output (i.settings s)

end Emitting

theorem dryRun_of_ofWords {words : List String} {i : Invocation}
    (h : Request.ofWords words = .run i) : i.dryRun = true ↔ dryRunWord ∈ words := by
  obtain ⟨_, _, _, _, _, asks⟩ := asks_of_ofWords h
  exact asks.dryRun_iff

section Running

variable [Files.Start]

theorem run_ofWords {words : List String} {i : Invocation} (h : Request.ofWords words = .run i)
    (now : Moment) : run Node.host now words = i.run Node.host now := by
  rw [run, h]

/-- A run that writes has come to its code. -/
theorem comes_of_run {top after : Node} {i : Invocation} {now : Moment} {outcome : Outcome}
    (h : (i.run Node.host now).run top = (outcome, after)) (writes : i.dryRun = false)
    (done : outcome.code = 0) :
    ∃ s g place, Comes top i s g ∧ outcome.stdout = "" ∧
      top.Written after (i.output (i.settings s))
        (Header.text s.shownLicense (.own now) ++ g.code) place := by
  rcases run_cases top i with ⟨e, failed⟩ | ⟨s, g, comes⟩
  · rw [failed now] at h
    cases h
    exact absurd done (code_failure e)
  · rw [comes.run_eq now] at h
    rcases emit_cases writes (i.settings s) (g.headed s.shownLicense (.own now)) top with
      ⟨e, new, ran, -⟩ | ⟨new, place, ran, written⟩
    · rw [ran] at h
      cases h
      exact absurd done (code_failure e)
    · rw [ran] at h
      cases h
      exact ⟨s, g, place, comes, rfl, written⟩

end Running

section Home

attribute [local instance] Node.home

/-- A directory of resources beside a file from an earlier run. -/
def siteWithOutput : Node :=
  .directory [("home", .directory
    [("site", .directory [("a.txt", .file ⟨#[]⟩)]), ("out.rs", .file ⟨#[]⟩)])]

end Home

end CommandLine

end TypedDecl
