import TypedDecl.Proofs.CommandLine.Reruns
import TypedDecl.Proofs.DirectoryNaming

namespace TypedDecl

open Files (Node)

namespace Declaration

open Code (Path)

/-- There is a path of the runtime in the text. -/
def NamesRuntime (text : String) : Prop := ∃ path, runtimePath text = .ok path

variable {α β : Type} {r : Except Error α}

/-- Whatever the computation fails at, it is not the path of the runtime. -/
def SparesRuntime (r : Except Error α) : Prop := ∀ text, r ≠ .error (.invalidRuntime text)

namespace SparesRuntime

theorem ok (a : α) : SparesRuntime (.ok a) := by
  intro text h
  cases h

theorem error {e : Error} (h : ∀ text, e ≠ .invalidRuntime text) :
    SparesRuntime (.error e : Except Error α) := by
  intro text same
  exact h text (Except.error.inj same)

theorem bind {f : α → Except Error β} (h : SparesRuntime r)
    (next : ∀ a, r = .ok a → SparesRuntime (f a)) : SparesRuntime (r >>= f) := by
  cases r with
  | error e =>
    apply SparesRuntime.error
    intro text same
    exact h text (congrArg Except.error same)
  | ok a => exact next a rfl

theorem map (h : SparesRuntime r) (f : α → β) : SparesRuntime (f <$> r) := by
  rw [map_eq_pure_bind]
  apply h.bind
  intro a _
  exact .ok (f a)

theorem mapM {f : α → Except Error β} {xs : List α} (h : ∀ x ∈ xs, SparesRuntime (f x)) :
    SparesRuntime (xs.mapM f) := by
  induction xs with
  | nil => exact .ok []
  | cons x xs ih =>
    obtain ⟨first, others⟩ := List.forall_mem_cons.mp h
    rw [List.mapM_cons]
    apply first.bind
    intro y _
    apply (ih others).bind
    intro ys _
    exact .ok (y :: ys)

theorem ident (name : String) : SparesRuntime (ident name) := by
  unfold Declaration.ident
  split
  · exact .ok _
  · exact .error nofun

theorem typeTokens (type : String) : SparesRuntime (typeTokens type) := by
  unfold Declaration.typeTokens
  split
  · exact .ok _
  · split
    · exact .ok _
    · exact .error nofun

theorem valueTokens (value : String) : SparesRuntime (valueTokens value) := by
  unfold Declaration.valueTokens
  split
  · exact .ok _
  · exact .error nofun

theorem spell (m : Member) : SparesRuntime (spell m) := by
  apply (ident m.name).bind
  intro i _
  apply (typeTokens m.type).bind
  intro type _
  apply (valueTokens m.value).bind
  intro value _
  exact .ok _

theorem tokens (runtime : Path) (d : Declaration) : SparesRuntime (tokens runtime d) := by
  have members : SparesRuntime (d.members.mapM Declaration.spell) := .mapM fun m _ => spell m
  apply (ident d.name).bind
  intro i _
  cases d.kind with
  | registry => exact members.bind fun ms _ => .ok _
  | table schema table => exact members.bind fun ms _ => .ok _
  | field valueType => exact (typeTokens valueType).bind fun ts _ => .ok _
  | directory path => exact members.bind fun ms _ => .ok _

end SparesRuntime

end Declaration

open Declaration (NamesRuntime SparesRuntime)

theorem Namespace.spares_nest (names : List String) (items : List Code.Token) :
    SparesRuntime (Namespace.nest names items) := by
  induction names with
  | nil => exact .ok items
  | cons n names ih =>
    rw [Namespace.nest, List.foldrM_cons]
    apply ih.bind
    intro inner _
    exact (SparesRuntime.ident n).map _

theorem Namespace.spares_tokens (ns : String) (items : List Code.Token) :
    SparesRuntime (Namespace.tokens ns items) := by
  rw [Namespace.tokens]
  split
  · apply SparesRuntime.error
    intro text same
    cases same
  · exact (Namespace.spares_nest _ items).map _

theorem spares_formatTokens (ts : List Code.Token) : SparesRuntime (formatTokens ts) := by
  unfold formatTokens
  split
  · split
    · exact .ok _
    · exact .error nofun
  · exact .error nofun

/-- The path of the runtime is read before anything else, and is an error only where it is none. -/
theorem render_eq_invalidRuntime_iff {ns : String} {ds : List Declaration}
    {options : RenderOptions} {text : String} :
    render ns ds options = .error (.invalidRuntime text) ↔
      ¬NamesRuntime options.runtime ∧ text = options.runtime := by
  cases reads : Declaration.runtimePath options.runtime with
  | error e =>
    have unread : e = .invalidRuntime options.runtime := by
      unfold Declaration.runtimePath at reads
      split at reads
      · cases reads
      · cases reads
        rfl
    have failed : render ns ds options = .error e := by
      rw [render, renderCode, Declaration.listTokens, reads]
      rfl
    have none : ¬NamesRuntime options.runtime := by
      rintro ⟨path, read⟩
      rw [reads] at read
      cases read
    rw [failed, unread]
    simp [none, eq_comm]
  | ok path =>
    have rows : SparesRuntime (Declaration.listTokens options.runtime ds) := by
      rw [Declaration.listTokens, reads]
      exact (SparesRuntime.mapM fun d _ => SparesRuntime.tokens path d).map List.flatten
    have code : SparesRuntime (renderCode ns ds options.runtime) := by
      apply rows.bind
      intro items _
      apply (Namespace.spares_tokens ns items).bind
      intro ts _
      exact spares_formatTokens ts
    have spares : SparesRuntime (render ns ds options) := code.map _
    exact ⟨fun failed => absurd failed (spares text), fun none => absurd ⟨path, reads⟩ none.1⟩

namespace Directory

variable {root : Directory} {ds : List Declaration}

/-- No code of a directory is built on the runtime. -/
theorem listTokens_runtime (hd : root.describe = .ok ds) {runtime runtime' : String}
    (named : NamesRuntime runtime) (named' : NamesRuntime runtime') :
    Declaration.listTokens runtime' ds = Declaration.listTokens runtime ds := by
  obtain ⟨path, reads⟩ := named
  obtain ⟨path', reads'⟩ := named'
  obtain ⟨rfl, -⟩ := describe_ok hd
  have each : (root.visits.map Visit.declaration).mapM (Declaration.tokens path') =
      (root.visits.map Visit.declaration).mapM (Declaration.tokens path) := by
    rw [List.mapM_map, List.mapM_map]
    rfl
  rw [Declaration.listTokens, Declaration.listTokens, reads, reads']
  exact congrArg (Functor.map List.flatten) each

end Directory

namespace Generated

variable {s s' : Settings} {p : Provenance} {root : Directory}

theorem ofDirectory_eq_invalidRuntime (h : ¬NamesRuntime s.sql.runtime) {ds : List Declaration}
    (hd : root.describe = .ok ds) :
    ofDirectory s p root = .error (.invalidRuntime s.sql.runtime) := by
  have fails : render s.staticMap.namespaceText ds (s.renderOptions s.sql.runtime p) =
      .error (.invalidRuntime s.sql.runtime) := render_eq_invalidRuntime_iff.mpr ⟨h, rfl⟩
  rw [ofDirectory, hd]
  change (render _ _ _ >>= _) = _
  rw [fails]
  rfl

theorem ofDirectory_ne_invalidRuntime (h : NamesRuntime s.sql.runtime) {ds : List Declaration}
    (hd : root.describe = .ok ds) : SparesRuntime (ofDirectory s p root) := by
  rw [ofDirectory, hd]
  have renders : SparesRuntime
      (render s.staticMap.namespaceText ds (s.renderOptions s.sql.runtime p)) := by
    intro text fails
    exact (render_eq_invalidRuntime_iff.mp fails).1 h
  apply renders.bind
  intro code _
  exact .ok _

/-- The code of a directory is the same whatever path the runtime has. -/
theorem ofDirectory_runtime (license : s'.license = s.license)
    (same : s'.staticMap = s.staticMap) (named : NamesRuntime s.sql.runtime)
    (named' : NamesRuntime s'.sql.runtime) : ofDirectory s' p root = ofDirectory s p root := by
  cases hd : root.describe with
  | error e =>
    rw [ofDirectory, ofDirectory, hd]
    rfl
  | ok ds =>
    have rows := Directory.listTokens_runtime hd named named'
    have text : render s'.staticMap.namespaceText ds (s'.renderOptions s'.sql.runtime p) =
        render s.staticMap.namespaceText ds (s.renderOptions s.sql.runtime p) := by
      rw [render, render, renderCode, renderCode, Settings.renderOptions, Settings.renderOptions,
        license, same]
      dsimp only
      rw [rows]
    rw [ofDirectory, ofDirectory, hd]
    change (render _ _ _ >>= _) = (render _ _ _ >>= _)
    rw [text]

/-- A directory that is described comes to the same with two paths of the runtime exactly if they
are one text or both of them can be read. -/
theorem ofDirectory_eq_iff (license : s'.license = s.license) (same : s'.staticMap = s.staticMap)
    {ds : List Declaration} (hd : root.describe = .ok ds) :
    ofDirectory s' p root = ofDirectory s p root ↔
      s'.sql.runtime = s.sql.runtime ∨ NamesRuntime s.sql.runtime ∧ NamesRuntime s'.sql.runtime := by
  by_cases named : NamesRuntime s.sql.runtime <;> by_cases named' : NamesRuntime s'.sql.runtime
  · simp [named, named', ofDirectory_runtime license same named named']
  · have fails := ofDirectory_eq_invalidRuntime (p := p) named' hd
    have spares := ofDirectory_ne_invalidRuntime (p := p) named hd
    have apart : s'.sql.runtime ≠ s.sql.runtime := fun texts => named' (texts ▸ named)
    simp only [named, named', apart, and_false, or_false, iff_false, fails]
    exact fun equal => spares _ equal.symm
  · have fails := ofDirectory_eq_invalidRuntime (p := p) named hd
    have spares := ofDirectory_ne_invalidRuntime (p := p) named' hd
    have apart : s'.sql.runtime ≠ s.sql.runtime := fun texts => named (texts ▸ named')
    simp only [named, named', apart, false_and, or_false, iff_false, fails]
    exact spares _
  · have fails := ofDirectory_eq_invalidRuntime (p := p) named hd
    have fails' := ofDirectory_eq_invalidRuntime (p := p) named' hd
    simp [named, fails, fails']

/-- Settings that agree on the licence and on directories come to the same for the resources at a
path, code or error, exactly if their runtimes are one text or both of them can be read, or if it
does not come to the code: nothing else that is set for catalogs matters. -/
theorem staticMap_eq_iff [Files.Start] (license : s'.license = s.license)
    (same : s'.staticMap = s.staticMap) (p : Provenance) (path : String) (top : Node) :
    (staticMap Node.host s' p path).run top = (staticMap Node.host s p path).run top ↔
      ∀ root ds, ((scan Node.host path).run top).1 = .ok root → root.describe = .ok ds →
        s'.sql.runtime = s.sql.runtime ∨
          NamesRuntime s.sql.runtime ∧ NamesRuntime s'.sql.runtime := by
  rw [CommandLine.run_staticMap_eq, CommandLine.run_staticMap_eq, Prod.mk.injEq, and_iff_left rfl]
  cases ((scan Node.host path).run top).1 with
  | error e => simp [Except.bind]
  | ok root =>
    change ofDirectory s' p root = ofDirectory s p root ↔ _
    cases hd : root.describe with
    | error e =>
      have fails (s : Settings) : ofDirectory s p root = .error e := by
        rw [ofDirectory, hd]
        rfl
      rw [fails, fails]
      refine iff_of_true rfl ?_
      rintro _ ds ⟨⟩ described
      rw [hd] at described
      cases described
    | ok ds =>
      rw [ofDirectory_eq_iff license same hd]
      exact ⟨fun runtimes _ _ _ _ => runtimes, fun runtimes => runtimes root ds rfl hd⟩

section Home

attribute [local instance] Node.home

/-- A path of the runtime that cannot be read is an error for resources that do without it. -/
theorem staticMap_of_unread_runtime :
    let unread := { Settings.standard with
      sql := { SqlSettings.standard with runtime := "not a path" } }
    let p := Provenance.own ⟨2024, 1, 2, 3, 4, 5, 0⟩
    unread.license = Settings.standard.license ∧ unread.staticMap = Settings.standard.staticMap ∧
      ((staticMap Node.host unread p "site").run CommandLine.siteWithOutput).1 =
        .error (.invalidRuntime "not a path") ∧
      ∃ g, ((staticMap Node.host .standard p "site").run CommandLine.siteWithOutput).1 = .ok g := by
  intro unread p
  have renders : ((staticMap Node.host .standard p "site").run
      CommandLine.siteWithOutput).1.toBool = true := by
    decide +kernel
  have described : (((scan Node.host "site").run CommandLine.siteWithOutput).1 >>=
      Directory.describe).toBool = true := by
    decide +kernel
  have none : (Declaration.runtimePath "not a path").toBool = false := by decide +kernel
  obtain ⟨ds, described⟩ := Declaration.exists_ok described
  obtain ⟨root, found, hd⟩ := Declaration.bind_ok described
  have unnamed : ¬NamesRuntime unread.sql.runtime := by
    rintro ⟨path, reads⟩
    rw [show unread.sql.runtime = "not a path" from rfl] at reads
    rw [reads] at none
    cases none
  have fails := ofDirectory_eq_invalidRuntime (p := p) unnamed hd
  refine ⟨rfl, rfl, ?_, Declaration.exists_ok renders⟩
  rw [CommandLine.run_staticMap_eq, found]
  exact fails

/-- With paths that can be read, nothing that is set for catalogs changes the resources. -/
theorem staticMap_of_read_runtime :
    let other := { Settings.standard with
      sql := ⟨"x::y", false, "Other", "::crates::query", "other.rs", .standard, [("int", "u8")]⟩ }
    let p := Provenance.own ⟨2024, 1, 2, 3, 4, 5, 0⟩
    (staticMap Node.host other p "site").run CommandLine.siteWithOutput =
      (staticMap Node.host .standard p "site").run CommandLine.siteWithOutput := by
  intro other p
  have reads : (Declaration.runtimePath "sql_query_runtime").toBool = true := by decide +kernel
  have reads' : (Declaration.runtimePath "::crates::query").toBool = true := by decide +kernel
  have license : other.license = Settings.standard.license := rfl
  have same : other.staticMap = Settings.standard.staticMap := rfl
  refine (staticMap_eq_iff license same p "site" CommandLine.siteWithOutput).mpr fun _ _ _ _ => ?_
  exact .inr ⟨Declaration.exists_ok reads, Declaration.exists_ok reads'⟩

end Home

end Generated

end TypedDecl
