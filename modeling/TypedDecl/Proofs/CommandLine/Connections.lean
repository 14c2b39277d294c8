import TypedDecl.Proofs.CommandLine.Runs

namespace TypedDecl

open Files (Node)

namespace Settings

/-- The settings with another source of the catalog. -/
def connected (s : Settings) (source : SourceSettings) : Settings :=
  { s with sql := { s.sql with source } }

@[simp] theorem connected_output (s : Settings) (source : SourceSettings) :
    (s.connected source).sql.output = s.sql.output := rfl

@[simp] theorem connected_source (s : Settings) (source : SourceSettings) :
    (s.connected source).sql.source = source := rfl

end Settings

theorem Target.exportPath_congr {t t' : Target} (h : t'.databaseName? = t.databaseName?)
    (directory : String) : t'.exportPath directory = t.exportPath directory := by
  rw [exportPath, exportPath, h]

theorem Catalog.connect_congr {m : Type → Type} [Monad m] (host : Host m) (directory : String)
    {t t' : Target} (h : t'.databaseName? = t.databaseName?) :
    Catalog.connect host directory t' = Catalog.connect host directory t := by
  rw [connect, connect, Target.exportPath_congr h]

namespace Generated

theorem ofColumns_connected (s : Settings) (source : SourceSettings) (p : Provenance)
    (columns : List Column) : ofColumns (s.connected source) p columns = ofColumns s p columns :=
  rfl

/-- What is generated depends on the connection only by what it is answered. -/
theorem sql_connected {m : Type → Type} [Monad m] {s : Settings} {source : SourceSettings}
    {t t' : Target} (ht : Target.ofSettings s.sql.source = .ok t)
    (ht' : Target.ofSettings source = .ok t') (p : Provenance)
    {connect : Target → m (Except Error (List Column))} (same : connect t' = connect t) :
    sql (s.connected source) p connect = sql s p connect := by
  have answers : Generated.ofColumns (s.connected source) p = ofColumns s p :=
    funext (ofColumns_connected s source p)
  rw [sql, sql, ht, Settings.connected_source, ht']
  dsimp only
  rw [same, answers]

end Generated

namespace CommandLine

/-- The options that can tell the connection, on their own or in a file of settings. -/
def connectionOptions : List String :=
  ["config", "db", "connection-string", "server", "user-id", "password"]

/-- A command line for the catalogs of a directory that comes to a target. -/
structure Targets [Files.Start] (top : Node) (words : List String) (directory : String)
    (i : Invocation) (s : Settings) (t : Target) : Prop where
  request : Request.ofWords words = .run i
  command : i.command = .sql directory
  loaded : (i.loadSettings Node.host).run top = (.ok s, top)
  target : Target.ofSettings (i.settings s).sql.source = .ok t

namespace Invocation

variable {i i' : Invocation} {directory : String}

theorem settings_connected (command : i.command = .sql directory)
    (command' : i'.command = .sql directory)
    (options : ∀ k ∉ connectionOptions, i'.given.value? k = i.given.value? k) (s : Settings)
    (source : SourceSettings) :
    i'.settings (s.connected source) =
      (i.settings s).connected (i'.settings (s.connected source)).sql.source := by
  rw [settings, settings, command, command', Settings.connected, Settings.connected]
  simp only [applySql, options "ns" (by decide), options "with-schema" (by decide),
    options "output" (by decide)]

theorem emit_connected [Files.Start] (command : i.command = .sql directory)
    (command' : i'.command = .sql directory) (dry : i'.dryRun = i.dryRun) (s : Settings)
    (source : SourceSettings) (g : Generated) :
    i'.emit Node.host (s.connected source) g = i.emit Node.host s g := by
  have path : i'.output (s.connected source) = i.output s := by
    rw [output, output, command, command']
    exact Settings.connected_output s source
  rw [emit, emit, dry, path]

theorem loadSettings_parsed [Files.Start] {top : Node} {path text : String} {s : Settings}
    (config : i.config = some path) (read : top.readText path = .ok text)
    (parsed : Settings.parse text = some s) :
    (i.loadSettings Node.host).run top = (.ok s, top) := by
  have reads : (Node.host.readText path).run top = (pure (.ok text, top) : Id _) := by
    rw [← read]
    rfl
  rw [loadSettings, config]
  change (Settings.load Node.host path).run top = _
  rw [Settings.load, StateT.run_bind, reads, pure_bind]
  dsimp only
  rw [parsed]
  rfl

theorem run_loaded [Files.Start] {top : Node} {s : Settings}
    (loaded : (i.loadSettings Node.host).run top = (.ok s, top)) (now : Moment) :
    (i.run Node.host now).run top =
      (i.generate Node.host (.own now) (i.settings s) >>= fun
        | .error e => pure (.failure e)
        | .ok g => i.emit Node.host (i.settings s) g).run top := by
  rw [run, StateT.run_bind, loaded]
  rfl

end Invocation

section Same

variable [Files.Start] {top : Node} {words words' : List String} {directory : String}
  {i i' : Invocation} {s : Settings} {source : SourceSettings} {t t' : Target}

/-- Two command lines for catalogs that differ in their connections only, and whose connections name
the same database or both none, read the same export and come to the same: exit code, output,
summary and files. -/
theorem run_of_same_database (h : Targets top words directory i s t)
    (h' : Targets top words' directory i' (s.connected source) t')
    (options : ∀ k ∉ connectionOptions, i'.given.value? k = i.given.value? k)
    (dry : i'.dryRun = i.dryRun) (database : t'.databaseName? = t.databaseName?) (now : Moment) :
    t'.exportPath directory = t.exportPath directory ∧
      (run Node.host now words').run top = (run Node.host now words).run top := by
  refine ⟨Target.exportPath_congr database directory, ?_⟩
  have settings := Invocation.settings_connected h.command h'.command options s source
  have connects := Catalog.connect_congr Node.host directory database
  have generates : i'.generate Node.host (.own now) (i'.settings (s.connected source)) =
      i.generate Node.host (.own now) (i.settings s) := by
    rw [Invocation.generate, Invocation.generate, h.command, h'.command, settings]
    exact Generated.sql_connected h.target h'.target (.own now) connects
  have emits (g : Generated) : i'.emit Node.host (i'.settings (s.connected source)) g =
      i.emit Node.host (i.settings s) g := by
    rw [settings]
    exact Invocation.emit_connected h.command h'.command dry (i.settings s) _ g
  rw [run_ofWords h.request, run_ofWords h'.request, Invocation.run_loaded h.loaded,
    Invocation.run_loaded h'.loaded, generates]
  simp only [emits]

end Same

/-- A file of settings with a connection string, beside an export. -/
def blogWithLogin : Node :=
  .directory
    [("login.toml", .file
        "[sql.source]\nconnection_string = 'Server=.;Initial Catalog=Blog;Pwd=x'\n".toUTF8),
      ("Blog.json", .file "[[\"dbo\", \"Posts\", \"Id\", \"int\"]]".toUTF8)]

/-- A connection string in a file and options with credentials name the same database. -/
theorem run_of_login_and_options :
    let login := ["sql", "--config", "login.toml", "--dry-run"]
    let options := ["sql", "--db", "Blog", "--user-id", "sa", "--password", "y", "--dry-run"]
    (Target.database "(local)" "Blog" (some ⟨"sa", some "y"⟩)).exportPath "." =
        (Target.connection "Server=.;Initial Catalog=Blog;Pwd=x").exportPath "." ∧
      (run Node.host ⟨2024, 1, 2, 3, 4, 5, 0⟩ options).run blogWithLogin =
        (run Node.host ⟨2024, 1, 2, 3, 4, 5, 0⟩ login).run blogWithLogin := by
  let login : Invocation :=
    ⟨.sql ".", some "login.toml", [("config", "login.toml"), ("dry-run", "")], true⟩
  let options : Invocation :=
    ⟨.sql ".", none, [("db", "Blog"), ("user-id", "sa"), ("password", "y"), ("dry-run", "")], true⟩
  let source : SourceSettings :=
    { SourceSettings.standard with connectionString := "Server=.;Initial Catalog=Blog;Pwd=x" }
  have text : blogWithLogin.readText "login.toml" =
      .ok "[sql.source]\nconnection_string = 'Server=.;Initial Catalog=Blog;Pwd=x'\n" := rfl
  have parsed : Settings.parse
      "[sql.source]\nconnection_string = 'Server=.;Initial Catalog=Blog;Pwd=x'\n" =
        some (Settings.standard.connected source) := by
    decide +kernel
  have loaded : (login.loadSettings Node.host).run blogWithLogin =
      (.ok (Settings.standard.connected source), blogWithLogin) :=
    Invocation.loadSettings_parsed rfl text parsed
  have first : Targets blogWithLogin ["sql", "--config", "login.toml", "--dry-run"] "." login
      (Settings.standard.connected source)
      (.connection "Server=.;Initial Catalog=Blog;Pwd=x") :=
    ⟨by decide, rfl, loaded, rfl⟩
  have second : Targets blogWithLogin
      ["sql", "--db", "Blog", "--user-id", "sa", "--password", "y", "--dry-run"] "." options
      ((Settings.standard.connected source).connected .standard)
      (.database "(local)" "Blog" (some ⟨"sa", some "y"⟩)) :=
    ⟨by decide, rfl, rfl, rfl⟩
  have apart : ∀ k ∉ connectionOptions, options.given.value? k = login.given.value? k := by
    intro k other
    simp only [connectionOptions, List.mem_cons, List.not_mem_nil, or_false, not_or] at other
    obtain ⟨config, db, -, -, userId, password⟩ := other
    simp [options, login, Given.value?, List.lookup_cons, beq_false_of_ne config,
      beq_false_of_ne db, beq_false_of_ne userId, beq_false_of_ne password]
  exact run_of_same_database first second apart rfl (by decide) _

end CommandLine

end TypedDecl
