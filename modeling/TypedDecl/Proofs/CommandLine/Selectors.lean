import TypedDecl.Proofs.CommandLine.Connections

namespace TypedDecl

open Files (Node)

/-- A setting counts unless it is blank. -/
def Settings.shownConnection? (s : Settings) : Option String :=
  s.sql.source.connectionString.filter (!Unicode.allBlank ·)

theorem Settings.shownConnection?_eq_none {s : Settings} :
    s.shownConnection? = none ↔
      ∀ text ∈ s.sql.source.connectionString, Unicode.allBlank text = true := by
  simp [shownConnection?, Option.filter_eq_none_iff]

namespace Generated

/-- The catalog of this target is asked for, and of no other: whatever connects is handed it. -/
def Connects (s : Settings) (t : Target) : Prop :=
  ∀ {m : Type → Type} [Monad m] (p : Provenance)
    (connect : Target → m (Except Error (List Column))),
    sql s p connect = do
      let columns ← connect t
      pure (columns.bind (ofColumns s p))

theorem connects_iff {s : Settings} {t : Target} :
    Connects s t ↔ Target.ofSettings s.sql.source = .ok t := by
  constructor
  · intro connects
    -- A connection that breaks off with its target tells what it was handed.
    have handed : sql s (.own ⟨2024, 1, 2, 3, 4, 5, 0⟩) (m := Except Target) Except.error =
        .error t := connects _ _
    cases chosen : Target.ofSettings s.sql.source with
    | error e =>
      rw [sql, chosen] at handed
      cases handed
    | ok u =>
      rw [sql, chosen] at handed
      cases handed
      rfl
  · intro chosen m _ p connect
    rw [sql, chosen]

end Generated

open Generated (Connects)

namespace CommandLine.Invocation

/-- The options name a database, and have no connection string. -/
structure SelectsDatabase (i : Invocation) (name : String) : Prop where
  command : ∃ directory, i.command = .sql directory
  db : i.given.value? "db" = some name
  some_name : Unicode.allBlank name = false
  no_connection : i.given.value? "connection-string" = none

/-- The login of the options, or else of the settings. -/
def login (i : Invocation) (s : Settings) : Option Credentials :=
  (i.given.value? "user-id" <|> s.sql.source.userId).map
    (⟨·, i.given.value? "password" <|> s.sql.source.password⟩)

variable {i : Invocation} {name : String} {s : Settings}

/-- What is asked for when the options name a database. -/
def selected (i : Invocation) (name : String) (s : Settings) : Target :=
  match s.shownConnection? with
  | some text => .connection text
  | none => .database ((i.given.value? "server").getD s.sql.source.server) name (i.login s)

theorem SelectsDatabase.ofSettings (h : SelectsDatabase i name) (s : Settings) :
    Target.ofSettings (i.settings s).sql.source = .ok (i.selected name s) := by
  obtain ⟨directory, command⟩ := h.command
  have named : (some name).filter (!Unicode.allBlank ·) = some name := by
    simp [h.some_name]
  have source : (i.settings s).sql.source =
      ⟨(i.given.value? "server").getD s.sql.source.server, some name,
        s.sql.source.connectionString, i.given.value? "user-id" <|> s.sql.source.userId,
        i.given.value? "password" <|> s.sql.source.password⟩ := by
    rw [settings, command]
    simp only [applySql, h.db, h.no_connection]
    rfl
  have shown : s.sql.source.connectionString.filter (!Unicode.allBlank ·) =
      s.shownConnection? := rfl
  rw [source, Target.ofSettings, named, selected]
  dsimp only
  rw [shown]
  cases s.shownConnection? <;> rfl

/-- The database that is named on the command line is asked for unless the settings have a
connection string that is not blank; then that is asked for. -/
theorem SelectsDatabase.connects (h : SelectsDatabase i name) (s : Settings) :
    ∃ t, (∀ u, Connects (i.settings s) u ↔ u = t) ∧
      (((∃ server login, t = .database server name login) ∧ t.databaseName? = some name) ↔
        ∀ text ∈ s.sql.source.connectionString, Unicode.allBlank text = true) ∧
      ∀ text ∈ s.sql.source.connectionString, Unicode.allBlank text = false →
        t = .connection text := by
  refine ⟨i.selected name s, ?_, ?_, ?_⟩
  · intro u
    rw [Generated.connects_iff, h.ofSettings s, Except.ok.injEq]
    exact eq_comm
  · rw [← Settings.shownConnection?_eq_none, selected]
    cases shown : s.shownConnection? with
    | none => exact ⟨fun _ => rfl, fun _ => ⟨⟨_, _, rfl⟩, rfl⟩⟩
    | some text =>
      constructor
      · rintro ⟨⟨server, login, same⟩, -⟩
        cases same
      · intro none_shown
        cases none_shown
  · intro text configured ink
    have shown : s.shownConnection? = some text := by
      rw [Settings.shownConnection?, Option.mem_def.mp configured]
      simp [ink]
    rw [selected, shown]

/-- A file that names one database, and one that has a connection string for it. -/
def shopFiles : Node :=
  .directory
    [("name.toml", .file "[sql.source]\ndatabase = 'Shop'\n".toUTF8),
      ("login.toml", .file "[sql.source]\nconnection_string = 'Server=.;Database=Shop'\n".toUTF8)]

/-- Over the name of another database, the option holds. -/
theorem connects_over_name :
    let i : Invocation := ⟨.sql ".", some "name.toml",
      [("config", "name.toml"), ("db", "Blog"), ("dry-run", "")], true⟩
    let s : Settings :=
      Settings.standard.connected { SourceSettings.standard with database := some "Shop" }
    Request.ofWords ["sql", "--config", "name.toml", "--db", "Blog", "--dry-run"] = .run i ∧
      (i.loadSettings Node.host).run shopFiles = (.ok s, shopFiles) ∧
      i.SelectsDatabase "Blog" ∧
      (∃ server login, Connects (i.settings s) (.database server "Blog" login)) := by
  intro i s
  have selects : i.SelectsDatabase "Blog" := ⟨⟨".", rfl⟩, rfl, by decide, rfl⟩
  have text : shopFiles.readText "name.toml" = .ok "[sql.source]\ndatabase = 'Shop'\n" := rfl
  have parsed : Settings.parse "[sql.source]\ndatabase = 'Shop'\n" = some s := by
    decide +kernel
  have loaded : (i.loadSettings Node.host).run shopFiles = (.ok s, shopFiles) :=
    loadSettings_parsed rfl text parsed
  obtain ⟨t, connects, named, -⟩ := selects.connects s
  obtain ⟨⟨server, login, rfl⟩, -⟩ := named.mpr nofun
  exact ⟨by decide, loaded, selects, server, login, (connects _).mpr rfl⟩

/-- Over a connection string, the option does not: the string's database is asked for. -/
theorem connects_over_connection :
    let i : Invocation := ⟨.sql ".", some "login.toml",
      [("config", "login.toml"), ("db", "Blog"), ("dry-run", "")], true⟩
    let s : Settings := Settings.standard.connected
      { SourceSettings.standard with connectionString := some "Server=.;Database=Shop" }
    Request.ofWords ["sql", "--config", "login.toml", "--db", "Blog", "--dry-run"] = .run i ∧
      (i.loadSettings Node.host).run shopFiles = (.ok s, shopFiles) ∧
      i.SelectsDatabase "Blog" ∧
      Connects (i.settings s) (.connection "Server=.;Database=Shop") ∧
      (Target.connection "Server=.;Database=Shop").databaseName? = some "Shop" ∧
      ∀ server login, ¬ Connects (i.settings s) (.database server "Blog" login) := by
  intro i s
  have text : shopFiles.readText "login.toml" =
      .ok "[sql.source]\nconnection_string = 'Server=.;Database=Shop'\n" := rfl
  have parsed : Settings.parse
      "[sql.source]\nconnection_string = 'Server=.;Database=Shop'\n" = some s := by
    decide +kernel
  have loaded : (i.loadSettings Node.host).run shopFiles = (.ok s, shopFiles) :=
    loadSettings_parsed rfl text parsed
  have chosen : Target.ofSettings (i.settings s).sql.source =
      .ok (.connection "Server=.;Database=Shop") := by
    decide
  refine ⟨by decide, loaded, ⟨⟨".", rfl⟩, rfl, by decide, rfl⟩,
    Generated.connects_iff.mpr chosen, by decide, ?_⟩
  intro server login asked
  have other := Generated.connects_iff.mp asked
  rw [chosen] at other
  cases other

end CommandLine.Invocation

end TypedDecl
