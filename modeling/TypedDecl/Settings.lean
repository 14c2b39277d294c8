import TypedDecl.Catalog.Model
import TypedDecl.Rendering
import TypedDecl.Source
import TypedDecl.Toml.Parser

namespace TypedDecl

structure SqlSettings where
  namespaceText : String
  withSchema : Bool
  registry : String
  runtime : String
  output : String
  source : SourceSettings
  /-- Entries for the type map, in the order of their keys. -/
  types : List (String × String)
  deriving DecidableEq, Repr

structure StaticMapSettings where
  namespaceText : String
  output : String
  deriving DecidableEq, Repr

structure Settings where
  license : String
  sql : SqlSettings
  staticMap : StaticMapSettings
  deriving DecidableEq, Repr

namespace SqlSettings

def standard : SqlSettings where
  namespaceText := "generated::sql_query"
  withSchema := true
  registry := "SQL"
  runtime := "sql_query_runtime"
  output := "SQLQuery.generated.rs"
  source := .standard
  types := []

/-- What the declarations of a catalog depend on. -/
def catalogOptions (s : SqlSettings) : CatalogOptions :=
  ⟨s.withSchema, s.registry, TypeMap.standard.extend s.types⟩

end SqlSettings

namespace StaticMapSettings

def standard : StaticMapSettings := ⟨"generated::static_map", "StaticMap.generated.rs"⟩

end StaticMapSettings

namespace Settings

open Toml (Value)

def standard : Settings := ⟨Header.standardLicense, .standard, .standard⟩

/-- What the text of a file depends on, besides its declarations. A blank licence is none. -/
def renderOptions (s : Settings) (runtime : String) (p : Provenance) : RenderOptions :=
  ⟨runtime, if Unicode.allBlank s.license then none else some s.license, p⟩

abbrev Section := Nat → String → Option Value

def section? : Value → Option Section
  | .table entries => some fun _ name => entries.lookup name
  | .list items => some fun i _ => items[i]?
  | .date _ => some fun _ _ => none
  | _ => none

/-- A text, if the setting is there. -/
def optional : Option Value → Option (Option String)
  | none => some none
  | some (.text s) => some (some s)
  | some _ => none

def textOr (standard : String) (v : Option Value) : Option String :=
  (optional v).map (·.getD standard)

def boolOr (standard : Bool) : Option Value → Option Bool
  | none => some standard
  | some (.bool b) => some b
  | some _ => none

/-- The key under which a date is the only entry of a map. -/
def dateKey : String := "$__toml_private_datetime"

def textEntry? : String × Value → Option (String × String)
  | (k, .text s) => some (k, s)
  | _ => none

/-- Texts by key, in the order of the keys. -/
def texts : Option Value → Option (List (String × String))
  | none => some []
  | some (.table entries) =>
    (entries.mapM textEntry?).map fun es => es.mergeSort fun a b => decide (a.1 ≤ b.1)
  | some (.date shown) => some [(dateKey, shown)]
  | some _ => none

/-- A section that has other settings in it. -/
def within {α : Type} (standard : α) (read : Section → Option α) : Option Value → Option α
  | none => some standard
  | some v => (section? v).bind read

def readSource (s : Section) : Option SourceSettings := do
  let server ← textOr SourceSettings.defaultServer (s 0 "server")
  let database ← optional (s 1 "database")
  let connectionString ← optional (s 2 "connection_string")
  let userId ← optional (s 3 "user_id")
  let password ← optional (s 4 "password")
  pure ⟨server, database, connectionString, userId, password⟩

def readSql (s : Section) : Option SqlSettings := do
  let std := SqlSettings.standard
  let namespaceText ← textOr std.namespaceText (s 0 "namespace")
  let withSchema ← boolOr std.withSchema (s 1 "include_schema")
  let registry ← textOr std.registry (s 2 "registry")
  let runtime ← textOr std.runtime (s 3 "runtime")
  let output ← textOr std.output (s 4 "output")
  let source ← within SourceSettings.standard readSource (s 5 "source")
  let types ← texts (s 6 "types")
  pure ⟨namespaceText, withSchema, registry, runtime, output, source, types⟩

def readStaticMap (s : Section) : Option StaticMapSettings := do
  let std := StaticMapSettings.standard
  let namespaceText ← textOr std.namespaceText (s 0 "namespace")
  let output ← textOr std.output (s 1 "output")
  pure ⟨namespaceText, output⟩

def read (s : Section) : Option Settings := do
  let license ← textOr standard.license (s 0 "license")
  let sql ← within SqlSettings.standard readSql (s 1 "sql")
  let staticMap ← within StaticMapSettings.standard readStaticMap (s 2 "static_map")
  pure ⟨license, sql, staticMap⟩

def parse (document : String) : Option Settings :=
  (Toml.parse document).bind fun entries => read fun _ name => entries.lookup name

end Settings

end TypedDecl
