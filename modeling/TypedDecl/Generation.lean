import TypedDecl.Catalog.Export
import TypedDecl.Files.Write
import TypedDecl.Resource.Listing
import TypedDecl.Resource.Model
import TypedDecl.Settings

namespace TypedDecl

/-- What files are read from and written to. -/
structure Host (m : Type → Type) where
  readText : String → m (Except Files.Fault String)
  /-- The entries of a directory with all that is below. -/
  list : String → m (Except Files.Fault (List (String × Entry)))
  write : String → String → m (Except Files.Fault Unit)

/-- A tree of files as a host that lists directories in some way. -/
def Files.Node.hostVia [Files.Start] (l : Listing) : Host (StateM Files.Node) where
  readText path := return (← get).readText path
  list path := return (← get).listVia l path
  write path text := do
    let (top, result) := (← get).write path text
    set top
    return result

def Files.Node.host [Files.Start] : Host (StateM Files.Node) := hostVia .plain

/-- The text of a file and the number of declarations in it. -/
structure Generated where
  code : String
  count : Nat
  deriving DecidableEq, Repr

namespace Generated

def ofColumns (s : Settings) (p : Provenance) (columns : List Column) : Except Error Generated := do
  let model ← CatalogModel.ofColumns s.sql.catalogOptions columns
  let code ← render s.sql.namespaceText model.declarations (s.renderOptions s.sql.runtime p)
  pure ⟨code, model.declarations.length⟩

def ofDirectory (s : Settings) (p : Provenance) (root : Directory) : Except Error Generated := do
  let declarations ← root.describe
  let code ← render s.staticMap.namespaceText declarations (s.renderOptions s.sql.runtime p)
  pure ⟨code, declarations.length⟩

variable {m : Type → Type} [Monad m]

/-- The declarations of the catalog that the settings name. The catalog is not asked for unless the
settings name one. -/
def sql (s : Settings) (p : Provenance) (connect : Target → m (Except Error (List Column))) :
    m (Except Error Generated) :=
  match Target.ofSettings s.sql.source with
  | .error e => pure (.error e)
  | .ok target => do
    let columns ← connect target
    pure (columns.bind (ofColumns s p))

def scan (host : Host m) (path : String) : m (Except Error Directory) := do
  match ← host.list path with
  | .error fault => pure (.error (.unreadable path fault))
  | .ok entries =>
    pure ((Directory.ofEntries path entries).mapError fun (path, fault) => .unreadable path fault)

def staticMap (host : Host m) (s : Settings) (p : Provenance) (path : String) :
    m (Except Error Generated) := do
  let root ← scan host path
  pure (root.bind (ofDirectory s p))

end Generated

section

variable {m : Type → Type} [Monad m]

def Catalog.load (host : Host m) (path : String) : m (Except Error (List Column)) := do
  match ← host.readText path with
  | .error fault => pure (.error (.unreadable path fault))
  | .ok text => pure ((Catalog.parse text).mapError (.invalidCatalog path))

/-- The columns of a target, from the export of its database in a directory. -/
def Catalog.connect (host : Host m) (directory : String) (target : Target) :
    m (Except Error (List Column)) :=
  match target.exportPath directory with
  | .error e => pure (.error e)
  | .ok path => Catalog.load host path

def Settings.load (host : Host m) (path : String) : m (Except Error Settings) := do
  match ← host.readText path with
  | .error fault => pure (.error (.unreadable path fault))
  | .ok text =>
    match Settings.parse text with
    | some s => pure (.ok s)
    | none => pure (.error (.invalidSettings path))

def writeFile (host : Host m) (path text : String) : m (Except Error Unit) := do
  let result ← host.write path text
  pure (result.mapError (.unwritable path))

end

end TypedDecl
