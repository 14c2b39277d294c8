import TypedDecl.Catalog.Table
import TypedDecl.Catalog.TypeMap
import TypedDecl.Declaration.Distinct
import TypedDecl.Text.Quoted

namespace TypedDecl

structure CatalogOptions where
  withSchema : Bool
  registry : String
  types : TypeMap

namespace Table

def fieldName (t : Table) (c : Column) : String := t.declared ++ "_" ++ Name.sanitize c.name

/-- What the registry says of a table: how to make one. -/
def entry (t : Table) : Member :=
  ⟨t.declared, t.declared, Name.pathSegment t.declared ++ "::new()"⟩

def member (t : Table) (c : Column) : Member :=
  ⟨Name.sanitize c.name, t.fieldName c, Text.Quoted.quote c.name⟩

def declaration (t : Table) : Declaration :=
  ⟨t.declared, .table t.schema t.name, t.columns.map t.member⟩

def field (types : TypeMap) (t : Table) (c : Column) : Except Error Declaration :=
  (types.resolve c).map fun type => ⟨t.fieldName c, .field type, []⟩

/-- A table's own declaration and then those of its columns. -/
def declarations (types : TypeMap) (t : Table) : Except Error (List Declaration) :=
  (t.columns.mapM (t.field types)).map (t.declaration :: ·)

def registry (name : String) (ts : List Table) : Declaration :=
  ⟨name, .registry, ts.map entry⟩

def describe (options : CatalogOptions) (ts : List Table) : Except Error (List Declaration) :=
  (ts.mapM (declarations options.types)).map fun rows =>
    registry options.registry ts :: rows.flatten

end Table

structure CatalogModel where
  tables : List Table
  declarations : List Declaration
  deriving DecidableEq, Repr

namespace CatalogModel

/-- Groups the columns, describes the tables and compares the names. -/
def ofColumns (options : CatalogOptions) (cs : List Column) : Except Error CatalogModel := do
  let tables := Table.ofColumns options.withSchema cs
  let declarations ← Table.describe options tables
  Declaration.checkDistinct declarations
  pure ⟨tables, declarations⟩

end CatalogModel

end TypedDecl
