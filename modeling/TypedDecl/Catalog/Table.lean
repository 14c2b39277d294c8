import TypedDecl.Catalog.Column
import TypedDecl.Name

namespace TypedDecl

structure Table where
  schema : String
  name : String
  declared : String
  columns : List Column
  deriving DecidableEq, Repr

namespace Table

def key (t : Table) : TableKey := ⟨t.schema, t.name⟩

/-- The name of a table's declaration, with the schema before it or not. -/
def declaredName (withSchema : Bool) (k : TableKey) : String :=
  Name.sanitize (if withSchema then k.schema ++ "_" ++ k.table else k.table)

def ofColumn (withSchema : Bool) (c : Column) : Table :=
  ⟨c.schema, c.table, declaredName withSchema c.key, [c]⟩

def push (t : Table) (c : Column) : Table := { t with columns := t.columns ++ [c] }

def add (withSchema : Bool) (c : Column) : List Table → List Table
  | [] => [ofColumn withSchema c]
  | t :: ts => if t.key = c.key then t.push c :: ts else t :: add withSchema c ts

def ofColumns (withSchema : Bool) (cs : List Column) : List Table :=
  cs.foldl (fun ts c => add withSchema c ts) []

def find? (k : TableKey) (ts : List Table) : Option Table := ts.find? (·.key = k)

end Table

end TypedDecl
