namespace TypedDecl

inductive Kind
  | registry
  /-- A table with a field per column. -/
  | table (schema : String) (name : String)
  /-- A column that holds values of a type. -/
  | field (valueType : String)
  /-- A directory with a constant per file. -/
  | directory (path : String)
  deriving DecidableEq, Repr

/-- A member; its value is the text of an expression or of a literal. -/
structure Member where
  name : String
  type : String
  value : String
  deriving DecidableEq, Repr

structure Declaration where
  name : String
  kind : Kind
  members : List Member
  deriving DecidableEq, Repr

/-- The member of a table that holds its schema, name and alias. No column may take its name. -/
def handleName : String := "__table"

namespace Kind

def isTable : Kind → Bool
  | table _ _ => true
  | _ => false

end Kind

end TypedDecl
