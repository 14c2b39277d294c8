namespace TypedDecl

structure Column where
  schema : String
  table : String
  name : String
  native : String
  deriving DecidableEq, Repr

structure TableKey where
  schema : String
  table : String
  deriving DecidableEq, Repr

namespace Column

def key (c : Column) : TableKey := ⟨c.schema, c.table⟩

end Column

end TypedDecl
