import TypedDecl.Declaration
import TypedDecl.Error

namespace TypedDecl

namespace Declaration

/-- The first name among the members that is taken, going through them in order. -/
def takenMember? (reserved : List String) : List Member → List String → Option String
  | [], _ => none
  | m :: ms, seen =>
    if reserved.contains m.name || seen.contains m.name then some m.name
    else takenMember? reserved ms (m.name :: seen)

def reserved (d : Declaration) : List String :=
  if d.kind.isTable then [handleName] else []

def checkMembers (d : Declaration) : Except Error Unit :=
  match takenMember? d.reserved d.members [] with
  | some name => .error (.collision name (.declaration d.name))
  | none => .ok ()

/-- Goes through the declarations, given the names of those before. -/
def checkFrom : List Declaration → List String → Except Error Unit
  | [], _ => .ok ()
  | d :: ds, seen =>
    if seen.contains d.name then .error (.collision d.name .wholeSet)
    else
      match d.checkMembers with
      | .error e => .error e
      | .ok () => checkFrom ds (d.name :: seen)

/-- No two declarations, and no two members of one, have the same name. -/
def checkDistinct (ds : List Declaration) : Except Error Unit := checkFrom ds []

end Declaration

end TypedDecl
