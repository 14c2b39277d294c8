import TypedDecl.Code.Reading
import TypedDecl.Error

namespace TypedDecl.Declaration

open Code (Ident Token Ty Path)

def ident (name : String) : Except Error Ident :=
  match Ident.ofName? name with
  | some i => .ok i
  | none => .error (.invalidName name)

/-- The tokens of a type. A keyword that is no type names a declaration and becomes raw. -/
def typeTokens (type : String) : Except Error (List Token) :=
  match Ty.parse? type with
  | some ty => .ok ty.tokens
  | none =>
    match Ident.ofName? type with
    | some i => .ok [.ident i]
    | none => .error (.invalidType type)

def valueTokens (value : String) : Except Error (List Token) :=
  match Token.read? value with
  | some ts => .ok ts
  | none => .error (.invalidValue value)

def runtimePath (path : String) : Except Error Path :=
  match Path.parse? path with
  | some p => .ok p
  | none => .error (.invalidRuntime path)

end TypedDecl.Declaration
