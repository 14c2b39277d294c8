import TypedDecl.Code.Expr

namespace TypedDecl.Code

inductive Visibility
  | inherited
  | everywhere
  | within (path : PlainPath)
  deriving DecidableEq, Repr

/-- What a where clause asks for. -/
inductive Condition
  | lifetime (life : Ident) (bounds : List Ident)
  | type (binder : Binder) (ty : Ty) (bounds : List Bound)

structure Generics where
  params : List Generic
  conditions : List Condition

namespace Generics

def empty : Generics := ⟨[], []⟩

end Generics

structure Field where
  attributes : List Attribute
  visibility : Visibility
  /-- The fields of a tuple have no names. -/
  name : Option Ident
  ty : Ty

inductive Fields
  | unit
  | tuple (fields : List Field)
  | named (fields : List Field)

structure Variant where
  attributes : List Attribute
  name : Ident
  fields : Fields
  value : Option Expr

inductive FnParam
  /-- The value that a method is called on; if it is borrowed, the lifetime may be told. -/
  | receiver (attributes : List Attribute) (borrowed : Option (Option Ident)) (writable : Bool)
      (ty : Option Ty)
  | typed (attributes : List Attribute) (pat : Pat) (ty : Ty)

structure Variadic where
  attributes : List Attribute
  pat : Option Pat

structure Signature where
  constant : Bool
  async : Bool
  unchecked : Bool
  abi : Option (Option String)
  name : Ident
  generics : Generics
  params : List FnParam
  variadic : Option Variadic
  output : Option Ty

inductive MemberBody
  | constant (name : Ident) (ty : Ty) (value : Option Expr)
  | function (signature : Signature) (body : Option Block)
  /-- A type by another name; `late` tells whether its conditions stand at the end. -/
  | typeAlias (late : Bool) (name : Ident) (generics : Generics) (bounds : List Bound)
      (ty : Option Ty)
  | foreignType (name : Ident) (generics : Generics)
  | static (writable : Bool) (name : Ident) (ty : Ty) (value : Option Expr)
  | macroCall (call : MacroCall) (name : Option Ident)
  /-- A form that only its tokens tell. -/
  | verbatim (row : List Token)

structure Member where
  attributes : List Attribute
  visibility : Visibility
  isDefault : Bool
  body : MemberBody

inductive UseTree
  | path (name : Ident) (rest : UseTree)
  | name (i : Ident)
  | renamed (name : Ident) (other : Ident)
  | all
  | group (items : List UseTree)

namespace UseTree

def endsInGroup : UseTree → Bool
  | path _ rest => rest.endsInGroup
  | group _ => true
  | _ => false

end UseTree

structure Members where
  inner : List Attribute
  list : List Member

inductive Item
  | member (member : Member)
  | data (attributes : List Attribute) (visibility : Visibility) (overlapping : Bool)
      (name : Ident) (generics : Generics) (fields : Fields)
  | enumeration (attributes : List Attribute) (visibility : Visibility) (name : Ident)
      (generics : Generics) (variants : List Variant)
  | externCrate (attributes : List Attribute) (visibility : Visibility) (name : Ident)
      (other : Option Ident)
  | use (attributes : List Attribute) (visibility : Visibility) (global : Bool) (tree : UseTree)
  | foreign (attributes : List Attribute) (unchecked : Bool) (abi : Option String)
      (members : Members)
  /-- Members of a type, by way of a trait, of its opposite, or on their own. -/
  | impl (attributes : List Attribute) (isDefault : Bool) (unchecked : Bool) (generics : Generics)
      (via : Option (Bool × Path)) (self : Ty) (members : Members)
  | trait (attributes : List Attribute) (visibility : Visibility) (unchecked : Bool)
      (automatic : Bool) (name : Ident) (generics : Generics) (bounds : List Bound)
      (members : Members)
  | traitAlias (attributes : List Attribute) (visibility : Visibility) (name : Ident)
      (generics : Generics) (bounds : List Bound)
  | module (attributes : List Attribute) (visibility : Visibility) (unchecked : Bool)
      (name : Ident) (inner : List Attribute) (items : List Item)
  /-- A module in a file of its own. -/
  | outlined (attributes : List Attribute) (visibility : Visibility) (unchecked : Bool)
      (name : Ident)
  /-- A form that only its tokens tell. -/
  | verbatim (row : List Token)

end TypedDecl.Code
