import TypedDecl.Code.Type

namespace TypedDecl.Code

inductive FieldName
  | name (i : Ident)
  | index (n : Nat)
  deriving DecidableEq, Repr

namespace FieldName

def text : FieldName → String
  | name i => i.text
  | index n => toString n

def token : FieldName → Token
  | name i => .ident i
  | index n => .literal (toString n)

end FieldName

/-- A single value, which may be the end of a range. -/
inductive PatEnd
  | literal (negative : Bool) (text : String)
  | path (path : QualPath)
  /-- A constant block, with its word and braces. -/
  | block (row : List Token)

mutual

inductive Pat
  | wild
  | rest
  | name (borrowed writable : Bool) (name : Ident) (sub : Option Pat)
  | value (value : PatEnd)
  | range (first : Option PatEnd) (closed : Bool) (last : Option PatEnd)
  /-- Any of the cases; `lead` tells whether a bar stands before the first. -/
  | cases (lead : Bool) (cases : List Pat)
  | paren (inner : Pat)
  | tuple (items : List Pat) (trailing : Bool)
  | applied (path : QualPath) (items : List Pat) (trailing : Bool)
  /-- A structure; `rest` holds what is said about the dots that stand for all other fields. -/
  | record (path : QualPath) (fields : List FieldPat) (trailing : Bool)
      (rest : Option (List Attribute))
  | slice (items : List Pat) (trailing : Bool)
  | reference (writable : Bool) (target : Pat)
  | macroCall (call : MacroCall)
  /-- A form that only its tokens tell. -/
  | verbatim (row : List Token)

/-- A field; one without a member is a name that stands for the field of that name. -/
inductive FieldPat
  | mk (attributes : List Attribute) (member : Option FieldName) (pat : Pat)

end

namespace Pat

/-- A range that has no first or no last value. -/
def isOpenRange : Pat → Bool
  | range first _ last => first.isNone || last.isNone
  | _ => false

def isRest : Pat → Bool
  | rest => true
  | _ => false

/-- A literal or the pattern that takes everything. -/
def isSimple : Pat → Bool
  | wild => true
  | value (.literal ..) => true
  | _ => false

end Pat

end TypedDecl.Code
