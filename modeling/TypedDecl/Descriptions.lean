import TypedDecl.Dictionary

namespace TypedDecl

inductive LookupError
  | notFound (text : String)
  deriving DecidableEq, Repr

/-- The two directions of the look-up. Values have names, which describe those that have no
description. -/
structure Descriptions (α : Type) [DecidableEq α] where
  texts : Dictionary α String
  values : Dictionary String α

namespace Descriptions

variable {α : Type} [DecidableEq α]

def empty : Descriptions α := ⟨.empty, .empty⟩

def insert (d : Descriptions α) (value : α) (text : String) : Descriptions α :=
  ⟨d.texts.insert value text, d.values.insert text value⟩

/-- Registers values in order, each by its description or else by its name. -/
def ofEntries (name : α → String) (entries : List (α × Option String)) : Descriptions α :=
  entries.foldl (fun d e => d.insert e.1 (e.2.getD (name e.1))) empty

def describe (name : α → String) (d : Descriptions α) (value : α) : String :=
  (d.texts.get? value).getD (name value)

def find? (d : Descriptions α) (text : String) : Option α := d.values.get? text

def parse (d : Descriptions α) (text : String) : Except LookupError α :=
  match d.find? text with
  | some value => .ok value
  | none => .error (.notFound text)

def size (d : Descriptions α) : Nat := d.texts.size

def isEmpty (d : Descriptions α) : Bool := d.texts.isEmpty

def notFound (text : String) : String := "No value is described as '" ++ text ++ "'"

end Descriptions

namespace LookupError

def message : LookupError → String
  | notFound text => Descriptions.notFound text

end LookupError

end TypedDecl
