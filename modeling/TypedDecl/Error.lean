import TypedDecl.Catalog.Column
import TypedDecl.Files.Fault
import TypedDecl.Json.Failure

namespace TypedDecl

/-- Where two declarations meet under one name. -/
inductive Scope
  | wholeSet
  | declaration (name : String)
  deriving DecidableEq, Repr

namespace Scope

def message : Scope → String
  | wholeSet => "the generated set"
  | declaration name => "class '" ++ name ++ "'"

end Scope

inductive Error
  | noSource
  | noDatabaseNamed
  | emptyNamespace
  | invalidRuntime (path : String)
  /-- A source of columns that answers with words of its own. -/
  | noConnection (text : String)
  | unsupportedType (column : Column)
  | collision (name : String) (scope : Scope)
  | invalidName (name : String)
  | invalidType (type : String)
  | invalidValue (value : String)
  /-- The pieces are in order and what they make up is not. -/
  | invalidCode
  /-- What is read as code is not all laid out: some of its forms are not provided for. The program
  breaks off. -/
  | noLayout
  | unreadable (path : String) (fault : Files.Fault)
  | unwritable (path : String) (fault : Files.Fault)
  | invalidCatalog (path : String) (failure : Json.Failure)
  | invalidSettings (path : String)
  deriving DecidableEq, Repr

namespace Error

def codePrefix : String := "Code generation failed: "

def message : Error → String
  | noSource =>
    "You must provide either a database (--db) or a connection string (--connection-string)"
  | noDatabaseNamed =>
    "The connection string does not name a database (Database= or Initial Catalog=)"
  | emptyNamespace => "The namespace must not be empty"
  | invalidRuntime path => "Invalid runtime path '" ++ path ++ "'"
  | noConnection text => text
  | unsupportedType c =>
    "Unsupported native type '" ++ c.native ++ "' for column '" ++ c.schema ++ "." ++ c.table ++
      "." ++ c.name ++ "': add it to the type map"
  | collision name scope =>
    "Naming collision: '" ++ name ++ "' is declared more than once in " ++ scope.message
  | invalidName name => "'" ++ name ++ "' cannot be used as an identifier"
  | invalidType type => codePrefix ++ "'" ++ type ++ "' is not a valid type"
  | invalidValue value =>
    codePrefix ++ "Invalid member value " ++ value ++ ": cannot parse string into token stream"
  | invalidCode => codePrefix ++ "Generated code is invalid"
  | noLayout => "not implemented"
  | unreadable path fault => "Failed to read '" ++ path ++ "': " ++ fault.message
  | unwritable path fault => "Failed to write output file '" ++ path ++ "': " ++ fault.message
  | invalidCatalog path failure =>
    "Invalid catalog export '" ++ path ++ "': " ++ failure.message
  | invalidSettings path => "Invalid configuration file '" ++ path ++ "'"

end Error

end TypedDecl
