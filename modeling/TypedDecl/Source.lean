import TypedDecl.Catalog.TypeMap
import TypedDecl.Files.Path
import TypedDecl.Text.Quoted
import TypedDecl.Unicode.Blank

namespace TypedDecl

structure SourceSettings where
  server : String
  database : Option String
  connectionString : Option String
  userId : Option String
  password : Option String
  deriving DecidableEq, Repr

namespace SourceSettings

def defaultServer : String := "(local)"

def standard : SourceSettings := ⟨defaultServer, none, none, none, none⟩

end SourceSettings

structure Credentials where
  userId : String
  password : Option String
  deriving DecidableEq, Repr

namespace Credentials

/-- The credentials as they may be shown: the password is only said to be there. -/
def shown (c : Credentials) : String :=
  "Credentials \x7b user_id: " ++ Text.Quoted.quote c.userId ++ ", password: " ++
    (match c.password with
      | some _ => "Some(" ++ Text.Quoted.quote "<redacted>" ++ ")"
      | none => "None") ++ " \x7d"

end Credentials

inductive Target
  | connection (text : String)
  /-- Without credentials the login is integrated. -/
  | database (server : String) (name : String) (credentials : Option Credentials)
  deriving DecidableEq, Repr

namespace Target

def splitGo (sep : Char) : List Char → List Char → List (List Char)
  | acc, [] => [acc.reverse]
  | acc, c :: cs => if c = sep then acc.reverse :: splitGo sep [] cs else splitGo sep (c :: acc) cs

def databaseKeys : List String := ["database", "initial catalog"]

/-- The database that a part of a connection string names. -/
def databaseOfPart? (part : List Char) : Option String :=
  match part.dropWhile (· ≠ '=') with
  | [] => none
  | _ :: value =>
    let key := Unicode.trimChars (part.takeWhile (· ≠ '='))
    let value := Unicode.trimChars value
    if databaseKeys.contains (foldCase (String.ofList key)) && !value.isEmpty then
      some (String.ofList value)
    else none

def databaseName? : Target → Option String
  | database _ name _ => some name
  | connection text => (splitGo ';' [] text.toList).findSome? databaseOfPart?

def ofSettings (s : SourceSettings) : Except Error Target :=
  match s.connectionString.filter (!Unicode.allBlank ·),
      s.database.filter (!Unicode.allBlank ·) with
  | some text, _ => .ok (connection text)
  | none, some name => .ok (database s.server name (s.userId.map (⟨·, s.password⟩)))
  | none, none => .error .noSource

def exportPath (directory : String) (t : Target) : Except Error String :=
  match t.databaseName? with
  | some name => .ok (Files.Path.join directory (name ++ ".json"))
  | none => .error .noDatabaseNamed

end Target

end TypedDecl
