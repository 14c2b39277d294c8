import TypedDecl.Code.Item.Tokens
import TypedDecl.Declaration
import TypedDecl.Declaration.Spelling

namespace TypedDecl.Declaration

open Code (Ident Token Path)
open Code.Token (word operator)
open Code.Item

/-- A member with its three texts as code. -/
structure Spelled where
  ident : Ident
  type : List Token
  value : List Token

/-- The name, the type and the value of a member, checked in this order. -/
def spell (m : Member) : Except Error Spelled := do
  let i ← ident m.name
  let type ← typeTokens m.type
  let value ← valueTokens m.value
  pure ⟨i, type, value⟩

def plain (s : String) : Ident := Ident.plain s

def staticStr : List Token := borrowTokens (Code.Token.lifetime (plain "static") ++ [word "str"])

def selfType : List Token := [word "Self"]

def derived : List Token := attributeTokens "derive" ["Debug", "Clone"]

def runtimeTokens (runtime : Path) (names : List String) : List Token :=
  pathTokens runtime.tokens names

def fieldType (runtime : Path) (valueType : List Token) : List Token :=
  runtimeTokens runtime ["Field"] ++ operator ['<'] ++ valueType ++ operator ['>']

def receiver : List Token := borrowTokens [word "self"]

/-- A part of the value that a method is called on. -/
def selfField (part : Token) : List Token :=
  borrowTokens (word "self" :: operator ['.'] ++ [part])

def registryTokens (i : Ident) (members : List Spelled) : List Token :=
  docTokens " Entry points for every table in the catalog." ++ publicTokens (unitTokens i) ++
    implTokens i (members.flatMap fun m =>
      publicTokens (functionTokens m.ident [] m.type m.value))

def directoryTokens (i : Ident) (path : String) (members : List Spelled) : List Token :=
  docTokens (" Resources under \x60" ++ path ++ "\x60.") ++ publicTokens (unitTokens i) ++
    if members.isEmpty then []
    else implTokens i (members.flatMap fun m =>
      publicTokens (constantTokens m.ident m.type m.value))

def fieldTokens (runtime : Path) (i : Ident) (valueType : List Token) : List Token :=
  let inner := fieldType runtime valueType
  derived ++ publicTokens (tupleTokens i (publicTokens inner)) ++
    implTokens i (publicTokens (functionTokens (plain "new")
      (argTokens [typedTokens [word "table"] (borrowTokens (runtimeTokens runtime ["Table"])),
        typedTokens [word "column"] staticStr])
      selfType
      (callTokens selfType (callTokens (runtimeTokens runtime ["Field", "new"])
        (argTokens [[word "table"], [word "column"]]))))) ++
    traitTokens (pathTokens [] ["core", "ops", "Deref"]) i
      (aliasTokens (plain "Target") inner ++
        functionTokens (plain "deref") receiver (borrowTokens (selfPath ["Target"]))
          (selfField (.literal "0")))

/-- What `with_alias` does: it makes the runtime's table, and of that each field of its own. -/
def aliasBody (runtime : Path) (members : List Spelled) : List Token :=
  letTokens "table" (callTokens (runtimeTokens runtime ["Table", "new"])
      (argTokens [selfPath ["SCHEMA"], selfPath ["NAME"], [word "alias"]])) ++
    selfType ++ Code.Token.group .brace
      (commaTokens (members.map (fun m =>
        typedTokens [.ident m.ident] (callTokens (pathTokens m.type ["new"])
          (argTokens [borrowTokens [word "table"], m.value]))) ++
        [typedTokens [word handleName] [word "table"]]))

def withAlias (runtime : Path) (members : List Spelled) : List Token :=
  functionTokens (plain "with_alias")
    (typedTokens [word "alias"]
      (word "Option" :: operator ['<'] ++ [word "String"] ++ operator ['>']))
    selfType (aliasBody runtime members)

/-- The fields of a table: the runtime's table and one for each column. -/
def tableFields (runtime : Path) (members : List Spelled) : List Token :=
  commaTokens (typedTokens [word handleName] (runtimeTokens runtime ["Table"]) ::
    members.map fun m => publicTokens (typedTokens [.ident m.ident] m.type))

def tableConstants (schema table : String) : List Token :=
  let literal (s : String) : List Token := [.literal (Text.Quoted.quoteGuarded s)]
  publicTokens (constantTokens (plain "SCHEMA") staticStr (literal schema)) ++
    publicTokens (constantTokens (plain "NAME") staticStr (literal table))

def aliased (value : List Token) : List Token := callTokens (selfPath ["with_alias"]) value

def withoutAlias : List Token :=
  docTokens " Creates an unaliased instance." ++
    publicTokens (functionTokens (plain "new") [] selfType (aliased [word "None"]))

/-- The functions of a table that has been made. -/
def tableMethods (runtime : Path) : List Token :=
  docTokens " Re-binds this table under another alias." ++
    publicTokens (functionTokens (plain "alias")
      (argTokens [receiver, typedTokens [word "alias"]
        (word "impl" :: word "Into" :: operator ['<'] ++ [word "String"] ++ operator ['>'])])
      selfType
      (aliased (callTokens [word "Some"]
        (callTokens (word "alias" :: operator ['.'] ++ [word "into"]) [])))) ++
    publicTokens (functionTokens (plain "table") receiver
      (borrowTokens (runtimeTokens runtime ["Table"])) (selfField (word handleName)))

def tableItems (runtime : Path) (schema table : String) (members : List Spelled) : List Token :=
  tableConstants schema table ++ withoutAlias ++ publicTokens (withAlias runtime members) ++
    tableMethods runtime

def tableTokens (runtime : Path) (i : Ident) (schema table : String) (members : List Spelled) :
    List Token :=
  docTokens (" Table \x60" ++ schema ++ "." ++ table ++ "\x60.") ++ derived ++
    publicTokens (recordTokens i (tableFields runtime members)) ++
    implTokens i (tableItems runtime schema table members) ++
    traitTokens [word "Default"] i
      (functionTokens (plain "default") [] selfType (callTokens (selfPath ["new"]) []))

/-- The tokens of one declaration. Its own name is checked first. -/
def tokens (runtime : Path) (d : Declaration) : Except Error (List Token) := do
  let i ← ident d.name
  match d.kind with
  | .registry => pure (registryTokens i (← d.members.mapM spell))
  | .table schema table => pure (tableTokens runtime i schema table (← d.members.mapM spell))
  | .field valueType => pure (fieldTokens runtime i (← typeTokens valueType))
  | .directory path => pure (directoryTokens i path (← d.members.mapM spell))

def listTokens (runtime : String) (ds : List Declaration) : Except Error (List Token) := do
  let path ← runtimePath runtime
  let rows ← ds.mapM (tokens path)
  pure rows.flatten

end TypedDecl.Declaration
