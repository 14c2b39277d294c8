import TypedDecl.CommandLine.Options
import TypedDecl.Settings

namespace TypedDecl.CommandLine

inductive Command
  /-- Declarations of a catalog, whose exports are in a directory. -/
  | sql (catalogDirectory : String)
  /-- Constants for the resources under a root directory. -/
  | staticMap (root : String)
  deriving DecidableEq, Repr

structure Invocation where
  command : Command
  config : Option String
  given : Given
  dryRun : Bool
  deriving DecidableEq, Repr

/-- What help is asked for with. -/
inductive Topic
  | program
  | sql
  | staticMap
  /-- The command that asks for help. -/
  | help
  deriving DecidableEq, Repr

inductive Request
  | misuse
  | version
  | help (topic : Topic)
  | run (invocation : Invocation)
  deriving DecidableEq, Repr

/-- Options of the program and of each command. -/
def sharedOptions : List OptionSpec :=
  [.path "config" none, ⟨"verbose", false, some 'v', none, true⟩, .flag helpKey (some 'h')]

def programOptions : List OptionSpec := sharedOptions ++ [.flag versionKey (some 'V')]

def sqlOptions : List OptionSpec :=
  sharedOptions ++
    [.text "db", .text "connection-string", .text "server", .text "user-id", .text "password",
      .text "ns", .bool "with-schema", .path "catalog-dir" none, .path "output" (some 'o'),
      .flag "dry-run" none]

def staticMapOptions : List OptionSpec :=
  sharedOptions ++
    [.path "root" none, .text "ns", .path "output" (some 'o'), .flag "dry-run" none]

def Given.value? (given : Given) (key : String) : Option String := given.lookup key

/-- A command whose options are read. Its own settings file comes before that of the program. -/
def invocation (command : Command) (program given : Given) : Invocation where
  command := command
  config := given.value? "config" <|> program.value? "config"
  given := given
  dryRun := (given.value? "dry-run").isSome

/-- Reads the options of a command, after which no word may be left. Its only option that answers at
once is the one for help. -/
def readCommand (specs : List OptionSpec) (topic : Topic) (command : Given → Option Command)
    (program : Given) (words : List String) : Request :=
  match readOptions specs words.length [] words with
  | .answered _ => .help topic
  | .more given [] =>
    match command given with
    | some c => .run (invocation c program given)
    | none => .misuse
  | _ => .misuse

/-- The topic of the words behind the command that asks for help. -/
def Topic.ofWords : List String → Option Topic
  | [] => some .program
  | ["sql"] => some .sql
  | ["static-map"] => some .staticMap
  | ["help"] => some .help
  | _ => none

def Request.ofWords (words : List String) : Request :=
  match readOptions programOptions words.length [] words with
  | .answered key => if key = versionKey then .version else .help .program
  | .more program ("sql" :: rest) =>
    readCommand sqlOptions .sql
      (fun given => some (.sql ((given.value? "catalog-dir").getD "."))) program rest
  | .more program ("static-map" :: rest) =>
    readCommand staticMapOptions .staticMap (fun given => (given.value? "root").map .staticMap)
      program rest
  | .more _ ("help" :: rest) =>
    match Topic.ofWords rest with
    | some topic => .help topic
    | none => .misuse
  | _ => .misuse

namespace Invocation

def applySql (given : Given) (s : SqlSettings) : SqlSettings :=
  { s with
    source :=
      ⟨(given.value? "server").getD s.source.server,
        given.value? "db" <|> s.source.database,
        given.value? "connection-string" <|> s.source.connectionString,
        given.value? "user-id" <|> s.source.userId,
        given.value? "password" <|> s.source.password⟩
    namespaceText := (given.value? "ns").getD s.namespaceText
    withSchema := ((given.value? "with-schema").map (· == "true")).getD s.withSchema
    output := (given.value? "output").getD s.output }

def applyStaticMap (given : Given) (s : StaticMapSettings) : StaticMapSettings :=
  ⟨(given.value? "ns").getD s.namespaceText, (given.value? "output").getD s.output⟩

def settings (i : Invocation) (s : Settings) : Settings :=
  match i.command with
  | .sql _ => { s with sql := applySql i.given s.sql }
  | .staticMap _ => { s with staticMap := applyStaticMap i.given s.staticMap }

def output (i : Invocation) (s : Settings) : String :=
  match i.command with
  | .sql _ => s.sql.output
  | .staticMap _ => s.staticMap.output

end Invocation

end TypedDecl.CommandLine
