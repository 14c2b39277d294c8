import TypedDecl.CommandLine.Command

namespace TypedDecl.CommandLine.Topic

/-- The lines of a page of help. Where one of the explanations is too long to stand beside what it
explains, all of them stand below. -/
def lines : Topic → List String
  | program =>
    ["Generates typed Rust declarations from table catalogs and resource directories",
      "",
      "Usage: declgen [OPTIONS] <COMMAND>",
      "",
      "Commands:",
      "  sql         Generate table declarations from a database catalog",
      "  static-map  Generate path constants for a static resource directory",
      "  help        Print this message or the help of the given subcommand(s)",
      "",
      "Options:",
      "      --config <FILE>  Configuration file (TOML); flags override its values",
      "  -v...                Increase verbosity (-v, -vv, -vvv)",
      "  -h, --help           Print help",
      "  -V, --version        Print version"]
  | sql =>
    ["Generate table declarations from a database catalog",
      "",
      "Usage: declgen sql [OPTIONS]",
      "",
      "Options:",
      "      --config <FILE>",
      "          Configuration file (TOML); flags override its values",
      "      --db <DB>",
      "          Database to describe",
      "      --connection-string <CONNECTION_STRING>",
      "          Connection string (takes precedence over --db)",
      "  -v...",
      "          Increase verbosity (-v, -vv, -vvv)",
      "      --server <SERVER>",
      "          Database server [default: (local)]",
      "      --user-id <USER_ID>",
      "          SQL login; integrated authentication when omitted",
      "      --password <PASSWORD>",
      "          ",
      "      --ns <NAMESPACE>",
      "          Namespace of the generated modules [default: generated::sql_query]",
      "      --with-schema <BOOL>",
      "          Prefix table structs with their schema [default: true] [possible values: true, false]",
      "      --catalog-dir <DIR>",
      "          Directory holding catalog exports (`<database>.json`) [default: .]",
      "  -o, --output <FILE>",
      "          Output file [default: SQLQuery.generated.rs]",
      "      --dry-run",
      "          Print generated code without writing files",
      "  -h, --help",
      "          Print help"]
  | staticMap =>
    ["Generate path constants for a static resource directory",
      "",
      "Usage: declgen static-map [OPTIONS] --root <DIR>",
      "",
      "Options:",
      "      --config <FILE>   Configuration file (TOML); flags override its values",
      "      --root <DIR>      Directory to describe",
      "      --ns <NAMESPACE>  Namespace of the generated modules [default: generated::static_map]",
      "  -v...                 Increase verbosity (-v, -vv, -vvv)",
      "  -o, --output <FILE>   Output file [default: StaticMap.generated.rs]",
      "      --dry-run         Print generated code without writing files",
      "  -h, --help            Print help"]
  | help =>
    ["Print this message or the help of the given subcommand(s)",
      "",
      "Usage: declgen help [COMMAND]...",
      "",
      "Arguments:",
      "  [COMMAND]...  Print help for the subcommand(s)"]

def page (topic : Topic) : String := String.join (topic.lines.map (· ++ "\n"))

end TypedDecl.CommandLine.Topic
