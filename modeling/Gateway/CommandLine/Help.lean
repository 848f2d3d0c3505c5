import Gateway.CommandLine.Grammar

/-!
The help of a program: what it is for, how its line is made up, then its verbs and its options in
columns. An option's row also says where else its value comes from.
-/
namespace Gateway.CommandLine

/-- Rows in two columns, the second two places right of the widest label. -/
def columns (rows : List (String × String)) : List String :=
  let width := (rows.map fun row => row.1.length).foldl max 0
  rows.map fun row =>
    "  " ++ row.1 ++ String.ofList (List.replicate (width - row.1.length) ' ') ++ "  " ++ row.2

def sectionLines (title : String) (rows : List (String × String)) : List String :=
  if rows.isEmpty then [] else ["", title ++ ":"] ++ columns rows

namespace Parameter

def written (p : Parameter) : String := "--" ++ p.long ++ " <" ++ p.long.toUpper ++ ">"

/-- Where the value comes from if not from the line. -/
def sources (p : Parameter) (environment : Values) : List String :=
  ["[env: " ++ p.envName ++ "=" ++ (environment.lookup p.envName).getD "" ++ "]"]
    ++ p.fallback.toList.map fun value => "[default: " ++ value ++ "]"

def row (p : Parameter) (environment : Values) : String × String :=
  ("-" ++ String.singleton p.short ++ ", " ++ p.written,
    " ".intercalate ((if p.about.isEmpty then [] else [p.about]) ++ p.sources environment))

end Parameter

def Verb.row (v : Verb) : String × String := (v.name, v.about)

def helpRow : String × String := ("-h, --help", "Print help")

namespace Grammar

def requirements (g : Grammar) : List String :=
  (g.parameters.filter Parameter.required).map Parameter.written

def help (g : Grammar) (environment : Values) : List String :=
  let verbs := if g.verbs.isEmpty then [] else
    g.verbs.map Verb.row
      ++ [("help", "Print this message or the help of the given subcommand(s)")]
  let words := [g.name, "[OPTIONS]"] ++ g.requirements
    ++ if g.verbs.isEmpty then [] else ["<COMMAND>"]
  let versionRow := if g.version.isSome then [("-V, --version", "Print version")] else []
  [g.about, "", "Usage: " ++ " ".intercalate words]
    ++ sectionLines "Commands" verbs
    ++ sectionLines "Options"
      (g.parameters.map (fun p => p.row environment) ++ [helpRow] ++ versionRow)

def helpOfVerb (g : Grammar) (v : Verb) : List String :=
  let operands := v.operands.map fun o => "<" ++ o ++ ">"
  let words := [g.name] ++ g.requirements ++ [v.name] ++ operands
  [v.about, "", "Usage: " ++ " ".intercalate words]
    ++ sectionLines "Arguments" (operands.map fun o => (o, ""))
    ++ sectionLines "Options" [helpRow]

/-- What is printed when nothing is run; a line that does not fit prints nothing to read. -/
def lines (g : Grammar) (environment : Values) : Stop → List String
  | .help none => g.help environment
  | .help (some v) => g.helpOfVerb v
  | .version => g.version.toList.map fun v => g.name ++ " " ++ v
  | .misuse => []

end Grammar

def Stop.status : Stop → Nat
  | .help _ | .version => 0
  | .misuse => 2

end Gateway.CommandLine
