import Formula.CommandLine.Arguments

/-!
The descriptions that the command line prints on request, and what becomes of
arguments as a whole.
-/

namespace Formula.CommandLine

def programHelp : List String :=
  ["Evaluate or compile infix expressions",
    "",
    "Usage: infix [OPTIONS] <COMMAND>",
    "",
    "Commands:",
    "  eval     Evaluate an expression and print its value",
    "  compile  Compile an expression and print the instruction listing",
    "  parse    Print the prefix token stream an expression parses to",
    "  help     Print this message or the help of the given subcommand(s)",
    "",
    "Options:",
    "  -v, --verbose                Log parser, solver and compiler activity to stderr",
    "      --max-depth <MAX_DEPTH>  Maximum expression nesting depth [default: 1000]",
    "  -h, --help                   Print help"]

/-- The description of what a subcommand does to an expression, and the same
as a verb. -/
def Command.purpose : Command → String × String
  | .evaluate => ("Evaluate an expression and print its value", "evaluate")
  | .compile =>
      ("Compile an expression and print the instruction listing", "compile")
  | .parse =>
      ("Print the prefix token stream an expression parses to", "parse")

def Command.optionLines : Command → List String
  | .evaluate =>
      ["  -v, --verbose                Log parser, solver and compiler activity to stderr",
        "      --var <NAME=LITERAL>     Bind a variable, e.g. `--var x=42` or `--var name=\"bob\"`"]
  | .compile =>
      ["      --local <NAME:TYPE>      Declare a local, e.g. `--local x:int` or `--local n:Integer`",
        "  -v, --verbose                Log parser, solver and compiler activity to stderr"]
  | .parse =>
      ["  -v, --verbose                Log parser, solver and compiler activity to stderr"]

def Command.help (command : Command) : List String :=
  let (summary, verb) := command.purpose
  [summary,
    "",
    s!"Usage: infix {command.name} [OPTIONS] [EXPRESSION]",
    "",
    "Arguments:",
    s!"  [EXPRESSION]  Expression to {verb} (if not provided, reads lines from stdin)",
    "",
    "Options:"] ++ command.optionLines ++
  ["      --max-depth <MAX_DEPTH>  Maximum expression nesting depth [default: 1000]",
    "  -h, --help                   Print help"]

def helpHelp : List String :=
  ["Print this message or the help of the given subcommand(s)",
    "",
    "Usage: infix help [COMMAND]...",
    "",
    "Arguments:",
    "  [COMMAND]...  Print help for the subcommand(s)"]

def HelpTopic.lines : HelpTopic → List String
  | .program => programHelp
  | .command subcommand => subcommand.help
  | .help => helpHelp

def HelpTopic.text (topic : HelpTopic) : String :=
  String.join (topic.lines.map (· ++ "\n"))

/-- The run that arguments ask for. A request for help ends the program with
status 0, and arguments that make no request with status 2. -/
def readArguments (arguments : List String) : Except Outcome Invocation :=
  match Request.ofArguments? Language.standard.limit arguments with
  | some (.run invocation) => .ok invocation
  | some (.help topic) => .error ⟨0, topic.text, []⟩
  | none => .error ⟨2, "", ["invalid arguments"]⟩

end Formula.CommandLine
