import Formula.CommandLine

/-!
The arguments of the command line: a subcommand with its options, and the
options that may stand on either side of its name. Of the options before the
name, a value in an argument of its own waits until the next option is taken up
or the arguments after the name have been read, so a request for help after the
name comes before its faults.
-/

namespace Formula.CommandLine

/-! ## What is asked for -/

inductive Command
  | evaluate
  | compile
  | parse
  deriving DecidableEq, Repr

/-- What can be described: the program, a subcommand, or the subcommand that
describes the others. -/
inductive HelpTopic
  | program
  | command (command : Command)
  | help
  deriving DecidableEq, Repr

inductive Request
  | run (invocation : Invocation)
  | help (topic : HelpTopic)
  deriving DecidableEq, Repr

namespace Command

def name : Command → String
  | .evaluate => "eval"
  | .compile => "compile"
  | .parse => "parse"

def all : List Command := [.evaluate, .compile, .parse]

def ofName? (text : String) : Option Command :=
  all.find? fun command => command.name = text

end Command

/-! ## Counts -/

/-- A count that fits 64 bits; a plus sign may precede its digits. -/
def readCount? (text : String) : Option Nat :=
  let digits :=
    match text.toList with
    | '+' :: rest => rest
    | digits => digits
  if digits.isEmpty || !digits.all Char.isDigit then none
  else
    let value := digits.foldl
      (fun value digit => value * 10 + (digit.toNat - '0'.toNat)) 0
    if value < UInt64.size then some value else none

/-! ## Reading arguments -/

inductive Argument
  | terminator
  | long (name : String) (value? : Option String)
  | short (letters : List Char)
  | plain (text : String)

/-- The form of one argument: a lone hyphen is plain. -/
def Argument.of (text : String) : Argument :=
  match text.toList with
  | ['-', '-'] => .terminator
  | '-' :: '-' :: rest =>
      match splitOnce '=' rest with
      | some (name, value) =>
          .long (String.ofList name) (some (String.ofList value))
      | none => .long (String.ofList rest) none
  | '-' :: letter :: rest => .short (letter :: rest)
  | _ => .plain text

/-- Whether an argument can be the value of the option before it. -/
def Argument.isValue : Argument → Bool
  | .plain _ => true
  | _ => false

structure Settings where
  verbose : Bool
  limit? : Option Nat
  bindings : List (String × String)
  locals : List (String × StaticType)
  source? : Option String

def Settings.empty : Settings := ⟨false, none, [], [], none⟩

/-- The outcome of one argument: more settings, the request for help, or
nothing acceptable. -/
inductive Setting
  | set (settings : Settings)
  | help
  | rejected

/-- Goes on from the settings so far, if the outcome is settings. -/
def Setting.andThen (setting : Setting) (next : Settings → Setting) :
    Setting :=
  match setting with
  | .set settings => next settings
  | .help => .help
  | .rejected => .rejected

/-- The request that an outcome makes: help is about a topic, and settings go
on to what follows. -/
def Setting.toRequest? (setting : Setting) (topic : HelpTopic)
    (next : Settings → Option Request) : Option Request :=
  match setting with
  | .set settings => next settings
  | .help => some (.help topic)
  | .rejected => none

namespace Settings

def setVerbose (settings : Settings) : Setting :=
  if settings.verbose then .rejected
  else .set { settings with verbose := true }

def setLimit (settings : Settings) (value : String) : Setting :=
  match settings.limit?, readCount? value with
  | none, some limit => .set { settings with limit? := some limit }
  | _, _ => .rejected

def settle (settings : Settings) (waiting? : Option String) : Setting :=
  match waiting? with
  | none => .set settings
  | some value => settings.setLimit value

/-- Sets an option that takes a value. The options for variables and locals
belong to one subcommand each. -/
def setValue (settings : Settings) (command? : Option Command)
    (name value : String) : Setting :=
  if name = "max-depth" then settings.setLimit value
  else if name = "var" ∧ command? = some .evaluate then
    match readVariable? value with
    | some binding =>
        .set { settings with bindings := settings.bindings ++ [binding] }
    | none => .rejected
  else if name = "local" ∧ command? = some .compile then
    match readLocal? value with
    | some binding =>
        .set { settings with locals := settings.locals ++ [binding] }
    | none => .rejected
  else .rejected

def setLetters (settings : Settings) : List Char → Setting
  | [] => .set settings
  | 'v' :: rest =>
      settings.setVerbose.andThen fun settings => settings.setLetters rest
  | 'h' :: _ => .help
  | _ => .rejected

def setSource (settings : Settings) (text : String) : Setting :=
  match settings.source? with
  | none => .set { settings with source? := some text }
  | some _ => .rejected

end Settings

/-- Reads what follows the terminator: sources only. -/
def readSources (settings : Settings) : List String → Setting
  | [] => .set settings
  | text :: rest =>
      (settings.setSource text).andThen fun settings =>
        readSources settings rest

def readAfter (command : Command) (settings : Settings) :
    List String → Setting
  | [] => .set settings
  | text :: rest =>
      match Argument.of text with
      | .terminator => readSources settings rest
      | .plain text =>
          (settings.setSource text).andThen fun settings =>
            readAfter command settings rest
      | .short letters =>
          (settings.setLetters letters).andThen fun settings =>
            readAfter command settings rest
      | .long "verbose" none =>
          settings.setVerbose.andThen fun settings =>
            readAfter command settings rest
      | .long "help" none => .help
      | .long name (some value) =>
          (settings.setValue (some command) name value).andThen fun settings =>
            readAfter command settings rest
      | .long name none =>
          match rest with
          | value :: rest =>
              if (Argument.of value).isValue then
                (settings.setValue (some command) name value).andThen
                  fun settings => readAfter command settings rest
              else .rejected
          | [] => .rejected

/-- The run that settings before and after a subcommand ask for. An option set
on both sides counts as set after the subcommand. -/
def Settings.toInvocation (after : Settings) (command : Command)
    (before : Settings) (defaultLimit : Nat) : Invocation :=
  { limit := (after.limit?.orElse fun _ => before.limit?).getD defaultLimit
    task :=
      match command with
      | .evaluate => .evaluate after.bindings
      | .compile => .compile after.locals
      | .parse => .parse
    source? := after.source? }

/-- The request for help that follows the word `help`. -/
def readHelp? : List String → Option Request
  | [] => some (.help .program)
  | ["help"] => some (.help .help)
  | [name] => (Command.ofName? name).map fun command => .help (.command command)
  | _ => none

/-- Reads arguments from the first one on, if they are acceptable. The limit is
the only option before the subcommand that takes a value; one in an argument of
its own waits for the next option, or for the end of the arguments after the
subcommand. -/
def readBefore? (defaultLimit : Nat) (settings : Settings)
    (waiting? : Option String) : List String → Option Request
  | [] => none
  | text :: rest =>
      match Argument.of text with
      | .terminator => none
      | .plain "help" => readHelp? rest
      | .plain name =>
          match Command.ofName? name with
          | none => none
          | some command =>
              (readAfter command .empty rest).toRequest? (.command command)
                fun after =>
                  (settings.settle waiting?).toRequest? .program fun before =>
                    some (.run (after.toInvocation command before defaultLimit))
      | .short letters =>
          ((settings.settle waiting?).andThen fun settings =>
              settings.setLetters letters).toRequest? .program fun settings =>
            readBefore? defaultLimit settings none rest
      | .long "verbose" none =>
          ((settings.settle waiting?).andThen
              Settings.setVerbose).toRequest? .program fun settings =>
            readBefore? defaultLimit settings none rest
      | .long "help" none =>
          ((settings.settle waiting?).andThen fun _ => .help).toRequest?
            .program fun _ => none
      | .long name (some value) =>
          ((settings.settle waiting?).andThen fun settings =>
              settings.setValue none name value).toRequest? .program
            fun settings => readBefore? defaultLimit settings none rest
      | .long "max-depth" none =>
          match rest with
          | value :: rest =>
              if (Argument.of value).isValue then
                (settings.settle waiting?).toRequest? .program fun settings =>
                  readBefore? defaultLimit settings (some value) rest
              else none
          | [] => none
      | .long _ none => none

def Request.ofArguments? (defaultLimit : Nat) (arguments : List String) :
    Option Request :=
  readBefore? defaultLimit .empty none arguments

end Formula.CommandLine
