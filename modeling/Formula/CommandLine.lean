import Formula.Language
import Formula.Listing
import Formula.Text.Blank

/-!
What a run of the program prints, and the status it ends with, for the run that
its arguments ask for and its input.
-/

namespace Formula.CommandLine

/-! ## What is asked for -/

/-- What a subcommand works with: the sources of variables, or the types of
local variables. -/
inductive Task
  | evaluate (bindings : List (String × String))
  | compile (locals : List (String × StaticType))
  | parse
  deriving DecidableEq, Repr

/-- A run of the program. Without a source, every line of the input is one. -/
structure Invocation where
  limit : Nat
  task : Task
  source? : Option String
  deriving DecidableEq, Repr

/-- What a run of the program leaves: its status, what it printed, and what it
complained of. -/
structure Outcome where
  status : Nat
  output : String
  complaints : List String
  deriving DecidableEq, Repr

/-! ## Values of options -/

/-- The text before the first occurrence of a character, and the text after
it. -/
def splitOnce (separator : Char) (text : List Char) :
    Option (List Char × List Char) :=
  match text.dropWhile (· ≠ separator) with
  | [] => none
  | _ :: after => some (text.takeWhile (· ≠ separator), after)

/-- A variable: a name that is not blank and the source of its value. -/
def readVariable? (text : String) : Option (String × String) :=
  match splitOnce '=' text.toList with
  | some (name, literal) =>
      if isBlankText name then none
      else
        some (String.ofList (trimWhiteSpace name), String.ofList literal)
  | none => none

def readLocal? (text : String) : Option (String × StaticType) :=
  match splitOnce ':' text.toList with
  | some (name, type) =>
      (StaticType.ofName? (String.ofList (trimWhiteSpace type))).map fun type =>
        (String.ofList (trimWhiteSpace name), type)
  | none => none

/-! ## Sessions -/

/-- What every source of a run is read with. -/
structure Session where
  language : Language
  bindings : Variables
  locals : LocalMap

/-- What keeps a run from reading any source: the source of a variable has no
value, or a local variable cannot be declared. -/
inductive SetupFault
  | binding (name : String) (error : Error)
  | declaration (name : String) (error : Error)

def SetupFault.complaints : SetupFault → List String
  | .binding name error =>
      [s!"invalid value for variable '{name}':", error.message]
  | .declaration name error =>
      [s!"cannot declare local '{name}': {error.message}"]

namespace Session

/-- Binds variables to the values of their sources, none of which may refer to
another variable. -/
def bindAll (language : Language) (bindings : Variables) :
    List (String × String) → Except SetupFault Variables
  | [] => .ok bindings
  | (name, literal) :: rest =>
      match (language.evaluate (fun _ _ => none) .empty literal).1 with
      | .ok value =>
          bindAll language (bindings.insert name (.constant value)) rest
      | .error error => .error (.binding name error)

def declareAll (locals : LocalMap) :
    List (String × StaticType) → Except SetupFault LocalMap
  | [] => .ok locals
  | (name, type) :: rest =>
      match locals.declare name type with
      | (.ok _, locals) => declareAll locals rest
      | (.error error, _) => .error (.declaration name error)

def setUp (invocation : Invocation) : Except SetupFault Session :=
  let language : Language := ⟨.standard, invocation.limit⟩
  match invocation.task with
  | .evaluate bindings =>
      (bindAll language .empty bindings).map (⟨language, ·, .empty⟩)
  | .compile locals =>
      (declareAll .empty locals).map (⟨language, .empty, ·⟩)
  | .parse => .ok ⟨language, .empty, .empty⟩

def answer (session : Session) (task : Task) (source : String) :
    Except Error String :=
  match task with
  | .evaluate _ =>
      (session.language.evaluate (fun _ _ => none) session.bindings
        source).1.map Constant.text
  | .compile _ =>
      (session.language.compile session.locals .none source).map Code.listing
  | .parse => (session.language.parse source).map Token.listText

end Session

/-- What the sources of a run leave: whether all of them had an answer, what
was printed and what was complained of. -/
structure Report where
  succeeded : Bool
  output : String
  complaints : List String
  deriving DecidableEq, Repr

namespace Report

def empty : Report := ⟨true, "", []⟩

def append (report more : Report) : Report :=
  { succeeded := report.succeeded && more.succeeded
    output := report.output ++ more.output
    complaints := report.complaints ++ more.complaints }

/-- A run whose sources leave this ends with status 0 if all had an answer. -/
def outcome (report : Report) : Outcome :=
  ⟨if report.succeeded then 0 else 1, report.output, report.complaints⟩

end Report

def Session.run (session : Session) (task : Task) (source : String) : Report :=
  match session.answer task source with
  | .ok text => ⟨true, text ++ "\n", []⟩
  | .error error => ⟨false, "", [error.message]⟩

/-! ## Lines -/

/-- The lines of a text. A line ends with a line feed, which a carriage return
may precede; `read` holds the characters of the current line in reverse, and
`lines` the lines before it in reverse. -/
def linesFrom (lines : List String) (read : List Char) :
    List Char → List String
  | [] =>
      if read.isEmpty then lines.reverse
      else (String.ofList read.reverse :: lines).reverse
  | '\n' :: rest =>
      let line :=
        match read with
        | '\r' :: before => before
        | _ => read
      linesFrom (String.ofList line.reverse :: lines) [] rest
  | char :: rest => linesFrom lines (char :: read) rest

def linesOf (input : String) : List String :=
  linesFrom [] [] input.toList

/-- Reads one more line, unless it is blank. -/
def Session.runLine (session : Session) (task : Task) (report : Report)
    (line : String) : Report :=
  if isBlankText line.toList then report
  else report.append (session.run task line)

def Session.runLines (session : Session) (task : Task) (lines : List String) :
    Report :=
  lines.foldl (session.runLine task) .empty

/-! ## Runs -/

/-- The outcome of a run. A session that cannot be set up ends the run before
any source is read. -/
def Invocation.run (invocation : Invocation) (input : String) : Outcome :=
  match Session.setUp invocation with
  | .error fault => ⟨2, "", fault.complaints⟩
  | .ok session =>
      match invocation.source? with
      | some source => (session.run invocation.task source).outcome
      | none => (session.runLines invocation.task (linesOf input)).outcome

def Invocation.readsInput (invocation : Invocation) : Bool :=
  invocation.source?.isNone

/-- The outcome of the program for given arguments and input. Reading the
arguments finds the run that they ask for, or ends the program. -/
def run (read : List String → Except Outcome Invocation)
    (arguments : List String) (input : String) : Outcome :=
  match read arguments with
  | .ok invocation => invocation.run input
  | .error outcome => outcome

end Formula.CommandLine
