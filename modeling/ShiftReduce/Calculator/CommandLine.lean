import ShiftReduce.Calculator.Eval

/-! Reads the arguments, evaluates one source, and lays out what is printed. Arguments are read from
left to right, and the first that asks for help or cannot be understood decides. -/

namespace ShiftReduce.Calculator.CommandLine

/-- What a command prints and the code that it ends with. -/
structure Report where
  code : UInt32 := 0
  stdout : String := ""
  stderr : String := ""
  deriving DecidableEq, Repr

/-! ## Arguments -/

inductive Topic where
  | overview
  | eval
  | help
  deriving DecidableEq, Repr

inductive Invocation where
  | help (topic : Topic)
  | version
  /-- Evaluate a file, or the standard input if none is named. -/
  | eval (input : Option String) (flags : Trace.Flags)
  deriving DecidableEq, Repr

inductive UsageError where
  | missingCommand
  | unexpected (argument : String)
  | missingValue (option : String)
  | invalidValue (option : String) (value : String)
  | repeated (option : String)
  deriving DecidableEq, Repr

def UsageError.message : UsageError → String
  | .missingCommand => "a command is required"
  | .unexpected argument => "unexpected argument '" ++ argument ++ "' found"
  | .missingValue option => "a value is required for '" ++ option ++ "' but none was supplied"
  | .invalidValue option value => "invalid value '" ++ value ++ "' for '" ++ option ++ "'"
  | .repeated option => "the argument '" ++ option ++ "' cannot be used multiple times"

inductive EvalOption where
  | input
  | debug
  deriving DecidableEq, Repr

def EvalOption.name : EvalOption → String
  | .input => "--input <INPUT>"
  | .debug => "--debug <DEBUG>"

structure EvalOptions where
  input : Option String := none
  flags : Option Trace.Flags := none
  deriving DecidableEq, Repr

/-- Takes the value of an option, which may be given once. A file's name may not be empty. -/
def EvalOptions.set (o : EvalOptions) (option : EvalOption) (value : String) :
    Except UsageError EvalOptions :=
  match option with
  | .input =>
    if value = "" then .error (.invalidValue option.name value)
    else if o.input.isSome then .error (.repeated option.name)
    else .ok { o with input := some value }
  | .debug =>
    match Trace.Flags.parse value with
    | .error _ => .error (.invalidValue option.name value)
    | .ok flags =>
      if o.flags.isSome then .error (.repeated option.name)
      else .ok { o with flags := some flags }

inductive Argument where
  /-- `--`, behind which no options stand. -/
  | separator
  /-- `--name`, or `--name=value`. -/
  | long (name : String) (value : Option String)
  /-- `-xyz`: a letter and what follows it. -/
  | short (letter : Char) (rest : List Char)
  | plain (text : String)
  deriving DecidableEq, Repr

def splitValue (text : List Char) : String × Option String :=
  match Text.splitFirst '=' text with
  | none => (String.ofList text, none)
  | some (name, value) => (String.ofList name, some (String.ofList value))

def Argument.ofString (text : String) : Argument :=
  match text.toList with
  | ['-', '-'] => .separator
  | '-' :: '-' :: rest => .long (splitValue rest).1 (splitValue rest).2
  | '-' :: letter :: rest => .short letter rest
  | _ => .plain text

/-- The value that is attached to a letter, from which an equals sign may part it. -/
def attachedValue? : List Char → Option String
  | [] => none
  | '=' :: rest => some (String.ofList rest)
  | rest => some (String.ofList rest)

inductive EvalArgument where
  | help
  | option (option : EvalOption) (value : Option String)

def EvalArgument.ofArgument? : Argument → Option EvalArgument
  | .long "help" none => some .help
  | .long "input" value => some (.option .input value)
  | .long "debug" value => some (.option .debug value)
  | .short 'h' _ => some .help
  | .short 'i' rest => some (.option .input (attachedValue? rest))
  | .short 'd' rest => some (.option .debug (attachedValue? rest))
  | _ => none

/-- Reads the arguments of an evaluation. A value that stands by itself may not look like an
option. -/
def readEval (o : EvalOptions) : List String → Except UsageError Invocation
  | [] => .ok (.eval o.input (o.flags.getD .none))
  | text :: rest =>
    match Argument.ofString text with
    | .separator =>
      match rest with
      | [] => .ok (.eval o.input (o.flags.getD .none))
      | extra :: _ => .error (.unexpected extra)
    | argument =>
      match EvalArgument.ofArgument? argument with
      | none => .error (.unexpected text)
      | some .help => .ok (.help .eval)
      | some (.option option (some value)) => do readEval (← o.set option value) rest
      | some (.option option none) =>
        match rest with
        | [] => .error (.missingValue option.name)
        | next :: rest =>
          match Argument.ofString next with
          | .plain value => do readEval (← o.set option value) rest
          | _ => .error (.missingValue option.name)

def readHelp : List String → Except UsageError Invocation
  | [] => .ok (.help .overview)
  | ["eval"] => .ok (.help .eval)
  | ["help"] => .ok (.help .help)
  | "eval" :: extra :: _ => .error (.unexpected extra)
  | "help" :: extra :: _ => .error (.unexpected extra)
  | extra :: _ => .error (.unexpected extra)

def read : List String → Except UsageError Invocation
  | [] => .error .missingCommand
  | text :: rest =>
    match Argument.ofString text with
    | .plain "eval" => readEval {} rest
    | .plain "help" => readHelp rest
    | .long "help" none => .ok (.help .overview)
    | .long "version" none => .ok .version
    | .short 'h' _ => .ok (.help .overview)
    | .short 'V' _ => .ok .version
    | _ => .error (.unexpected text)

/-! ## Fixed texts -/

def versionText : String := "yapp-calc 0.1.0\n"

def lines (ls : List String) : String := String.join (ls.map (· ++ "\n"))

def helpText : Topic → String
  | .overview => lines
    ["Calculator built on the yapp LALR(1) runtime",
     "",
     "Usage: yapp-calc <COMMAND>",
     "",
     "Commands:",
     "  eval  Evaluates calculator statements",
     "  help  Print this message or the help of the given subcommand(s)",
     "",
     "Options:",
     "  -h, --help     Print help",
     "  -V, --version  Print version"]
  | .eval => lines
    ["Evaluates calculator statements",
     "",
     "Usage: yapp-calc eval [OPTIONS]",
     "",
     "Options:",
     "  -i, --input <INPUT>  Input file (standard input when omitted)",
     "  -d, --debug <DEBUG>  Trace categories: a bitmask such as 0x1f, or names such as " ++
       "\"state,action,recovery\" [default: none]",
     "  -h, --help           Print help"]
  | .help => lines
    ["Print this message or the help of the given subcommand(s)",
     "",
     "Usage: yapp-calc help [COMMAND]...",
     "",
     "Arguments:",
     "  [COMMAND]...  Print help for the subcommand(s)"]

/-! ## Evaluation -/

/-- An error and the reasons below it; several reasons are numbered. -/
def errorText (message : String) (causes : List String) : String :=
  let shown : List String :=
    match causes with
    | [] => []
    | [cause] => ["", "Caused by:", "    " ++ cause]
    | causes => ["", "Caused by:"] ++ causes.mapIdx fun i cause => s!"    {i}: " ++ cause
  lines (("Error: " ++ message) :: shown)

def failed (message : String) (causes : List String) : Report :=
  { code := 1, stderr := errorText message causes }

inductive ReadFailure where
  | notFound
  | notDirectory
  | isDirectory
  | nameTooLong
  | denied
  | notText
  | other (text : String)
  deriving DecidableEq, Repr

def ReadFailure.message : ReadFailure → String
  | .notFound => "No such file or directory (os error 2)"
  | .notDirectory => "Not a directory (os error 20)"
  | .isDirectory => "Is a directory (os error 21)"
  | .nameTooLong => "File name too long (os error 36)"
  | .denied => "Permission denied (os error 13)"
  | .notText => "stream did not contain valid UTF-8"
  | .other text => text

def readMessage : Option String → String
  | some path => "can't open " ++ Text.quote path
  | none => "can't read standard input"

def decode (content : Except ReadFailure ByteArray) : Except ReadFailure String :=
  match content with
  | .error failure => .error failure
  | .ok bytes =>
    match String.fromUTF8? bytes with
    | some text => .ok text
    | none => .error .notText

def resultLine : Option Int → String
  | some n => toString n
  | none => "error"

def bindingLine (binding : String × Int) : String := binding.1 ++ " = " ++ toString binding.2

/-- The results and then the variables; the diagnostics go to the other stream. -/
def sessionReport (s : Session) : Report :=
  { stdout := lines (s.results.toList.map resultLine ++ s.symbols.entries.map bindingLine)
    stderr := lines s.errors.toList }

def faultCauses : Fault Error → List String
  | .lexer e | .action _ e => e.chain
  | _ => []

/-- What is printed of a run. A run that was broken off prints no results. -/
def runReport : Option CalculatorRun → Report
  | none => failed "too many steps" []
  | some run =>
    match run.result with
    | .error fault => failed (fault.message Error.message) (faultCauses fault)
    | .ok (.fail reason) =>
      let report := sessionReport run.final.context
      { report with
        code := 1
        stderr := report.stderr ++ errorText ("parse failed: " ++ reason.name) [] }
    | .ok _ => sessionReport run.final.context

def evalReport (input : Option String) (flags : Trace.Flags)
    (content : Except ReadFailure ByteArray) : Report :=
  match decode content with
  | .error failure => failed (readMessage input) [failure.message]
  | .ok source => runReport (eval source {} flags)

/-- The answer to an invocation; `content` is what the source holds, if it asks for one. -/
def Invocation.report (i : Invocation) (content : Except ReadFailure ByteArray) : Report :=
  match i with
  | .help topic => { stdout := helpText topic }
  | .version => { stdout := versionText }
  | .eval input flags => evalReport input flags content

def UsageError.report (e : UsageError) : Report :=
  { code := 2, stderr := "error: " ++ e.message ++ "\n" }

/-- The answer to the arguments, in a world of files and a standard input. -/
def respond (file : String → Except ReadFailure ByteArray) (stdin : ByteArray)
    (arguments : List String) : Report :=
  match read arguments with
  | .error e => e.report
  | .ok invocation =>
    invocation.report <|
      match invocation with
      | .eval (some path) _ => file path
      | _ => .ok stdin

end ShiftReduce.Calculator.CommandLine
