import ShiftReduce.Calculator.CommandLine
import ShiftReduce.Proofs.Calculator.OneLine
import ShiftReduce.Proofs.Calculator.Transcript

namespace ShiftReduce.Calculator.CommandLine

section Arguments

def EvalOption.word : EvalOption → String
  | .input => "input"
  | .debug => "debug"

def EvalOption.letter : EvalOption → Char
  | .input => 'i'
  | .debug => 'd'

def EvalOption.long (option : EvalOption) : String := "--" ++ option.word

def EvalOption.short (option : EvalOption) : String := "-" ++ option.letter.toString

/-- A value that is an argument of its own may not look like an option. -/
def StandsAlone (value : String) : Prop := value = "-" ∨ value.toList.head? ≠ some '-'

/-- The ways to write an option with its value. -/
inductive Spelled (option : EvalOption) (value : String) : List String → Prop where
  | long (alone : StandsAlone value) : Spelled option value [option.long, value]
  | longJoined : Spelled option value [option.long ++ "=" ++ value]
  | short (alone : StandsAlone value) : Spelled option value [option.short, value]
  | shortJoined : Spelled option value [option.short ++ "=" ++ value]
  | attached (nonempty : value ≠ "") (plain : value.toList.head? ≠ some '=') :
      Spelled option value [option.short ++ value]

/-- Arguments of an evaluation and what they ask for. Each option may be given once, in any order. -/
inductive Asks : List String → EvalOptions → Prop where
  | nothing : Asks [] {}
  | input {arguments more : List String} {o : EvalOptions} {path : String} (asks : Asks arguments o)
      (fresh : o.input = none) (named : Spelled .input path more) (nonempty : path ≠ "") :
      Asks (arguments ++ more) { o with input := some path }
  | debug {arguments more : List String} {o : EvalOptions} {text : String} {flags : Trace.Flags}
      (asks : Asks arguments o) (fresh : o.flags = none) (traced : Spelled .debug text more)
      (valid : Trace.Flags.parse text = .ok flags) :
      Asks (arguments ++ more) { o with flags := some flags }

/-- The arguments ask for the evaluation of this source, in a world where it is on the standard input
or in the file that they name. -/
inductive Supplies (file : String → Except ReadFailure ByteArray) (stdin : ByteArray)
    (source : String) : List String → Prop where
  | standardInput {arguments : List String} {o : EvalOptions} (asks : Asks arguments o)
      (unnamed : o.input = none) (content : stdin = source.toUTF8) :
      Supplies file stdin source ("eval" :: arguments)
  | file {arguments : List String} {o : EvalOptions} {path : String} (asks : Asks arguments o)
      (named : o.input = some path) (content : file path = .ok source.toUTF8) :
      Supplies file stdin source ("eval" :: arguments)

theorem StandsAlone.plain {value : String} (alone : StandsAlone value) :
    Argument.ofString value = .plain value := by
  rcases alone with rfl | plain
  · rfl
  · unfold Argument.ofString
    split <;> simp_all

theorem readEval_given {text value : String} {option : EvalOption} (o : EvalOptions)
    (rest : List String) (given : EvalArgument.ofArgument? (Argument.ofString text) =
      some (.option option (some value))) :
    readEval o (text :: rest) = o.set option value >>= fun o => readEval o rest := by
  rw [readEval.eq_def]
  dsimp only
  cases read : Argument.ofString text with
  | separator =>
    rw [read] at given
    contradiction
  | long | short | plain =>
    rw [read] at given
    simp only [given]

theorem readEval_apart {text value : String} {option : EvalOption} (o : EvalOptions)
    (rest : List String) (asked : EvalArgument.ofArgument? (Argument.ofString text) =
      some (.option option none)) (alone : StandsAlone value) :
    readEval o (text :: value :: rest) = o.set option value >>= fun o => readEval o rest := by
  rw [readEval.eq_def]
  dsimp only
  cases read : Argument.ofString text with
  | separator =>
    rw [read] at asked
    contradiction
  | long | short | plain =>
    rw [read] at asked
    simp only [asked, alone.plain]

theorem ofString_short {text : String} {letter : Char} {rest : List Char}
    (spelt : text.toList = '-' :: letter :: rest) (other : letter ≠ '-') :
    Argument.ofString text = .short letter rest := by
  unfold Argument.ofString
  rw [spelt]
  split <;> simp_all

theorem ofString_long {text : String} {name value : List Char}
    (spelt : text.toList = '-' :: '-' :: (name ++ '=' :: value)) (within : '=' ∉ name) :
    Argument.ofString text = .long (String.ofList name) (some (String.ofList value)) := by
  have parted : splitValue (name ++ '=' :: value) =
      (String.ofList name, some (String.ofList value)) := by
    rw [splitValue, Text.splitFirst_append within]
  obtain ⟨c, cs, same⟩ : ∃ c cs, name ++ '=' :: value = c :: cs :=
    List.exists_cons_of_ne_nil (by simp)
  rw [same] at spelt parted
  simp [Argument.ofString, spelt, parted]

theorem attachedValue?_joined (value : List Char) :
    attachedValue? ('=' :: value) = some (String.ofList value) := rfl

theorem attachedValue?_plain {value : List Char} (nonempty : value ≠ [])
    (plain : value.head? ≠ some '=') : attachedValue? value = some (String.ofList value) := by
  unfold attachedValue?
  split <;> simp_all

theorem EvalOption.ofArgument?_letter (option : EvalOption) (rest : List Char) :
    EvalArgument.ofArgument? (.short option.letter rest) =
      some (.option option (attachedValue? rest)) := by
  cases option <;> rfl

/-- An option is read by its value, however it is written. -/
theorem readEval_spelled {option : EvalOption} {value : String} {arguments : List String}
    (spelled : Spelled option value arguments) (o : EvalOptions) (rest : List String) :
    readEval o (arguments ++ rest) = o.set option value >>= fun o => readEval o rest := by
  cases spelled with
  | long alone => exact readEval_apart o rest (by cases option <;> rfl) alone
  | short alone => exact readEval_apart o rest (by cases option <;> rfl) alone
  | longJoined =>
    refine readEval_given o rest ?_
    have spelt : (option.long ++ "=" ++ value).toList =
        '-' :: '-' :: (option.word.toList ++ '=' :: value.toList) := by
      cases option <;> simp [EvalOption.long, EvalOption.word]
    rw [ofString_long spelt (by cases option <;> decide), String.ofList_toList,
      String.ofList_toList]
    cases option <;> rfl
  | shortJoined =>
    refine readEval_given o rest ?_
    have spelt : (option.short ++ "=" ++ value).toList =
        '-' :: option.letter :: '=' :: value.toList := by
      cases option <;> simp [EvalOption.short, EvalOption.letter]
    rw [ofString_short spelt (by cases option <;> decide), option.ofArgument?_letter,
      attachedValue?_joined, String.ofList_toList]
  | attached nonempty plain =>
    refine readEval_given o rest ?_
    have spelt : (option.short ++ value).toList = '-' :: option.letter :: value.toList := by
      cases option <;> simp [EvalOption.short, EvalOption.letter]
    have filled : value.toList ≠ [] := by simpa using nonempty
    rw [ofString_short spelt (by cases option <;> decide), option.ofArgument?_letter,
      attachedValue?_plain filled plain, String.ofList_toList]

/-- What the arguments ask for is what is read. -/
theorem readEval_asks {arguments : List String} {o : EvalOptions} (asks : Asks arguments o)
    (rest : List String) : readEval {} (arguments ++ rest) = readEval o rest := by
  induction asks generalizing rest with
  | nothing => rfl
  | input _ fresh named nonempty ih =>
    rw [List.append_assoc, ih, readEval_spelled named]
    simp [EvalOptions.set, nonempty, fresh, Except.bind, bind]
  | debug _ fresh traced valid ih =>
    rw [List.append_assoc, ih, readEval_spelled traced]
    simp [EvalOptions.set, valid, fresh, Except.bind, bind]

theorem read_asks {arguments : List String} {o : EvalOptions} (asks : Asks arguments o) :
    read ("eval" :: arguments) = .ok (.eval o.input (o.flags.getD .none)) := by
  have read := readEval_asks asks []
  rw [List.append_nil] at read
  exact read

theorem decode_toUTF8 (source : String) : decode (.ok source.toUTF8) = .ok source := by
  have valid : source.toUTF8.IsValidUTF8 := source.isValidUTF8
  simp only [decode, String.fromUTF8?]
  rw [dif_pos valid]
  rfl

/-- A source that is supplied is evaluated. -/
theorem Supplies.responds {file : String → Except ReadFailure ByteArray} {stdin : ByteArray}
    {source : String} {arguments : List String} (supplies : Supplies file stdin source arguments) :
    ∃ flags, respond file stdin arguments = runReport (eval source {} flags) := by
  cases supplies with
  | @standardInput _ o asks unnamed content =>
    refine ⟨o.flags.getD .none, ?_⟩
    simp only [respond, read_asks asks, unnamed, Invocation.report, evalReport, content,
      decode_toUTF8]
  | @file _ o _ asks named content =>
    refine ⟨o.flags.getD .none, ?_⟩
    simp only [respond, read_asks asks, named, Invocation.report, evalReport, content,
      decode_toUTF8]

end Arguments

section Reports

/-- The text is these lines, and no others. -/
structure Prints (text : String) (ls : List String) : Prop where
  whole : text = lines ls
  single : ∀ l ∈ ls, OneLine l

/-- What a source without a number that is too large is answered: a line for the result of each line
that is not blank and then a line for each variable, and on the other stream a line for each result
that is missing. -/
structure Answers (source : String) (report : Report) (results : List (Option Int))
    (messages : List String) (symbols : Symbols) : Prop where
  transcript : Transcript [] 1 {} (sourceLines source.toList) results messages symbols
  bindings : Bindings (assignments source) symbols.entries
  counted : results.length = (sourceLines source.toList).countP (tokens · ≠ [])
  paired : messages.length = results.count none
  code : report.code = 0
  stdout : Prints report.stdout
    (results.map resultLine ++ symbols.entries.map bindingLine)
  stderr : Prints report.stderr messages

/-- What is promised of the answer to a source. -/
structure Contract (source : String) (report : Report) : Prop where
  fitting : (∀ t ∈ tokens source.toList, t.Fits) →
    ∃ results messages symbols, Answers source report results messages symbols
  oversized : (¬ ∀ t ∈ tokens source.toList, t.Fits) → report.code = 1 ∧ report.stdout = ""
  unfailed : ∃ ls, Prints report.stderr ls ∧
    ∀ l ∈ ls, ¬ "Error: parse failed".toList <+: l.toList

theorem oneLine_resultLine (result : Option Int) : OneLine (resultLine result) := by
  cases result with
  | none => decide
  | some n => exact oneLine_int n

theorem oneLine_bindingLine {binding : String × Int} (name : OneLine binding.1) :
    OneLine (bindingLine binding) := by
  simp only [bindingLine, oneLine_append]
  exact ⟨⟨name, by decide⟩, oneLine_int _⟩

/-- The answer of an evaluation that accepts. -/
theorem runReport_accept {run : CalculatorRun} (accepted : run.result = .ok (.accept none)) :
    runReport (some run) = sessionReport run.final.context := by
  simp only [runReport, accepted]

theorem sessionReport_answers {source : String} {results : List (Option Int)}
    {messages : List String} {after : Session}
    (transcript : Transcript [] 1 {} (sourceLines source.toList) results messages after.symbols)
    (bindings : Bindings (assignments source) after.symbols.entries)
    (results' : after.results = results.toArray) (errors : after.errors = messages.toArray)
    (fits : after.Fits) :
    Answers source (sessionReport after) results messages after.symbols where
  transcript := transcript
  bindings := bindings
  counted := transcript.results_length
  paired := transcript.messages_length
  code := rfl
  stdout := by
    refine ⟨by simp [sessionReport, results'], fun l member => ?_⟩
    rcases List.mem_append.mp member with result | binding
    · obtain ⟨_, _, rfl⟩ := List.mem_map.mp result
      exact oneLine_resultLine _
    · obtain ⟨_, held, rfl⟩ := List.mem_map.mp binding
      exact oneLine_bindingLine (fits.names _ (List.mem_map_of_mem held))
  stderr := by
    refine ⟨by simp [sessionReport, errors], fun l member => fits.errors l ?_⟩
    rwa [errors, List.mem_toArray]

/-- The answer to a source with a number that is too large. -/
def oversizedLines : List String :=
  ["Error: lexer error: unable to parse ParseIntError \x7b kind: PosOverflow \x7d", "",
    "Caused by:", "    0: unable to parse ParseIntError \x7b kind: PosOverflow \x7d",
    "    1: number too large to fit in target type"]

theorem runReport_oversized {run : CalculatorRun}
    (broken : run.result = .error (.lexer .numberTooLarge)) :
    runReport (some run) = { code := 1, stderr := lines oversizedLines } := by
  simp only [runReport, broken]
  rfl

theorem eval_answered (source : String) : ∃ report, Contract source report ∧
    ∀ flags, runReport (eval source {} flags) = report := by
  by_cases fit : ∀ t ∈ tokens source.toList, t.Fits
  · obtain ⟨after, results, messages, transcript, bindings, results', errors, evaluates⟩ :=
      eval_transcript fit
    have fits : after.Fits := by
      obtain ⟨r, evaluated, _, rfl⟩ := evaluates .none
      exact eval_fits evaluated
    have answers := sessionReport_answers transcript bindings results' errors fits
    refine ⟨sessionReport after, ⟨fun _ => ⟨_, _, _, answers⟩, fun large => absurd fit large,
      messages, answers.stderr, fun l member => ?_⟩, fun flags => ?_⟩
    · obtain ⟨number, message, rfl⟩ := transcript.numbered l member
      rintro ⟨rest, same⟩
      have first := congrArg List.head? same
      simp at first
    · obtain ⟨r, evaluated, accepted, rfl⟩ := evaluates flags
      rw [evaluated, runReport_accept accepted]
  · refine ⟨{ code := 1, stderr := lines oversizedLines }, ⟨fun all => absurd all fit,
      fun _ => ⟨rfl, rfl⟩, oversizedLines, ⟨rfl, by decide⟩, by decide⟩, fun flags => ?_⟩
    obtain ⟨r, evaluated, result, _⟩ := exists_eval source {} flags
    rw [if_neg fit] at result
    rw [evaluated, runReport_oversized result]

end Reports

/-- Every source has one answer, which does not depend on how the source is supplied nor on what is
to be traced. -/
theorem respond_contract (source : String) : ∃ report, Contract source report ∧
    ∀ file stdin arguments, Supplies file stdin source arguments →
      respond file stdin arguments = report := by
  obtain ⟨report, contract, answered⟩ := eval_answered source
  refine ⟨report, contract, fun file stdin arguments supplies => ?_⟩
  obtain ⟨flags, responds⟩ := supplies.responds
  rw [responds, answered flags]

/-- A traced file is answered as the standard input is: a missing result, a value and a variable. -/
theorem respond_file_stdin :
    let source := "1 / 0\nx = 2"
    let file := fun path => if path = "sums" then .ok source.toUTF8 else .error .notFound
    ∃ report, Contract source report ∧
      respond file "".toUTF8 ["eval", "-dall", "--input=sums"] = report ∧
      respond file source.toUTF8 ["eval", "--debug", "0x1f"] = report ∧
      report.code = 0 ∧ report.stdout = "error\n2\nx = 2\n" := by
  intro source file
  obtain ⟨report, contract, answered⟩ := respond_contract source
  have all : Spelled .debug "all" ["-dall"] := .attached (by decide) (by decide)
  have path : Spelled .input "sums" ["--input=sums"] := .longJoined
  have mask : Spelled .debug "0x1f" ["--debug", "0x1f"] := .long (.inr (by decide))
  have named := answered file "".toUTF8 ["eval", "-dall", "--input=sums"]
    (.file (.input (.debug .nothing rfl all rfl) rfl path (by decide)) rfl rfl)
  have given := answered file source.toUTF8 ["eval", "--debug", "0x1f"]
    (.standardInput (.debug .nothing rfl mask rfl) rfl rfl)
  refine ⟨report, contract, named, given, ?_⟩
  subst given
  decide +kernel

end ShiftReduce.Calculator.CommandLine
