import ShiftReduce.Parser.Driver
import ShiftReduce.Parser.Lexeme
import ShiftReduce.Trace.Event

namespace ShiftReduce

variable {V ε γ σ : Type}

inductive Failure where
  | stackExhausted
  | endOfInput
  deriving DecidableEq, Repr

def Failure.name : Failure → String
  | .stackExhausted => "StackExhausted"
  | .endOfInput => "EndOfInput"

inductive Outcome (V : Type) where
  | accept (value : Option V)
  | abort
  | fail (reason : Failure)
  deriving DecidableEq, Repr

inductive Fault (ε : Type) where
  | defect (defect : Defect)
  /-- The state uncovered by a reduction has no goto for the rule. -/
  | missingGoto (state : Nat) (lhs : String)
  | stackUnderflow (rule needed available : Nat)
  | lexer (error : ε)
  | action (rule : Nat) (error : ε)
  /-- A sum of machine words is no machine word. The program breaks off there and returns nothing. -/
  | overflow
  deriving DecidableEq, Repr

/-- The text of a fault, given the texts of the errors that callbacks raise. -/
def Fault.message (describe : ε → String) : Fault ε → String
  | .defect d => d.message
  | .missingGoto state lhs => s!"state {state} has no goto for " ++ Text.quote lhs
  | .stackUnderflow rule needed available =>
    s!"rule {rule} needs {needed} stack entries, only {available} available"
  | .lexer e => "lexer error: " ++ describe e
  | .action rule e => s!"action for rule {rule} failed: " ++ describe e
  | .overflow => "attempt to add with overflow"

/-- The fault of a stack that is too low. It tells the height needed, which has to be a word. -/
def Fault.tooLow (rule : Nat) (needed? : Option Nat) (available : Nat) : Fault ε :=
  match needed? with
  | some needed => .stackUnderflow rule needed available
  | none => .overflow

abbrev Result (V ε : Type) := Except (Fault ε) (Outcome V)

structure Stats where
  tokens : Nat := 0
  shifts : Nat := 0
  reductions : Nat := 0
  /-- Syntax errors that entered recovery. -/
  errors : Nat := 0
  discarded : Nat := 0
  popped : Nat := 0
  deriving DecidableEq, Repr

structure Config (V γ σ : Type) where
  /-- The top first. -/
  stack : List (Entry V) := [⟨0, none⟩]
  status : Status V := {}
  stats : Stats := {}
  /-- Recovery was entered and its end has not been told. -/
  bracketOpen : Bool := false
  context : γ
  source : σ
  /-- The latest first. -/
  records : List Trace.Record := []

namespace Config

def start (source : σ) (context : γ) : Config V γ σ := { context, source }

def states (c : Config V γ σ) : List Nat := c.stack.reverse.map Entry.state

def emit (c : Config V γ σ) (flags : Trace.Flags) (event : Trace.Event) : Config V γ σ :=
  if flags.shows event.category then { c with records := .event event :: c.records } else c

/-- Records the stack, which is listed only if its category is shown. -/
def emitStack (c : Config V γ σ) (flags : Trace.Flags) : Config V γ σ :=
  if flags.shows .stack then c.emit flags (.stack c.states) else c

theorem emitStack_eq (c : Config V γ σ) (flags : Trace.Flags) :
    c.emitStack flags = c.emit flags (.stack c.states) := by
  unfold emitStack
  split
  · rfl
  · next hidden => simp [emit, Trace.Event.category, hidden]

section
variable (c : Config V γ σ) (flags : Trace.Flags) (event : Trace.Event)

@[simp] theorem emit_stack : (c.emit flags event).stack = c.stack := by
  unfold emit; split <;> rfl

@[simp] theorem emit_status : (c.emit flags event).status = c.status := by
  unfold emit; split <;> rfl

@[simp] theorem emit_stats : (c.emit flags event).stats = c.stats := by
  unfold emit; split <;> rfl

@[simp] theorem emit_bracketOpen : (c.emit flags event).bracketOpen = c.bracketOpen := by
  unfold emit; split <;> rfl

@[simp] theorem emit_context : (c.emit flags event).context = c.context := by
  unfold emit; split <;> rfl

@[simp] theorem emit_source : (c.emit flags event).source = c.source := by
  unfold emit; split <;> rfl

end

def push (c : Config V γ σ) (state : Nat) (value : Option V) : Config V γ σ :=
  { c with stack := ⟨state, value⟩ :: c.stack }

def setErrorStatus (c : Config V γ σ) (n : Nat) : Config V γ σ :=
  { c with status := { c.status with errorStatus := n } }

def setControl (c : Config V γ σ) (control : Control) : Config V γ σ :=
  { c with status := { c.status with control } }

/-- Takes over what a callback left behind. -/
def absorb {α : Type} (c : Config V γ σ) (reply : Reply V γ α) : Config V γ σ :=
  { c with
    context := reply.context
    status := c.status.applyAll reply.requests
    records := (reply.warnings.map Trace.Record.warning).reverse ++ c.records }

def view (c : Config V γ σ) (tables : Tables) (rule : Option Nat) : View V :=
  ⟨c.status, c.stack, tables, rule⟩

/-- The last `count` values on the stack, the leftmost first. -/
def lastValues (c : Config V γ σ) (count : Nat) : List (Option V) :=
  ((c.stack.take count).map Entry.value).reverse

def traceLines (c : Config V γ σ) : List String :=
  c.records.reverse.filterMap Trace.Record.line?

def logLines (c : Config V γ σ) : List String := c.records.reverse.map Trace.Record.logLine

end Config

inductive Step (V ε γ σ : Type) where
  | next (config : Config V γ σ)
  | stop (result : Result V ε) (config : Config V γ σ)

namespace Step

def andThen (s : Step V ε γ σ) (f : Config V γ σ → Step V ε γ σ) : Step V ε γ σ :=
  match s with
  | .next c => f c
  | .stop result c => .stop result c

def config : Step V ε γ σ → Config V γ σ
  | .next c => c
  | .stop _ c => c

@[simp] theorem andThen_next (c : Config V γ σ) (f : Config V γ σ → Step V ε γ σ) :
    (next c : Step V ε γ σ).andThen f = f c := rfl

@[simp] theorem andThen_stop (r : Result V ε) (c : Config V γ σ)
    (f : Config V γ σ → Step V ε γ σ) : (stop r c).andThen f = stop r c := rfl

end Step

end ShiftReduce
