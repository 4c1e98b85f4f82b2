import ShiftReduce.Proofs.Tracing

/-! The first words of a line tell which event it was written for. Each counter of a run has lines
of its own, which are told by these words, and among the actions by the lack of them. -/

namespace ShiftReduce

inductive Counter where
  | tokens
  | shifts
  | reductions
  | errors
  | discarded
  | popped
  deriving DecidableEq, Repr

namespace Counter

def of : Counter → Stats → Nat
  | .tokens, s => s.tokens
  | .shifts, s => s.shifts
  | .reductions, s => s.reductions
  | .errors, s => s.errors
  | .discarded, s => s.discarded
  | .popped, s => s.popped

/-- The counters with this one gone up. -/
def raise : Counter → Stats → Stats
  | .tokens, s => { s with tokens := s.tokens + 1 }
  | .shifts, s => { s with shifts := s.shifts + 1 }
  | .reductions, s => { s with reductions := s.reductions + 1 }
  | .errors, s => { s with errors := s.errors + 1 }
  | .discarded, s => { s with discarded := s.discarded + 1 }
  | .popped, s => { s with popped := s.popped + 1 }

theorem of_raise (k raised : Counter) (s : Stats) :
    k.of (raised.raise s) = k.of s + if raised = k then 1 else 0 := by
  cases k <;> cases raised <;> rfl

end Counter

namespace Trace

/-- The line begins with the mark. -/
def Starts (mark line : String) : Prop := mark.toList <+: line.toList

instance (mark line : String) : Decidable (Starts mark line) :=
  inferInstanceAs (Decidable (mark.toList <+: line.toList))

theorem Starts.refl (line : String) : Starts line line := List.prefix_rfl

theorem Starts.trans {mark opening line : String} (first : Starts mark opening)
    (second : Starts opening line) : Starts mark line :=
  List.IsPrefix.trans first second

theorem Starts.append {mark line : String} (marked : Starts mark line) (rest : String) :
    Starts mark (line ++ rest) := by
  unfold Starts
  rw [String.toList_append]
  exact List.prefix_append_of_prefix marked

/-- A mark and an opening of the same line agree as far as the shorter one goes. -/
theorem Starts.comparable {mark opening line : String} (marked : Starts mark line)
    (opened : Starts opening line) : Starts mark opening ∨ Starts opening mark :=
  List.prefix_or_prefix_of_prefix marked opened

/-- The lines, given with their categories, that stand for a counter. -/
def Counts : Counter → Category × String → Prop
  | .tokens, (_, line) => Starts "Need token." line
  | .shifts, (_, line) => Starts "Shift and go to state" line
  | .reductions, (category, line) => category = .action ∧ ¬ Starts "Shift and go to state" line
  | .errors, (_, line) => Starts "**Entering error recovery." line
  | .discarded, (_, line) => Starts "**Discard invalid token" line
  | .popped, (_, line) => Starts "**Pop state" line

instance : (k : Counter) → (line : Category × String) → Decidable (Counts k line)
  | .tokens, (_, line) => inferInstanceAs (Decidable (Starts _ line))
  | .shifts, (_, line) => inferInstanceAs (Decidable (Starts _ line))
  | .reductions, (category, line) =>
    inferInstanceAs (Decidable (category = .action ∧ ¬ Starts _ line))
  | .errors, (_, line) => inferInstanceAs (Decidable (Starts _ line))
  | .discarded, (_, line) => inferInstanceAs (Decidable (Starts _ line))
  | .popped, (_, line) => inferInstanceAs (Decidable (Starts _ line))

/-- The lines between which a run recovers from an error. -/
inductive Bracket where
  | entering
  | ending
  deriving DecidableEq, Repr

def Bracket.line : Bracket → String
  | .entering => "**Entering error recovery."
  | .ending => "**End of error recovery."

namespace Aftermath

def opening : Aftermath → String
  | .accept => "Accept."
  | .abort => "Abort."
  | .recover _ | .goto .. => "back to state "

theorem starts_opening (next : Aftermath) : Starts next.opening next.text := by
  cases next with
  | accept | abort => exact Starts.refl _
  | recover => exact ((Starts.refl _).append _).append _
  | goto => exact ((((Starts.refl _).append _).append _).append _).append _

end Aftermath

namespace Event

/-- The counter that goes up with the event. -/
def counter? : Event → Option Counter
  | .fetched _ => some .tokens
  | .shift _ => some .shifts
  | .reduced .. => some .reductions
  | .recoveryEntered => some .errors
  | .discarded _ => some .discarded
  | .popped _ => some .popped
  | .state _ | .stack _ | .noTokenNeeded | .inputExhausted | .stackExhausted | .errorShift _
  | .recoveryEnded => none

def bracket? : Event → Option Bracket
  | .recoveryEntered => some .entering
  | .recoveryEnded => some .ending
  | .state _ | .stack _ | .fetched _ | .noTokenNeeded | .shift _ | .reduced .. | .discarded _
  | .inputExhausted | .popped _ | .stackExhausted | .errorShift _ => none

/-- The part of the line that is the same for all events of a kind. -/
def opening : Event → String
  | .state _ => "In state "
  | .stack _ => "Stack:["
  | .fetched _ => "Need token. Got >"
  | .noTokenNeeded => "Don't need token."
  | .shift _ => "Shift and go to state "
  | .reduced rule _ _ next => if rule = 0 then next.opening else "Reduce using rule "
  | .recoveryEntered => "**Entering error recovery."
  | .discarded _ => "**Discard invalid token >"
  | .inputExhausted => "**At EOF: aborting."
  | .popped _ => "**Pop state "
  | .stackExhausted => "**No state left on stack: aborting."
  | .errorShift _ => "**Shift $error token and go to state "
  | .recoveryEnded => "**End of error recovery."

/-- What all events of a kind have in common. -/
structure Kind where
  category : Category
  opening : String
  counter : Option Counter := none
  bracket : Option Bracket := none

def kind (e : Event) : Kind := ⟨e.category, e.opening, e.counter?, e.bracket?⟩

/-- A reduction by the rule of the start is told by what it leads to, any other one by its rule. -/
def kinds : List Kind :=
  [{ category := .state, opening := "In state " },
    { category := .stack, opening := "Stack:[" },
    { category := .token, opening := "Need token. Got >", counter := some .tokens },
    { category := .token, opening := "Don't need token." },
    { category := .action, opening := "Shift and go to state ", counter := some .shifts },
    { category := .action, opening := "Accept.", counter := some .reductions },
    { category := .action, opening := "Abort.", counter := some .reductions },
    { category := .action, opening := "back to state ", counter := some .reductions },
    { category := .action, opening := "Reduce using rule ", counter := some .reductions },
    { category := .recovery, opening := "**Entering error recovery.", counter := some .errors,
      bracket := some .entering },
    { category := .recovery, opening := "**Discard invalid token >", counter := some .discarded },
    { category := .recovery, opening := "**At EOF: aborting." },
    { category := .recovery, opening := "**Pop state ", counter := some .popped },
    { category := .recovery, opening := "**No state left on stack: aborting." },
    { category := .recovery, opening := "**Shift $error token and go to state " },
    { category := .recovery, opening := "**End of error recovery.", bracket := some .ending }]

/-- The words by which lines are told apart. -/
def marks : List String :=
  ["Need token.", "Shift and go to state", "**Entering error recovery.", "**Discard invalid token",
    "**Pop state", "**End of error recovery.", "In state "]

variable {e : Event} {mark : String}

theorem kind_mem (e : Event) : e.kind ∈ kinds := by
  unfold kind
  cases e with
  | reduced rule lhs length next =>
    by_cases first : rule = 0
    · rw [opening, if_pos first]
      cases next <;> simp [Aftermath.opening, category, counter?, bracket?, kinds]
    · rw [opening, if_neg first]
      simp [category, counter?, bracket?, kinds]
  | state | stack | fetched | noTokenNeeded | shift | recoveryEntered | discarded | inputExhausted
  | popped | stackExhausted | errorShift | recoveryEnded =>
    simp [opening, category, counter?, bracket?, kinds]

theorem starts_opening (e : Event) : Starts e.opening e.text := by
  cases e with
  | state | fetched | shift | discarded | popped | errorShift | stack =>
    apply Starts.append
    apply Starts.append
    exact Starts.refl _
  | reduced rule lhs length next =>
    change Starts (if rule = 0 then next.opening else "Reduce using rule ")
      ((if rule = 0 then "" else s!"Reduce using rule {rule} ({lhs},{length}): ") ++ next.text)
    split
    · rw [String.empty_append]
      exact next.starts_opening
    · iterate 7 apply Starts.append
      exact Starts.refl _
  | noTokenNeeded | recoveryEntered | inputExhausted | stackExhausted | recoveryEnded =>
    exact Starts.refl _

theorem marks_told : ∀ mark ∈ marks, ∀ kind ∈ kinds,
    Starts kind.opening mark → Starts mark kind.opening := by
  decide

/-- Whether a line has a mark shows in the part that is the same for all events of its kind. -/
theorem starts_iff (known : mark ∈ marks) : Starts mark e.text ↔ Starts mark e.opening := by
  constructor
  · intro marked
    rcases marked.comparable e.starts_opening with inside | beyond
    · exact inside
    · exact marks_told mark known _ e.kind_mem beyond
  · intro inside
    exact inside.trans e.starts_opening

theorem counts_kind (k : Counter) : ∀ kind ∈ kinds,
    Counts k (kind.category, kind.opening) ↔ kind.counter = some k := by
  cases k <;> decide

/-- The lines of a counter are those of the events with which it goes up. -/
theorem counts_iff (k : Counter) (e : Event) :
    Counts k (e.category, e.text) ↔ e.counter? = some k := by
  have shows : Counts k (e.category, e.text) ↔ Counts k (e.category, e.opening) := by
    cases k with
    | tokens | shifts | errors | discarded | popped => exact starts_iff (by decide)
    | reductions => exact and_congr_right fun _ => not_congr (starts_iff (by decide))
  exact shows.trans (counts_kind k _ e.kind_mem)

theorem line_kind (b : Bracket) : ∀ kind ∈ kinds,
    Starts b.line kind.opening → kind.bracket = some b := by
  cases b <;> decide

/-- A line that is one of the brackets is told by its event. -/
theorem text_eq_line_iff (b : Bracket) (e : Event) : e.text = b.line ↔ e.bracket? = some b := by
  constructor
  · intro same
    have marked : Starts b.line e.opening := by
      apply (starts_iff _).mp (same ▸ Starts.refl _)
      cases b <;> decide
    exact line_kind b _ e.kind_mem marked
  · intro told
    cases e with
    | recoveryEntered | recoveryEnded =>
      cases told
      rfl
    | state | stack | fetched | noTokenNeeded | shift | reduced | discarded | inputExhausted
    | popped | stackExhausted | errorShift => contradiction

theorem state_kind : ∀ kind ∈ kinds, Starts "In state " kind.opening → kind.category = .state := by
  decide

theorem state_of_text {n : Nat} (same : e.text = s!"In state {n}:") : e = .state n := by
  have marked : Starts "In state " e.text := by
    rw [same]
    exact ((Starts.refl _).append _).append _
  have kind : e.category = .state :=
    state_kind _ e.kind_mem ((starts_iff (by decide)).mp marked)
  cases e with
  | state m =>
    have same : "In state " ++ toString m ++ ":" = "In state " ++ toString n ++ ":" := same
    have digits : (toString m).toList = (toString n).toList := by
      simpa [String.ext_iff] using same
    have numbers : m = n := by
      simpa using congrArg (Nat.ofDigitChars 10 · 0) digits
    rw [numbers]
  | stack | fetched | noTokenNeeded | shift | reduced | recoveryEntered | discarded
  | inputExhausted | popped | stackExhausted | errorShift | recoveryEnded => contradiction

end Event

end Trace

end ShiftReduce
