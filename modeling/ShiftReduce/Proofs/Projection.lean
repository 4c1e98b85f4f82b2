import ShiftReduce.Proofs.Likeness

/-! The context of a driver, the source of a lexer and the record of a run may hold more than the
run depends on. If the answers of lexers and drivers survive that some of it is left out, a
projected run is the run of the projected start. -/

namespace ShiftReduce

variable {V ε γ κ σ τ : Type}

/-- The second lexer gives the same answers from the projected sources. -/
def Lexer.Projects (lexer : Lexer V ε σ) (lexer' : Lexer V ε τ) (source : σ → τ) : Prop :=
  ∀ status s, lexer' status (source s) = ((lexer status s).1, source (lexer status s).2)

theorem Lexer.Projects.refl (lexer : Lexer V ε σ) : lexer.Projects lexer id := fun _ _ => rfl

def Reply.project {α : Type} (context : γ → κ) (r : Reply V γ α) : Reply V κ α :=
  { result := r.result, context := context r.context, requests := r.requests, warnings := r.warnings }

/-- The second driver gives the same replies in the projected contexts. -/
structure Driver.Projects (driver : Driver V ε γ) (driver' : Driver V ε κ) (context : γ → κ) :
    Prop where
  hasAction : ∀ rule, driver'.hasAction rule = driver.hasAction rule
  reduce : ∀ rule values view g, driver'.reduce rule values view (context g) =
    (driver.reduce rule values view g).project context
  onError : ∀ view g, driver'.onError view (context g) = (driver.onError view g).project context

/-- What the second parser does to the projected contexts and records is what the first one does
to the full ones. -/
structure Parser.Projects (p : Parser V ε γ) (q : Parser V ε κ) (context : γ → κ)
    (records : List Trace.Record → List Trace.Record) : Prop where
  tables : q.tables = p.tables
  driver : p.driver.Projects q.driver context
  emits : ∀ event r, records (p.flags.record event r) = q.flags.record event (records r)
  warns : ∀ (texts : List String) r, records ((texts.map Trace.Record.warning).reverse ++ r) =
    (texts.map Trace.Record.warning).reverse ++ records r

section

variable (context : γ → κ) (source : σ → τ) (records : List Trace.Record → List Trace.Record)

def Config.project (c : Config V γ σ) : Config V κ τ :=
  { stack := c.stack, status := c.status, stats := c.stats, bracketOpen := c.bracketOpen,
    context := context c.context, source := source c.source, records := records c.records }

def Run.project (r : Run V ε γ σ) : Run V ε κ τ :=
  ⟨r.result, r.final.project context source records⟩

def Likeness.projection : Likeness V V ε ε γ κ σ τ where
  value := id
  error := Eq
  context g k := k = context g
  source s t := t = source s
  warnings := Eq
  records r r' := r' = records r

end

namespace Likeness

variable {context : γ → κ} {source : σ → τ} {records : List Trace.Record → List Trace.Record}

@[simp] theorem projection_value :
    (projection (V := V) (ε := ε) context source records).value = id := rfl

theorem projection_configs {c : Config V γ σ} {d : Config V κ τ} :
    (projection (ε := ε) context source records).Configs c d ↔
      d = c.project context source records := by
  constructor
  · rintro ⟨stack, status, stats, bracketOpen, sameContext, sameSource, sameRecords⟩
    simp only [projection_value, Entry.map_id, List.map_id, Status.map_id] at stack status
    cases d
    simp only [Config.project, Config.mk.injEq]
    exact ⟨stack, status, stats, bracketOpen, sameContext, sameSource, sameRecords⟩
  · rintro rfl
    exact ⟨by simp [Config.project], by simp [Config.project], rfl, rfl, rfl, rfl, rfl⟩

theorem projection_results {r r' : Result V ε}
    (results : (projection context source records).Results r r') : r' = r := by
  cases results with
  | ok outcome => simp
  | error faults =>
    cases faults with
    | defect | missingGoto | stackUnderflow | overflow => rfl
    | lexer errors => exact congrArg (Except.error ∘ Fault.lexer) (Eq.symm errors)
    | action rule errors => exact congrArg (Except.error ∘ Fault.action rule) (Eq.symm errors)

end Likeness

section

variable {p : Parser V ε γ} {q : Parser V ε κ} {lexer : Lexer V ε σ} {lexer' : Lexer V ε τ}
  {context : γ → κ} {source : σ → τ} {records : List Trace.Record → List Trace.Record}

theorem Lexer.Projects.alike (projects : lexer.Projects lexer' source) :
    (Likeness.projection (γ := γ) context source records).Lexers lexer lexer' := by
  rintro status s _ rfl
  rw [Likeness.projection_value, Status.map_id, projects status s]
  generalize lexer status s = given
  obtain ⟨answer, rest⟩ := given
  cases answer with
  | error e => exact .error rfl rfl
  | ok lexeme =>
    simpa using Likeness.Answers.ok (L := Likeness.projection context source records) lexeme rfl

theorem Driver.Projects.alike {driver : Driver V ε γ} {driver' : Driver V ε κ}
    (projects : driver.Projects driver' context) :
    (Likeness.projection context source records).Drivers driver driver' where
  hasAction := projects.hasAction
  reduce rule values view g _ _ same := by
    subst same
    simp only [Likeness.projection_value, Option.map_id_fun, List.map_id, View.map_id,
      projects.reduce]
    refine ⟨?_, rfl, by simp [Reply.project], rfl⟩
    change Likeness.Values _ _ (driver.reduce rule values view g).result
    cases (driver.reduce rule values view g).result with
    | error e => exact .error rfl
    | ok value => simpa using Likeness.Values.ok (L := Likeness.projection context source records) value
  onError view g _ same := by
    subst same
    simp only [Likeness.projection_value, View.map_id, projects.onError]
    exact ⟨rfl, rfl, by simp [Reply.project], rfl⟩

namespace Parser.Projects

variable (projects : p.Projects q context records)
include projects

theorem alike : (Likeness.projection context source records).Parsers p q where
  tables := projects.tables
  drivers := projects.driver.alike
  emits event r _ same := by
    subst same
    exact (projects.emits event r).symm
  warns sameTexts same := by
    subst sameTexts same
    exact (projects.warns _ _).symm

variable (lexers : lexer.Projects lexer' source)
include lexers

/-- A projected run is the run of the projected start. -/
theorem runFrom (steps : Nat) (c : Config V γ σ) :
    q.runFrom lexer' steps (c.project context source records) =
      (p.runFrom lexer steps c).map (Run.project context source records) := by
  have runs := projects.alike.runFrom lexers.alike steps
    (Likeness.projection_configs.mpr (rfl : c.project context source records = _))
  generalize p.runFrom lexer steps c = r at runs ⊢
  generalize q.runFrom lexer' steps (c.project context source records) = r' at runs ⊢
  cases runs with
  | none => rfl
  | @some r r' runs =>
    obtain ⟨result, final⟩ := r'
    have same : result = r.result := Likeness.projection_results runs.result
    have projected : final = r.final.project .. := Likeness.projection_configs.mp runs.final
    rw [same, projected]
    rfl

theorem reaches_iff {c : Config V γ σ} {d : Config V κ τ} :
    q.Reaches lexer' (c.project context source records) d ↔
      ∃ b, p.Reaches lexer c b ∧ d = b.project context source records := by
  have start := Likeness.projection_configs (ε := ε).mpr
    (rfl : c.project context source records = _)
  constructor
  · intro reached
    obtain ⟨b, reached, alike⟩ := projects.alike.reached lexers.alike start reached
    exact ⟨b, reached, Likeness.projection_configs.mp alike⟩
  · rintro ⟨b, reached, rfl⟩
    obtain ⟨d, reached, alike⟩ := projects.alike.reaches lexers.alike start reached
    rwa [Likeness.projection_configs.mp alike] at reached

end Parser.Projects

end

end ShiftReduce
