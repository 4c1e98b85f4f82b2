import ShiftReduce.Calculator.Eval
import ShiftReduce.Proofs.Recording

namespace ShiftReduce

variable {V ε γ σ : Type}

namespace Trace

namespace Flags

/-- Every category of `f` is one of `g`. -/
def Within (f g : Flags) : Prop := ∀ category, f.shows category → g.shows category

/-- On five bits, this is checked case by case. -/
theorem within_iff (f g : Flags) : f.Within g ↔ f ||| g = g := by
  have listed : f.Within g ↔ ∀ category ∈ Category.all, f.shows category → g.shows category :=
    ⟨fun within category _ => within category,
      fun within category => within category (by cases category <;> decide)⟩
  rw [listed]
  clear listed
  obtain ⟨f⟩ := f
  obtain ⟨g⟩ := g
  revert f g
  decide +kernel

/-- Whether an entry of a record is there under these flags. -/
def keeps (flags : Flags) : Record → Bool
  | .event e => flags.shows e.category
  | .warning _ => true

theorem Within.filter_record {f g : Flags} (within : f.Within g) (event : Event)
    (records : List Record) :
    (g.record event records).filter f.keeps = f.record event (records.filter f.keeps) := by
  unfold record
  cases shown : f.shows event.category with
  | true => simp [within _ shown, keeps, shown]
  | false => split <;> simp [keeps, shown]

theorem filter_warnings (flags : Flags) (texts : List String) (records : List Record) :
    ((texts.map Record.warning).reverse ++ records).filter flags.keeps =
      (texts.map Record.warning).reverse ++ records.filter flags.keeps := by
  rw [List.filter_append, List.filter_eq_self.mpr]
  simp [keeps]

end Flags

/-- What the sink of a trace is given: an event as its category and its line. -/
def Record.sent? : Record → Option (Category × String)
  | .event e => some (e.category, e.text)
  | .warning _ => none

end Trace

open Trace

namespace Config

/-- What the sink was given, in order. -/
def sent (c : Config V γ σ) : List (Category × String) := c.records.reverse.filterMap Record.sent?

theorem traceLines_eq (c : Config V γ σ) : c.traceLines = c.sent.map Prod.snd := by
  rw [traceLines, sent, List.map_filterMap]
  congr 1
  funext record
  cases record <;> rfl

/-- The configuration with the record that fewer flags leave. -/
def restrict (flags : Flags) (c : Config V γ σ) : Config V γ σ :=
  c.project id id (List.filter flags.keeps)

theorem sent_restrict (flags : Flags) (c : Config V γ σ) :
    (c.restrict flags).sent = c.sent.filter fun line => flags.shows line.1 := by
  have step (record : Record) : (if flags.keeps record then record.sent? else none) =
      record.sent?.filter fun line => flags.shows line.1 := by
    cases record with
    | event e =>
      cases shown : flags.shows e.category <;>
        simp [Flags.keeps, Record.sent?, Option.filter_some, shown]
    | warning => rfl
  simp only [sent, restrict, project, ← List.filter_reverse, List.filterMap_filter, step,
    List.filter_filterMap]

end Config

def Run.restrict (flags : Flags) (r : Run V ε γ σ) : Run V ε γ σ :=
  ⟨r.result, r.final.restrict flags⟩

namespace Parser

theorem Projects.of_within {f g : Flags} (within : f.Within g) (tables : Tables)
    (driver : Driver V ε γ) :
    Projects ⟨tables, driver, g⟩ ⟨tables, driver, f⟩ id (List.filter f.keeps) :=
  ⟨rfl, .refl driver, within.filter_record, f.filter_warnings⟩

/-- Tracing only observes. With fewer flags a run ends after the same number of steps, with the
same result and in the same configuration but for its record: the sink was given those of the lines
given with more flags whose category is shown. This is so, too, if the lexer and the driver keep
every call, which makes no difference to a run: with both sets of flags they have been called in
the same order and shown the same, at the end and whenever the run comes to the top of its loop. -/
theorem tracing_only_observes {f g : Flags} (within : f.Within g) (tables : Tables)
    (driver : Driver V ε γ) (lexer : Lexer V ε σ) (source : σ) (context : γ) :
    (∀ steps,
      run ⟨tables, driver, f⟩ lexer steps source context =
        (run ⟨tables, driver, g⟩ lexer steps source context).map (Run.restrict f) ∧
      (run ⟨tables, driver, f⟩ lexer steps source context).map (fun r => r.final.sent) =
        (run ⟨tables, driver, g⟩ lexer steps source context).map fun r =>
          r.final.sent.filter fun line => f.shows line.1) ∧
    (∀ steps, run ⟨tables, driver.recording, f⟩ lexer.recording steps (source, []) (context, []) =
      (run ⟨tables, driver.recording, g⟩ lexer.recording steps (source, []) (context, [])).map
        (Run.restrict f)) ∧
    (∀ c, Reaches ⟨tables, driver.recording, f⟩ lexer.recording
        (.start (source, []) (context, [])) c ↔
      ∃ d, Reaches ⟨tables, driver.recording, g⟩ lexer.recording
          (.start (source, []) (context, [])) d ∧
        c = d.restrict f ∧ c.sent = d.sent.filter fun line => f.shows line.1) ∧
    ∀ flags steps, run ⟨tables, driver, flags⟩ lexer steps source context =
      (run ⟨tables, driver.recording, flags⟩ lexer.recording steps (source, []) (context, [])).map
        (Run.project Prod.fst Prod.fst id) := by
  have restricted (steps : Nat) : run ⟨tables, driver, f⟩ lexer steps source context =
      (run ⟨tables, driver, g⟩ lexer steps source context).map (Run.restrict f) :=
    (Projects.of_within within tables driver).runFrom (.refl lexer) steps (.start source context)
  have observed := Projects.of_within within tables driver.recording
  refine ⟨fun steps => ⟨restricted steps, ?_⟩, fun steps => ?_, fun c => ?_, fun flags steps => ?_⟩
  · rw [restricted, Option.map_map]
    congr 1
    funext r
    exact r.final.sent_restrict f
  · exact observed.runFrom (.refl _) steps (.start (source, []) (context, []))
  · refine (observed.reaches_iff (.refl _) (c := .start (source, []) (context, []))).trans ?_
    refine exists_congr fun d => and_congr_right fun _ => ⟨fun same => ⟨same, ?_⟩, And.left⟩
    rw [same]
    exact d.sent_restrict f
  · exact (Projects.of_driver driver.recording_projects flags).runFrom lexer.recording_projects
      steps (.start (source, []) (context, []))

/-- What a calculator tells of its recovery from a division by zero is a part of its full trace. -/
theorem recovery_lines :
    (Flags.only .recovery).Within .all ∧
    Calculator.eval "1/0\n" {} (.only .recovery) =
      (Calculator.eval "1/0\n" {} .all).map (Run.restrict (.only .recovery)) := by
  have within : (Flags.only .recovery).Within .all := (Flags.within_iff _ _).mpr rfl
  obtain ⟨runs, -⟩ := tracing_only_observes within Calculator.tables Calculator.driver
    Calculator.lexer (.ofSource "1/0\n") {}
  exact ⟨within, (runs (Calculator.stepBound "1/0\n")).1⟩

end Parser

end ShiftReduce
