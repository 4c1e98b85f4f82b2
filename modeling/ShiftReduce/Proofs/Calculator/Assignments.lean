import ShiftReduce.Calculator.Eval
import ShiftReduce.Proofs.OrderedMap
import ShiftReduce.Proofs.Recording
import ShiftReduce.Proofs.Upkeep

namespace ShiftReduce.Calculator

/-- These are the variables behind these assignments. -/
structure Bindings (made entries : List (String × Int)) : Prop where
  order : entries.map Prod.fst = (made.map Prod.fst).eraseDups
  once : (entries.map Prod.fst).Nodup
  latest : ∀ entry ∈ entries, Association.last? entry.1 made = some entry.2

section

variable {name : String} {value : Int} {made entries : List (String × Int)}

theorem Symbols.assignIn_names : (assignIn name value entries).map Prod.fst =
    if name ∈ entries.map Prod.fst then entries.map Prod.fst
    else entries.map Prod.fst ++ [name] := by
  induction entries with
  | nil => rfl
  | cons entry rest ih =>
    unfold assignIn
    split
    · next same => simp [same]
    · next different =>
      rw [List.map_cons, ih]
      by_cases inside : name ∈ rest.map Prod.fst
      · simp [inside]
      · simp [inside, Ne.symm different]

theorem Symbols.nodup_assignIn (once : (entries.map Prod.fst).Nodup) :
    ((assignIn name value entries).map Prod.fst).Nodup := by
  rw [assignIn_names]
  split
  · exact once
  · next fresh =>
    refine List.nodup_append.mpr ⟨once, by simp, fun other known last added => ?_⟩
    rintro rfl
    exact fresh (List.mem_singleton.mp added ▸ known)

theorem Bindings.nil : Bindings [] [] := ⟨rfl, by simp, by simp⟩

theorem Bindings.names (bindings : Bindings made entries) :
    name ∈ entries.map Prod.fst ↔ name ∈ made.map Prod.fst := by
  rw [bindings.order, List.mem_eraseDups]

theorem last?_concat (key : String) (pair : String × Int) (pairs : List (String × Int)) :
    Association.last? key (pairs ++ [pair]) =
      if pair.1 = key then some pair.2 else Association.last? key pairs := by
  rw [Association.last?, List.reverse_append]
  rfl

/-- A further assignment gives its variable the value, and adds the variable if it is new. -/
theorem Bindings.assign (bindings : Bindings made entries) (name : String) (value : Int) :
    Bindings (made ++ [(name, value)]) (Symbols.assignIn name value entries) := by
  have once : ((Symbols.assignIn name value entries).map Prod.fst).Nodup :=
    Symbols.nodup_assignIn bindings.once
  refine ⟨?_, once, fun entry member => ?_⟩
  · rw [Symbols.assignIn_names, List.map_append, List.eraseDups_append, ← bindings.order]
    by_cases known : name ∈ entries.map Prod.fst
    · have assigned := bindings.names.mp known
      rw [if_pos known]
      simp [List.removeAll, assigned]
    · have unassigned := mt bindings.names.mpr known
      rw [if_neg known]
      simp [List.removeAll, unassigned, List.eraseDups_cons]
  · have found := (Association.mem_iff_find? once).mp member
    rw [Symbols.find?_assignIn] at found
    rw [last?_concat]
    split at found
    · next same => rwa [if_pos same]
    · next different =>
      rw [if_neg different]
      exact bindings.latest entry (Association.mem_of_find? found)

end

/-- The assignment that a call is for: that of the action of an assignment, by its first value, the
name, and its third, the number. -/
def assigned? : Call Value → Option (String × Int)
  | .action rule values _ =>
    match Production.ofRule? rule, Production.valueAt values 0, Production.valueAt values 2 with
    | some .assignment, some (.ident name), some (.number n) => some (name, n)
    | _, _, _ => none
  | .hook _ => none

/-- What the evaluation of a source in a new session assigns, the earliest first. -/
def assignments (source : String) : List (String × Int) :=
  let recorder : Parser Value Error (Session × List (Call Value)) :=
    ⟨tables, driver.recording, .none⟩
  match recorder.run lexer (stepBound source) (.ofSource source) ({}, []) with
  | some r => r.final.context.2.reverse.filterMap assigned?
  | none => []

section

variable (s : Session)

theorem Session.compute_symbols (result : Except LineError Int) :
    (s.compute result).context.symbols = s.symbols := by
  cases result <;> rfl

theorem Production.binary_symbols (p : Production) (op : Int → Int → Except LineError Int)
    (values : List (Option Value)) : (p.binary op values s).context.symbols = s.symbols := by
  unfold binary
  split
  · rfl
  · rfl
  · exact s.compute_symbols _

/-- Only the action of an assignment assigns. -/
theorem Production.act_symbols {p : Production} (other : p ≠ .assignment)
    (values : List (Option Value)) : (p.act values s).context.symbols = s.symbols := by
  cases p with
  | start | noLine | nextLine | number | blankLine | spoiltLine | parenthesized => rfl
  | sum | difference | product | quotient => exact binary_symbols s _ _ _
  | assignment => exact absurd rfl other
  | resultLine =>
    simp only [act]
    split <;> rfl
  | «variable» =>
    simp only [act]
    split
    · rfl
    · split <;> rfl
  | negation =>
    simp only [act]
    split
    · rfl
    · exact s.compute_symbols _

/-- It assigns if it is given a name and a number. -/
theorem Production.act_assignment (values : List (Option Value)) :
    (Production.assignment.act values s).context.symbols =
      match valueAt values 0, valueAt values 2 with
      | some (.ident name), some (.number n) => s.symbols.assign name n
      | _, _ => s.symbols := by
  simp only [act, numberAt, identAt]
  rcases valueAt values 0 with _ | _ | _ <;> rcases valueAt values 2 with _ | _ | _ <;> rfl

end

/-- A session has the variables that were assigned by the calls that were recorded. -/
def Assigned (context : Session × List (Call Value)) : Prop :=
  Bindings (context.2.reverse.filterMap assigned?) context.1.symbols.entries

theorem Assigned.call {s after : Session} {calls : List (Call Value)} {call : Call Value}
    (assigned : Assigned (s, calls)) (symbols : after.symbols =
      match assigned? call with
      | some (name, n) => s.symbols.assign name n
      | none => s.symbols) : Assigned (after, call :: calls) := by
  unfold Assigned at assigned ⊢
  rw [List.reverse_cons, List.filterMap_append, symbols]
  rcases made : assigned? call with _ | ⟨name, n⟩
  · simpa [made] using assigned
  · simpa [made, Symbols.assign] using assigned.assign name n

theorem driver_assigns : driver.recording.Upholds (fun _ => True) Assigned where
  reduce rule values view context _ assigned := by
    refine ⟨⟨assigned.call ?_, by simp⟩, by simp⟩
    simp only [driver, assigned?]
    cases Production.ofRule? rule with
    | none => rfl
    | some p =>
      by_cases assignment : p = .assignment
      · subst assignment
        simp only [Production.act_assignment]
        rcases Production.valueAt values 0 with _ | _ | _ <;>
          rcases Production.valueAt values 2 with _ | _ | _ <;> rfl
      · simp only [Production.act_symbols _ assignment]
        cases p with
        | assignment => exact absurd rfl assignment
        | _ => rfl
  onError view context assigned := ⟨assigned.call rfl, by simp⟩

/-- The variables that an evaluation in a new session leaves behind are those that it assigned. -/
theorem eval_bindings {source : String} {r : CalculatorRun}
    (evaluated : eval source {} .none = some r) :
    Bindings (assignments source) r.final.context.symbols.entries := by
  let recorder : Parser Value Error (Session × List (Call Value)) :=
    ⟨tables, driver.recording, .none⟩
  have projects : recorder.Projects (parser .none) Prod.fst id :=
    .of_driver driver.recording_projects .none
  have projected : eval source {} .none =
      (recorder.run lexer (stepBound source) (.ofSource source) ({}, [])).map
        (Run.project Prod.fst id id) :=
    projects.runFrom (.refl lexer) (stepBound source) (.start (.ofSource source) ({}, []))
  rw [evaluated] at projected
  obtain ⟨recorded, ran, rfl⟩ := Option.map_eq_some_iff.mp projected.symm
  have delivers : lexer.Upholds fun _ : Value => True := fun _ _ _ _ _ _ => trivial
  have assigned : Assigned recorded.final.context :=
    Parser.run_upholds driver_assigns delivers ran Bindings.nil
  have made : assignments source = recorded.final.context.2.reverse.filterMap assigned? := by
    unfold assignments
    dsimp only
    rw [ran]
  rw [made]
  exact assigned

example : assignments "x = 1\nx + )\nz = (y = x + 1) / 0" = [("x", 1), ("y", 2)] := by decide +kernel

example : assignments "x = y = 1\nx = 2" = [("y", 1), ("x", 1), ("x", 2)] := by decide +kernel

end ShiftReduce.Calculator
