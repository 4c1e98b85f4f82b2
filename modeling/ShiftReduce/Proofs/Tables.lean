import ShiftReduce.Tables.Validation

namespace ShiftReduce

namespace Tables

def Allows (t : Tables) : Action → Prop
  | .shift state => state < t.states.size
  | .reduce rule => rule < t.rules.size
  | .accept => True

/-- Nothing in the tables refers to something that they lack. -/
structure Sound (t : Tables) : Prop where
  rules : 0 < t.rules.size
  states : 0 < t.states.size
  default : ∀ {i : Nat} {state : State} {action : Action}, t.states[i]? = some state →
    state.default = some action → t.Allows action
  action : ∀ {i : Nat} {state : State} {token : String} {action : Action},
    t.states[i]? = some state → state.action? token = some action → t.Allows action
  goto : ∀ {i : Nat} {state : State} {lhs : String} {target : Nat}, t.states[i]? = some state →
    state.goto? lhs = some target → target < t.states.size

/-- State `u` can be pushed on state `s`: by a shift of its default or of its action map, the
error shift among them, or by a goto. -/
def Edge (t : Tables) (s u : Nat) : Prop :=
  ∃ state, t.states[s]? = some state ∧
    (state.default = some (.shift u) ∨ (∃ token, state.action? token = some (.shift u)) ∨
      ∃ lhs, state.goto? lhs = some u)

theorem Edge.target_lt {t : Tables} (sound : t.Sound) {s u : Nat} (edge : t.Edge s u) :
    u < t.states.size := by
  obtain ⟨state, found, shifts | ⟨token, shifts⟩ | ⟨lhs, goes⟩⟩ := edge
  · exact sound.default found shifts
  · exact sound.action found shifts
  · exact sound.goto found goes

theorem select_eq_some {state : State} {token : Option String} {action : Action}
    (selected : state.select token = some action) :
    state.default = some action ∨ ∃ name, state.action? name = some action := by
  unfold State.select at selected
  rcases Option.or_eq_some_iff.mp selected with own | ⟨_, default⟩
  · obtain ⟨name, _, own⟩ := Option.bind_eq_some_iff.mp own
    exact .inr ⟨name, own⟩
  · exact .inl default

theorem Sound.select {t : Tables} (sound : t.Sound) {i : Nat} {state : State}
    (found : t.states[i]? = some state) {token : Option String} {action : Action}
    (selected : state.select token = some action) : t.Allows action := by
  rcases select_eq_some selected with default | ⟨name, own⟩
  · exact sound.default found default
  · exact sound.action found own

theorem Edge.of_select {t : Tables} {s u : Nat} {state : State} {token : Option String}
    (found : t.states[s]? = some state) (selected : state.select token = some (.shift u)) :
    t.Edge s u := by
  rcases select_eq_some selected with default | own
  · exact ⟨state, found, .inl default⟩
  · exact ⟨state, found, .inr (.inl own)⟩

theorem Edge.of_errorShift {t : Tables} {s u : Nat} {state : State}
    (found : t.states[s]? = some state) (shifts : state.errorShift? = some u) : t.Edge s u := by
  unfold State.errorShift? at shifts
  split at shifts
  · next target own =>
    cases shifts
    exact ⟨state, found, .inr (.inl ⟨errorToken, own⟩)⟩
  · contradiction

end Tables

section Validation

variable {α β κ δ : Type}

theorem map_eq_ok_iff {f : α → β} {result : Except δ α} {b : β} :
    result.map f = .ok b ↔ ∃ a, result = .ok a ∧ f a = b := by
  cases result <;> simp [Except.map]

theorem map_eq_error_iff {f : α → β} {result : Except δ α} {e : δ} :
    result.map f = .error e ↔ result = .error e := by
  cases result <;> simp [Except.map]

/-- A pass over a list succeeds with the results of its elements. -/
theorem map_eq_of_mapM {f : α → Except δ β} {as : List α} {bs : List β}
    (passed : as.mapM f = .ok bs) : as.map f = bs.map .ok := by
  induction as generalizing bs with
  | nil =>
    simp only [List.mapM_nil, pure, Except.pure, Except.ok.injEq] at passed
    subst passed
    rfl
  | cons a as ih =>
    rw [List.mapM_cons] at passed
    cases head : f a with
    | error e => simp [head, bind, Except.bind] at passed
    | ok b =>
      cases tail : as.mapM f with
      | error e => simp [head, tail, bind, Except.bind] at passed
      | ok rest =>
        simp only [head, tail, bind, Except.bind, pure, Except.pure, Except.ok.injEq] at passed
        subst passed
        simp [head, ih tail]

theorem length_of_mapM {f : α → Except δ β} {as : List α} {bs : List β}
    (passed : as.mapM f = .ok bs) : bs.length = as.length := by
  simpa using (congrArg List.length (map_eq_of_mapM passed)).symm

/-- What a pass over a list produces comes from an element that passed. -/
theorem origin_of_mapM {f : α → Except δ β} {as : List α} {bs : List β}
    (passed : as.mapM f = .ok bs) {b : β} (member : b ∈ bs) : ∃ a ∈ as, f a = .ok b := by
  have image : Except.ok b ∈ as.map f := by
    rw [map_eq_of_mapM passed]
    exact List.mem_map_of_mem member
  exact List.mem_map.mp image

/-- A pass over a list that fails tells the failure of the first element that fails. -/
theorem failure_of_mapM {f : α → Except δ β} {as : List α} {e : δ}
    (failed : as.mapM f = .error e) : ∃ (i : Nat) (a : α), as[i]? = some a ∧ f a = .error e ∧
      ∀ j < i, ∀ earlier, as[j]? = some earlier → ∃ b, f earlier = .ok b := by
  induction as with
  | nil => contradiction
  | cons a as ih =>
    rw [List.mapM_cons] at failed
    cases head : f a with
    | error d =>
      simp only [head, bind, Except.bind, Except.error.injEq] at failed
      subst failed
      exact ⟨0, a, rfl, head, fun j before => absurd before (Nat.not_lt_zero j)⟩
    | ok b =>
      cases tail : as.mapM f with
      | ok bs => simp [head, tail, bind, Except.bind, pure, Except.pure] at failed
      | error d =>
        simp only [head, tail, bind, Except.bind, Except.error.injEq] at failed
        subst failed
        obtain ⟨i, culprit, found, fails, passed⟩ := ih tail
        refine ⟨i + 1, culprit, found, fails, fun j before earlier at_j => ?_⟩
        cases j with
        | zero =>
          cases at_j
          exact ⟨b, head⟩
        | succ j => exact passed j (Nat.lt_of_succ_lt_succ before) earlier at_j

theorem Association.mem_of_find? [DecidableEq κ] {key : κ} {value : β} {pairs : List (κ × β)}
    (found : Association.find? key pairs = some value) : (key, value) ∈ pairs := by
  induction pairs with
  | nil => contradiction
  | cons pair rest ih =>
    rw [Association.find?_cons] at found
    split at found
    · next same =>
      cases found
      simp [← same]
    · exact List.mem_cons_of_mem _ (ih found)

theorem OrderedMap.origin_of_mapValues [DecidableEq κ] {f : α → Except δ β}
    {m : OrderedMap κ α} {converted : OrderedMap κ β} (passed : m.mapValues f = .ok converted)
    {key : κ} {value : β} (found : converted.get? key = some value) : ∃ a, f a = .ok value := by
  obtain ⟨pairs, entries, rfl⟩ := map_eq_ok_iff.mp passed
  obtain ⟨entry, _, same⟩ := origin_of_mapM entries (Association.mem_of_find? found)
  obtain ⟨b, result, same⟩ := map_eq_ok_iff.mp same
  cases same
  exact ⟨entry.2, result⟩

theorem origin_of_checkOptional {check : α → Except Defect β} {given : Option α} {value : β}
    (passed : checkOptional check given = .ok (some value)) : ∃ a, check a = .ok value := by
  cases given with
  | none => simp [checkOptional] at passed
  | some a =>
    obtain ⟨b, result, same⟩ := map_eq_ok_iff.mp passed
    cases same
    exact ⟨a, result⟩

theorem Extent.checkAction_allowed {e : Extent} {action checked : Action}
    (passed : e.checkAction action = .ok checked) {t : Tables}
    (rules : t.rules.size = e.rules) (states : t.states.size = e.states) : t.Allows checked := by
  cases action with
  | accept =>
    cases passed
    trivial
  | reduce rule =>
    simp only [Extent.checkAction] at passed
    split at passed
    · next bound =>
      cases passed
      simpa [Tables.Allows, rules] using bound
    · contradiction
  | shift state =>
    simp only [Extent.checkAction, Extent.checkState] at passed
    split at passed
    · next bound =>
      cases passed
      simpa [Tables.Allows, states] using bound
    · contradiction

theorem Extent.checkState_lt {e : Extent} {state checked : Nat}
    (passed : e.checkState state = .ok checked) : checked < e.states := by
  unfold Extent.checkState at passed
  split at passed
  · next bound =>
    cases passed
    exact bound
  · contradiction

theorem State.parts_of_ofDefinition {e : Extent} {d : StateDefinition} {state : State}
    (passed : State.ofDefinition e d = .ok state) :
    checkOptional e.checkCode d.default = .ok state.default ∧
    checkOptional (fun codes => (OrderedMap.ofList codes).mapValues e.checkCode) d.actions =
      .ok state.actions ∧
    (OrderedMap.ofList d.gotos).mapValues e.checkState = .ok state.gotos := by
  unfold State.ofDefinition at passed
  simp only [bind, Except.bind, pure, Except.pure] at passed
  split at passed
  · contradiction
  next default defaultPassed =>
  split at passed
  · contradiction
  next actions actionsPassed =>
  split at passed
  · contradiction
  next gotos gotosPassed =>
  cases passed
  exact ⟨defaultPassed, actionsPassed, gotosPassed⟩

/-- The rules and states of validated tables are the results of their checks. -/
theorem Tables.parts_of_ofDefinition {d : TablesDefinition} {t : Tables}
    (passed : Tables.ofDefinition d = .ok t) :
    d.rules ≠ [] ∧ d.states ≠ [] ∧
    Rule.ofDefinitions 0 d.rules = .ok t.rules.toList ∧
    d.states.mapM (State.ofDefinition ⟨d.rules.length, d.states.length⟩) = .ok t.states.toList := by
  unfold Tables.ofDefinition at passed
  split at passed
  · contradiction
  next someRule =>
  split at passed
  · contradiction
  next someState =>
  simp only [bind, Except.bind, pure, Except.pure] at passed
  split at passed
  · contradiction
  next rules rulesPassed =>
  split at passed
  · contradiction
  next states statesPassed =>
  cases passed
  exact ⟨by simpa using someRule, by simpa using someState, rulesPassed, statesPassed⟩

theorem Rule.length_ofDefinitions {index : Nat} {ds : List RuleDefinition} {rules : List Rule}
    (passed : Rule.ofDefinitions index ds = .ok rules) : rules.length = ds.length := by
  induction ds generalizing index rules with
  | nil =>
    cases passed
    rfl
  | cons d ds ih =>
    simp only [Rule.ofDefinitions, bind, Except.bind, pure, Except.pure] at passed
    split at passed
    · contradiction
    split at passed
    · contradiction
    next rest restPassed =>
    cases passed
    simp [ih restPassed]

/-- Validated tables are sound. -/
theorem Tables.sound_of_ofDefinition {d : TablesDefinition} {t : Tables}
    (passed : Tables.ofDefinition d = .ok t) : t.Sound := by
  obtain ⟨someRule, someState, rulesPassed, statesPassed⟩ := Tables.parts_of_ofDefinition passed
  have rules : t.rules.size = d.rules.length := by
    simpa using Rule.length_ofDefinitions rulesPassed
  have states : t.states.size = d.states.length := by
    simpa using length_of_mapM statesPassed
  have origin {i : Nat} {state : State} (found : t.states[i]? = some state) :
      ∃ given, State.ofDefinition ⟨d.rules.length, d.states.length⟩ given = .ok state := by
    have member : state ∈ t.states.toList := Array.mem_def.mp (Array.mem_of_getElem? found)
    obtain ⟨given, _, checked⟩ := origin_of_mapM statesPassed member
    exact ⟨given, checked⟩
  constructor
  · rw [rules]
    exact List.length_pos_iff.mpr someRule
  · rw [states]
    exact List.length_pos_iff.mpr someState
  · intro i state action found default
    obtain ⟨given, checked⟩ := origin found
    have defaultPassed := (State.parts_of_ofDefinition checked).1
    rw [default] at defaultPassed
    obtain ⟨code, codePassed⟩ := origin_of_checkOptional defaultPassed
    exact Extent.checkAction_allowed codePassed rules states
  · intro i state token action found own
    obtain ⟨given, checked⟩ := origin found
    have actionsPassed := (State.parts_of_ofDefinition checked).2.1
    obtain ⟨actions, present, own⟩ := Option.bind_eq_some_iff.mp own
    rw [present] at actionsPassed
    obtain ⟨codes, codesPassed⟩ := origin_of_checkOptional actionsPassed
    obtain ⟨code, codePassed⟩ := OrderedMap.origin_of_mapValues codesPassed own
    exact Extent.checkAction_allowed codePassed rules states
  · intro i state lhs target found goes
    obtain ⟨given, checked⟩ := origin found
    have gotosPassed := (State.parts_of_ofDefinition checked).2.2
    obtain ⟨written, targetPassed⟩ := OrderedMap.origin_of_mapValues gotosPassed goes
    rw [states]
    exact Extent.checkState_lt targetPassed

end Validation

end ShiftReduce
