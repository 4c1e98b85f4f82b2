import ShiftReduce.Proofs.Numerals
import ShiftReduce.Proofs.OrderedMap

/-! Every check is judged in the same way: it passes exactly what is good, with a faithful result,
and otherwise tells the first thing that is wrong. -/

namespace ShiftReduce

/-! ## Judging a check -/

/-- The outcome of a check on something good is faithful, and on something else it tells what is
bad. -/
inductive Verdict {β δ : Type} (good : Prop) (faithful : β → Prop) (bad : δ → Prop) :
    Except δ β → Prop
  | passed {b : β} : good → faithful b → Verdict good faithful bad (.ok b)
  | failed {e : δ} : ¬ good → bad e → Verdict good faithful bad (.error e)

section Verdict

variable {α β δ : Type} {good : Prop} {faithful : β → Prop} {bad : δ → Prop} {result : Except δ β}

theorem Verdict.passes_iff (verdict : Verdict good faithful bad result) :
    (∃ b, result = .ok b) ↔ good := by
  cases verdict with
  | passed holds => exact ⟨fun _ => holds, fun _ => ⟨_, rfl⟩⟩
  | failed fails =>
    refine ⟨?_, fun holds => absurd holds fails⟩
    rintro ⟨_, impossible⟩
    contradiction

theorem Verdict.faithful_of_ok (verdict : Verdict good faithful bad result) {b : β}
    (passed : result = .ok b) : good ∧ faithful b := by
  subst passed
  cases verdict with
  | passed holds result => exact ⟨holds, result⟩

theorem Verdict.bad_of_error (verdict : Verdict good faithful bad result) {e : δ}
    (failed : result = .error e) : ¬ good ∧ bad e := by
  subst failed
  cases verdict with
  | failed fails culprit => exact ⟨fails, culprit⟩

theorem Verdict.mono (verdict : Verdict good faithful bad result) {good' : Prop}
    {faithful' : β → Prop} {bad' : δ → Prop} (same : good ↔ good')
    (results : ∀ b, faithful b → faithful' b) (failures : ∀ e, bad e → bad' e) :
    Verdict good' faithful' bad' result := by
  cases verdict with
  | passed holds result => exact .passed (same.mp holds) (results _ result)
  | failed fails culprit => exact .failed (mt same.mpr fails) (failures _ culprit)

theorem rel_some_left {R : α → β → Prop} {a : α} {right : Option β}
    (related : Option.Rel R (some a) right) : ∃ b, right = some b ∧ R a b := by
  cases related with
  | some holds => exact ⟨_, rfl, holds⟩

theorem rel_none_left {R : α → β → Prop} {right : Option β}
    (related : Option.Rel R none right) : right = none := by
  cases related with
  | none => rfl

theorem rel_isSome {R : α → β → Prop} {left : Option α} {right : Option β}
    (related : Option.Rel R left right) : left.isSome = right.isSome := by
  cases related with
  | some | none => rfl

theorem rel_bind {γ ε : Type} {R : α → β → Prop} {S : γ → ε → Prop} {left : Option α}
    {right : Option β} (related : Option.Rel R left right) {next : α → Option γ}
    {next' : β → Option ε} (each : ∀ a b, R a b → Option.Rel S (next a) (next' b)) :
    Option.Rel S (left.bind next) (right.bind next') := by
  cases related with
  | some holds => exact each _ _ holds
  | none => exact .none

theorem rel_mono {R S : α → β → Prop} (weaker : ∀ a b, R a b → S a b) {left : Option α}
    {right : Option β} (related : Option.Rel R left right) : Option.Rel S left right := by
  cases related with
  | some holds => exact .some (weaker _ _ holds)
  | none => exact .none

variable {f : α → Except δ β} {Good : α → Prop} {Faithful : α → β → Prop} {Bad : α → δ → Prop}

/-- A pass over a list fails for the first element that is not good. -/
theorem verdict_mapM (as : List α)
    (each : ∀ a ∈ as, Verdict (Good a) (Faithful a) (Bad a) (f a)) :
    Verdict (∀ a ∈ as, Good a)
      (fun (bs : List β) => ∀ i : Nat, Option.Rel Faithful as[i]? bs[i]?)
      (fun e => ∃ (i : Nat) (a : α), as[i]? = some a ∧ ¬ Good a ∧ Bad a e ∧
        ∀ j < i, ∀ earlier, as[j]? = some earlier → Good earlier) (as.mapM f) := by
  cases pass : as.mapM f with
  | ok bs =>
    have image := map_eq_of_mapM pass
    refine .passed (fun a member => ?_) fun i => ?_
    · have mapped : f a ∈ bs.map Except.ok := image ▸ List.mem_map_of_mem member
      obtain ⟨b, _, same⟩ := List.mem_map.mp mapped
      exact ((each a member).faithful_of_ok same.symm).1
    · -- Each result stands at the index of the element that it comes from.
      have at_i := congrArg (·[i]?) image
      simp only [List.getElem?_map] at at_i
      cases given : as[i]? with
      | none =>
        rw [given] at at_i
        rw [Option.map_eq_none_iff.mp at_i.symm]
        exact .none
      | some a =>
        rw [given] at at_i
        obtain ⟨b, found, same⟩ := Option.map_eq_some_iff.mp at_i.symm
        rw [found]
        exact .some ((each a (List.mem_of_getElem? given)).faithful_of_ok same.symm).2
  | error e =>
    obtain ⟨i, a, found, fails, passed⟩ := failure_of_mapM pass
    have member := List.mem_of_getElem? found
    obtain ⟨not_good, culprit⟩ := (each a member).bad_of_error fails
    refine .failed (fun all => not_good (all a member)) ⟨i, a, found, not_good, culprit, ?_⟩
    intro j before earlier at_j
    obtain ⟨b, passes⟩ := passed j before earlier at_j
    exact ((each earlier (List.mem_of_getElem? at_j)).faithful_of_ok passes).1

theorem verdict_optional {check : α → Except Defect β} {Bad : α → Defect → Prop}
    (each : ∀ a, Verdict (Good a) (Faithful a) (Bad a) (check a)) (given : Option α) :
    Verdict (∀ a, given = some a → Good a) (Option.Rel Faithful given)
      (fun e => ∃ a, given = some a ∧ Bad a e) (checkOptional check given) := by
  cases given with
  | none => exact .passed (fun a impossible => nomatch impossible) .none
  | some a =>
    simp only [checkOptional]
    cases checked : check a with
    | ok b =>
      obtain ⟨holds, result⟩ := (each a).faithful_of_ok checked
      refine .passed (fun other same => ?_) (.some result)
      cases same
      exact holds
    | error e =>
      obtain ⟨fails, culprit⟩ := (each a).bad_of_error checked
      exact .failed (fun all => fails (all a rfl)) ⟨a, rfl, culprit⟩

/-- A pass over a map fails for any one of the keys whose value is not good. -/
theorem verdict_mapValues {κ : Type} [DecidableEq κ] [LE κ] [LT κ] [DecidableLT κ]
    [Std.IsLinearOrder κ] [Std.LawfulOrderLT κ]
    (each : ∀ a, Verdict (Good a) (Faithful a) (Bad a) (f a)) (entries : List (κ × α)) :
    Verdict (∀ key a, Association.last? key entries = some a → Good a)
      (fun (m : OrderedMap κ β) =>
        ∀ key, Option.Rel Faithful (Association.last? key entries) (m.get? key))
      (fun e => ∃ key a, Association.last? key entries = some a ∧ Bad a e)
      ((OrderedMap.ofList entries).mapValues f) := by
  cases pass : (OrderedMap.ofList entries).mapValues f with
  | ok m =>
    have related := OrderedMap.rel_of_mapValues pass
    simp only [OrderedMap.get?_ofList] at related
    refine .passed (fun key a named => ?_) fun key => ?_
    · have at_key := related key
      rw [named] at at_key
      obtain ⟨b, _, passes⟩ := rel_some_left at_key
      exact ((each a).faithful_of_ok passes).1
    · exact rel_mono (fun a b passes => ((each a).faithful_of_ok passes).2) (related key)
  | error e =>
    obtain ⟨⟨key, a⟩, member, fails⟩ := OrderedMap.culprit_of_mapValues pass
    have named := OrderedMap.mem_ofList_iff.mp member
    obtain ⟨not_good, culprit⟩ := (each a).bad_of_error fails
    exact .failed (fun all => not_good (all key a named)) ⟨key, a, named, culprit⟩

end Verdict

/-! ## In-line markers -/

/-- A name that has to be a marker. -/
def InLine (name : String) : Prop := name.toList.head? = some '@'

/-- A marker `@digits-digits`. Its second number is how many values its rule is given. -/
def Marker (name : String) (n : Nat) : Prop :=
  ∃ index length i, name.toList = '@' :: (index ++ '-' :: length) ∧
    Text.Numeral index i ∧ Text.Numeral length n

/-- A name that has to be a marker is one, and its number is a machine word. -/
def WellNamed (name : String) : Prop :=
  InLine name → ∃ n, Marker name n ∧ n < Word.unsignedLimit

theorem dash_not_mem {digits : List Char} {n : Nat} (numeral : Text.Numeral digits n) :
    '-' ∉ digits :=
  fun member => absurd (numeral.digits '-' member) (by decide)

theorem Marker.inLine {name : String} {n : Nat} (marker : Marker name n) : InLine name := by
  obtain ⟨index, length, i, spelled, _, _⟩ := marker
  rw [InLine, spelled]
  rfl

theorem markerLength?_eq_some_iff {name : String} {n : Nat} :
    markerLength? name.toList = some n ↔ Marker name n ∧ n < Word.unsignedLimit := by
  constructor
  · intro read
    unfold markerLength? at read
    split at read
    case h_2 => contradiction
    next body spelled =>
    split at read
    · contradiction
    next index length parts =>
    split at read
    case h_2 => contradiction
    next i m index_read length_read =>
    split at read
    case isFalse => contradiction
    next fits =>
    cases read
    rw [(Text.eq_of_splitFirst parts).1] at spelled
    exact ⟨⟨index, length, i, spelled, Text.decimal?_eq_some_iff.mp index_read,
      Text.decimal?_eq_some_iff.mp length_read⟩, Word.fitsUnsigned_iff.mp fits⟩
  · rintro ⟨⟨index, length, i, spelled, index_numeral, length_numeral⟩, fits⟩
    simp [markerLength?, spelled, Text.splitFirst_append (dash_not_mem index_numeral),
      index_numeral.decimal?, length_numeral.decimal?, Word.fitsUnsigned_iff, fits]

theorem Marker.unique {name : String} {m n : Nat} (left : Marker name m) (right : Marker name n) :
    m = n := by
  obtain ⟨index, length, i, spelled, index_numeral, length_numeral⟩ := left
  obtain ⟨index', length', i', spelled', index_numeral', length_numeral'⟩ := right
  have parts : Text.splitFirst '-' (index ++ '-' :: length) = some (index, length) :=
    Text.splitFirst_append (dash_not_mem index_numeral)
  rw [spelled, List.cons.injEq] at spelled'
  rw [spelled'.2, Text.splitFirst_append (dash_not_mem index_numeral')] at parts
  cases parts
  exact length_numeral.unique length_numeral'

/-- A rule holds what its definition says, and its action is given as many values as the marker
says or else as many as the rule pops. -/
structure RuleDefinition.Decoded (d : RuleDefinition) (r : Rule) : Prop where
  lhs : r.lhs = d.lhs
  length : r.length = d.length
  marked : ∀ n, Marker d.lhs n → r.dot = n
  unmarked : ¬ InLine d.lhs → r.dot = d.length

theorem Rule.verdict_ofDefinition (index : Nat) (d : RuleDefinition) :
    Verdict (WellNamed d.lhs) d.Decoded (· = .illFormedMarker index d.lhs)
      (Rule.ofDefinition index d) := by
  unfold Rule.ofDefinition
  split
  · next inLine =>
    split
    · next n read =>
      obtain ⟨marker, fits⟩ := markerLength?_eq_some_iff.mp read
      exact .passed (fun _ => ⟨n, marker, fits⟩)
        ⟨rfl, rfl, fun m other => marker.unique other, fun plain => absurd inLine plain⟩
    · next unread =>
      refine .failed (fun named => ?_) rfl
      obtain ⟨n, marker⟩ := named inLine
      rw [markerLength?_eq_some_iff.mpr marker] at unread
      contradiction
  · next plain =>
    exact .passed (fun inLine => absurd inLine plain)
      ⟨rfl, rfl, fun n marker => absurd marker.inLine plain, fun _ => rfl⟩

theorem Rule.ofDefinitions_eq_mapM (index : Nat) (ds : List RuleDefinition) :
    Rule.ofDefinitions index ds =
      (ds.zipIdx index).mapM fun given => Rule.ofDefinition given.2 given.1 := by
  induction ds generalizing index with
  | nil => rfl
  | cons d ds ih => rw [Rule.ofDefinitions, ih, List.zipIdx_cons, List.mapM_cons]

theorem Rule.verdict_ofDefinitions (ds : List RuleDefinition) :
    Verdict (∀ d ∈ ds, WellNamed d.lhs)
      (fun rules => ∀ i : Nat, Option.Rel RuleDefinition.Decoded ds[i]? rules[i]?)
      (fun defect => ∃ (i : Nat) (d : RuleDefinition), ds[i]? = some d ∧ ¬ WellNamed d.lhs ∧
        defect = .illFormedMarker i d.lhs ∧
        ∀ j < i, ∀ earlier, ds[j]? = some earlier → WellNamed earlier.lhs)
      (Rule.ofDefinitions 0 ds) := by
  rw [Rule.ofDefinitions_eq_mapM]
  have numbered (i : Nat) : (ds.zipIdx 0)[i]? = ds[i]?.map (·, i) := by
    rw [List.getElem?_zipIdx, Nat.zero_add]
  refine (verdict_mapM _ fun given _ => Rule.verdict_ofDefinition given.2 given.1).mono ?_ ?_ ?_
  · constructor
    · intro named d member
      obtain ⟨i, found⟩ := List.mem_iff_getElem?.mp member
      exact named (d, i) (List.mk_mem_zipIdx_iff_getElem?.mpr found)
    · exact fun named given member => named given.1 (List.fst_mem_of_mem_zipIdx member)
  · intro rules related i
    have at_i := related i
    rw [numbered] at at_i
    cases given : ds[i]? with
    | none =>
      rw [given] at at_i
      rw [rel_none_left at_i]
      exact .none
    | some d =>
      rw [given] at at_i
      obtain ⟨rule, found, decoded⟩ := rel_some_left at_i
      rw [found]
      exact .some decoded
  · rintro defect ⟨i, given, at_i, misnamed, culprit, earlier_named⟩
    rw [numbered] at at_i
    obtain ⟨d, found, rfl⟩ := Option.map_eq_some_iff.mp at_i
    refine ⟨i, d, found, misnamed, culprit, fun j before earlier at_j => ?_⟩
    exact earlier_named j before (earlier, j) (by rw [numbered, at_j]; rfl)

/-! ## References of a state -/

/-- A code leads to a state or to a rule that exists; the code of acceptance always does. -/
structure Extent.Leads (e : Extent) (code : Int) : Prop where
  shift : 0 < code → code < e.states
  reduce : code < 0 → code.natAbs < e.rules

/-- What a code that leads nowhere is reported as. -/
inductive Extent.Dangles (e : Extent) : Int → Defect → Prop
  | shift {n : Nat} : 0 < n → e.states ≤ n → e.Dangles n (.unknownState n)
  | reduce {n : Nat} : 0 < n → e.rules ≤ n → e.Dangles (-n) (.unknownRule n)

/-- The integer that stands for an action. -/
inductive Encodes : Int → Action → Prop
  | accept : Encodes 0 .accept
  | shift {n : Nat} : 0 < n → Encodes n (.shift n)
  | reduce {n : Nat} : 0 < n → Encodes (-n) (.reduce n)

theorem Extent.verdict_checkCode (e : Extent) (code : Int) :
    Verdict (e.Leads code) (Encodes code) (e.Dangles code) (e.checkCode code) := by
  unfold checkCode Action.ofCode
  split
  · next zero =>
    subst zero
    exact .passed ⟨by simp, by simp⟩ .accept
  · split
    · next positive =>
      obtain ⟨n, rfl⟩ := Int.eq_ofNat_of_zero_le (Int.le_of_lt positive)
      have positive : 0 < n := Int.ofNat_lt.mp positive
      simp only [checkAction, checkState, Int.toNat_natCast]
      split
      · next known => exact .passed ⟨fun _ => Int.ofNat_lt.mpr known, by omega⟩ (.shift positive)
      · next unknown =>
        exact .failed (fun leads => unknown (Int.ofNat_lt.mp (leads.shift (by omega))))
          (.shift positive (Nat.le_of_not_lt unknown))
    · -- The absolute value has no bound of its own, so the least code of a word has one too.
      next nonzero nonpositive =>
      obtain ⟨n, rfl⟩ : ∃ n : Nat, code = -n := ⟨code.natAbs, by omega⟩
      simp only [checkAction, Int.natAbs_neg, Int.natAbs_natCast]
      split
      · next known => exact .passed ⟨by omega, by simpa using fun _ => known⟩ (.reduce (by omega))
      · next unknown =>
        exact .failed (fun leads => unknown (by simpa using leads.reduce (by omega)))
          (.reduce (by omega) (Nat.le_of_not_lt unknown))

theorem Extent.verdict_checkState (e : Extent) (target : Nat) :
    Verdict (target < e.states) (target = ·)
      (fun defect => e.states ≤ target ∧ defect = .unknownState target) (e.checkState target) := by
  unfold checkState
  split
  · next known => exact .passed known rfl
  · next unknown => exact .failed unknown ⟨Nat.le_of_not_lt unknown, rfl⟩

namespace StateDefinition

/-- The code that the definition gives to a token; of repeated tokens the last one counts. -/
def code? (d : StateDefinition) (token : String) : Option Int :=
  d.actions.bind (Association.last? token)

def target? (d : StateDefinition) (lhs : String) : Option Nat := Association.last? lhs d.gotos

theorem code?_of_actions {d : StateDefinition} {codes : List (String × Int)} {token : String}
    {code : Int} (given : d.actions = some codes)
    (named : Association.last? token codes = some code) : d.code? token = some code := by
  rw [code?, given]
  exact named

structure Sound (e : Extent) (d : StateDefinition) : Prop where
  default : ∀ code, d.default = some code → e.Leads code
  action : ∀ token code, d.code? token = some code → e.Leads code
  goto : ∀ lhs target, d.target? lhs = some target → target < e.states

/-- The first violation in a state: of its default, then of its actions, then of its gotos. Within
a map it is any one. -/
inductive Violates (e : Extent) (d : StateDefinition) : Defect → Prop
  | default {code : Int} {defect : Defect} : d.default = some code → e.Dangles code defect →
      Violates e d defect
  | action {token : String} {code : Int} {defect : Defect} :
      (∀ code, d.default = some code → e.Leads code) → d.code? token = some code →
      e.Dangles code defect → Violates e d defect
  | goto {lhs : String} {target : Nat} : (∀ code, d.default = some code → e.Leads code) →
      (∀ token code, d.code? token = some code → e.Leads code) → d.target? lhs = some target →
      e.states ≤ target → Violates e d (.unknownState target)

/-- A state holds the decoded actions and the gotos of its definition and nothing else. -/
structure Decoded (d : StateDefinition) (s : State) : Prop where
  needsToken : s.needsToken = d.actions.isSome
  default : Option.Rel Encodes d.default s.default
  action : ∀ token, Option.Rel Encodes (d.code? token) (s.action? token)
  goto : ∀ lhs, s.goto? lhs = d.target? lhs

end StateDefinition

theorem eq_of_rel_eq {α : Type} {left right : Option α} (related : Option.Rel (· = ·) left right) :
    right = left := by
  cases related with
  | some same => rw [same]
  | none => rfl

theorem State.verdict_ofDefinition (e : Extent) (d : StateDefinition) :
    Verdict (d.Sound e) d.Decoded (d.Violates e) (State.ofDefinition e d) := by
  have defaults := verdict_optional e.verdict_checkCode d.default
  have actions := verdict_optional (verdict_mapValues e.verdict_checkCode) d.actions
  have gotos := verdict_mapValues e.verdict_checkState d.gotos
  unfold State.ofDefinition
  generalize checkOptional e.checkCode d.default = default at defaults ⊢
  generalize checkOptional _ d.actions = codes at actions ⊢
  generalize (OrderedMap.ofList d.gotos).mapValues e.checkState = targets at gotos ⊢
  -- A check that fails hides those behind it, and is reached only past those before it.
  cases defaults with
  | failed fails culprit =>
    obtain ⟨code, given, dangles⟩ := culprit
    exact .failed (fun sound => fails sound.default) (.default given dangles)
  | passed default_good default_decoded =>
    cases actions with
    | failed fails culprit =>
      obtain ⟨codes, given, token, code, named, dangles⟩ := culprit
      refine .failed (fun sound => fails ?_)
        (.action default_good (StateDefinition.code?_of_actions given named) dangles)
      intro codes given token code named
      exact sound.action token code (StateDefinition.code?_of_actions given named)
    | passed actions_good actions_decoded =>
      have actions_good (token : String) (code : Int) (named : d.code? token = some code) :
          e.Leads code := by
        obtain ⟨codes, given, named⟩ := Option.bind_eq_some_iff.mp named
        exact actions_good codes given token code named
      cases gotos with
      | failed fails culprit =>
        obtain ⟨lhs, target, named, missing, rfl⟩ := culprit
        exact .failed (fun sound => fails sound.goto) (.goto default_good actions_good named missing)
      | passed gotos_good gotos_decoded =>
        refine .passed ⟨default_good, actions_good, gotos_good⟩ ⟨?_, default_decoded, ?_, ?_⟩
        · exact (rel_isSome actions_decoded).symm
        · exact fun token => rel_bind actions_decoded fun _ _ related => related token
        · exact fun lhs => eq_of_rel_eq (gotos_decoded lhs)

/-! ## Definitions of tables -/

namespace TablesDefinition

def extent (d : TablesDefinition) : Extent := ⟨d.rules.length, d.states.length⟩

/-- There are a rule and a state, every marker is well formed, and every code and every goto leads
to something that is defined. -/
structure Sound (d : TablesDefinition) : Prop where
  rules : d.rules ≠ []
  states : d.states ≠ []
  names : ∀ rule ∈ d.rules, WellNamed rule.lhs
  references : ∀ state ∈ d.states, state.Sound d.extent

/-- The first violation of a definition: it lacks rules, it lacks states, or else the first rule
with an ill-formed marker, or else what is wrong with the first state that is not sound. -/
inductive Violates (d : TablesDefinition) : Defect → Prop
  | noRules : d.rules = [] → Violates d (.unknownRule 0)
  | noStates : d.rules ≠ [] → d.states = [] → Violates d (.unknownState 0)
  | marker {i : Nat} {rule : RuleDefinition} : d.rules ≠ [] → d.states ≠ [] →
      d.rules[i]? = some rule → ¬ WellNamed rule.lhs →
      (∀ j < i, ∀ earlier, d.rules[j]? = some earlier → WellNamed earlier.lhs) →
      Violates d (.illFormedMarker i rule.lhs)
  | state {i : Nat} {state : StateDefinition} {defect : Defect} : d.rules ≠ [] → d.states ≠ [] →
      (∀ rule ∈ d.rules, WellNamed rule.lhs) → d.states[i]? = some state →
      ¬ state.Sound d.extent → state.Violates d.extent defect →
      (∀ j < i, ∀ earlier, d.states[j]? = some earlier → earlier.Sound d.extent) →
      Violates d defect

/-- The tables have the rules and states of the definition under their numbers, and no others. -/
structure Decoded (d : TablesDefinition) (t : Tables) : Prop where
  rule : ∀ i given, d.rules[i]? = some given → ∃ r, t.rule i = .ok r ∧ given.Decoded r
  noRule : ∀ i, d.rules[i]? = none → t.rule i = .error (.unknownRule i)
  state : ∀ i given, d.states[i]? = some given → ∃ s, t.state i = .ok s ∧ given.Decoded s
  noState : ∀ i, d.states[i]? = none → t.state i = .error (.unknownState i)

theorem decoded_of_rel {d : TablesDefinition} {rules : List Rule} {states : List State}
    (rules_related : ∀ i : Nat, Option.Rel RuleDefinition.Decoded d.rules[i]? rules[i]?)
    (states_related : ∀ i : Nat, Option.Rel StateDefinition.Decoded d.states[i]? states[i]?) :
    d.Decoded ⟨rules.toArray, states.toArray⟩ where
  rule i given at_i := by
    obtain ⟨r, found, decoded⟩ := rel_some_left (at_i ▸ rules_related i)
    exact ⟨r, Tables.rule_eq_ok_iff.mpr (by simpa using found), decoded⟩
  noRule i at_i := by
    have missing := rel_none_left (at_i ▸ rules_related i)
    simp [Tables.rule, missing]
  state i given at_i := by
    obtain ⟨s, found, decoded⟩ := rel_some_left (at_i ▸ states_related i)
    exact ⟨s, Tables.state_eq_ok_iff.mpr (by simpa using found), decoded⟩
  noState i at_i := by
    have missing := rel_none_left (at_i ▸ states_related i)
    simp [Tables.state, missing]

end TablesDefinition

theorem Tables.verdict_ofDefinition (d : TablesDefinition) :
    Verdict d.Sound d.Decoded d.Violates (Tables.ofDefinition d) := by
  have rules := Rule.verdict_ofDefinitions d.rules
  have states := verdict_mapM d.states fun given _ => State.verdict_ofDefinition d.extent given
  unfold Tables.ofDefinition
  split
  · next empty =>
    have empty : d.rules = [] := List.isEmpty_iff.mp empty
    exact .failed (fun sound => sound.rules empty) (.noRules empty)
  next someRule =>
  have someRule : d.rules ≠ [] := mt List.isEmpty_iff.mpr someRule
  split
  · next empty =>
    have empty : d.states = [] := List.isEmpty_iff.mp empty
    exact .failed (fun sound => sound.states empty) (.noStates someRule empty)
  next someState =>
  have someState : d.states ≠ [] := mt List.isEmpty_iff.mpr someState
  change Verdict _ _ _ ((Rule.ofDefinitions 0 d.rules).bind fun rules =>
    (d.states.mapM (State.ofDefinition d.extent)).bind fun states =>
      .ok (Tables.mk rules.toArray states.toArray))
  generalize Rule.ofDefinitions 0 d.rules = checkedRules at rules ⊢
  generalize d.states.mapM (State.ofDefinition d.extent) = checkedStates at states ⊢
  cases rules with
  | failed fails culprit =>
    obtain ⟨i, rule, found, misnamed, rfl, earlier⟩ := culprit
    exact .failed (fun sound => fails sound.names) (.marker someRule someState found misnamed earlier)
  | passed named rules_decoded =>
    cases states with
    | failed fails culprit =>
      obtain ⟨i, state, found, unsound, violation, earlier⟩ := culprit
      exact .failed (fun sound => fails sound.references)
        (.state someRule someState named found unsound violation earlier)
    | passed sound states_decoded =>
      exact .passed ⟨someRule, someState, named, sound⟩
        (TablesDefinition.decoded_of_rel rules_decoded states_decoded)

/-- Validation is exact: it accepts the sound definitions and no others, the tables hold what was
defined, and an unsound definition is rejected for its first violation. -/
theorem Tables.validation_exact (d : TablesDefinition) :
    ((∃ t, Tables.ofDefinition d = .ok t) ↔ d.Sound) ∧
    (∀ t, Tables.ofDefinition d = .ok t → d.Decoded t) ∧
    ∀ defect, Tables.ofDefinition d = .error defect → d.Violates defect := by
  have verdict := Tables.verdict_ofDefinition d
  exact ⟨verdict.passes_iff, fun _ passed => (verdict.faithful_of_ok passed).2,
    fun _ failed => (verdict.bad_of_error failed).2⟩

namespace TablesDefinition

/-- An in-line rule that is given seven values, and a token whose first code is superseded. -/
def inlined : TablesDefinition where
  rules := [⟨"$start", 2⟩, ⟨"@01-007", 0⟩]
  states := [{ actions := some [("a", 5), ("a", -1)], gotos := [("S", 0)] }]

/-- The least code of all asks for a rule that no table can have. -/
def dangling : TablesDefinition where
  rules := [⟨"$start", 2⟩]
  states := [{}, { default := some (-Word.signedLimit), gotos := [("S", 7)] }]

end TablesDefinition

theorem Tables.sound_and_dangling :
    (∃ t, Tables.ofDefinition .inlined = .ok t ∧ TablesDefinition.inlined.Decoded t) ∧
    TablesDefinition.inlined.Sound ∧
    TablesDefinition.dangling.Violates (.unknownRule Word.signedLimit) := by
  obtain ⟨accepts, decodes, _⟩ := Tables.validation_exact .inlined
  obtain ⟨_, _, rejects⟩ := Tables.validation_exact .dangling
  have passed : ∃ t, Tables.ofDefinition .inlined = .ok t := ⟨_, rfl⟩
  obtain ⟨t, result⟩ := passed
  exact ⟨⟨t, result, decodes t result⟩, accepts.mp ⟨t, result⟩, rejects _ rfl⟩

end ShiftReduce
