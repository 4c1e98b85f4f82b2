import Mathlib.Data.List.Forall2
import ShiftReduce.Proofs.Json.Reading
import ShiftReduce.Proofs.Validation
import ShiftReduce.Tables.Json

namespace ShiftReduce

namespace Json

/-! ## Records -/

/-- The fields of a record that are not left out, as members of an object. -/
def present (fields : List (String × Option Json)) : List (Option String × Json) :=
  fields.filterMap fun field => field.2.map (some field.1, ·)

/-- A record is an object, its fields in any order and among members that it does not know, or the
array of its fields, where only the last ones can be left out. -/
inductive Record (fields : List (String × Option Json)) : Json → Prop
  | object {members extras : List (Option String × Json)} :
      members.Perm (present fields ++ extras) →
      (∀ m ∈ extras, ∃ name, m.1 = some name ∧ name ∉ fields.map Prod.fst) →
      Record fields (.object members)
  | array {items : List Json} {left : Nat} :
      fields.map Prod.snd = items.map some ++ List.replicate left none →
      Record fields (.array items)

theorem name_of_mem_present {fields : List (String × Option Json)} {m : Option String × Json}
    (member : m ∈ present fields) : ∃ name ∈ fields.map Prod.fst, m.1 = some name := by
  obtain ⟨field, known, given⟩ := List.mem_filterMap.mp member
  obtain ⟨json, _, rfl⟩ := Option.map_eq_some_iff.mp given
  exact ⟨field.1, List.mem_map_of_mem known, rfl⟩

theorem filter_eq_nil {members : List (Option String × Json)} {name : String}
    (absent : ∀ m ∈ members, m.1 ≠ some name) : members.filter (·.1 == some name) = [] :=
  List.filter_eq_nil_iff.mpr fun m member => by simpa using absent m member

theorem present_cons (field : String × Option Json) (fields : List (String × Option Json)) :
    present (field :: fields) = (field.2.map (some field.1, ·)).toList ++ present fields := by
  cases given : field.2 <;> simp [present, given]

/-- Under its name a field stands once, or not at all if it is left out. -/
theorem filter_present {fields : List (String × Option Json)} (nodup : (fields.map Prod.fst).Nodup)
    {name : String} {value : Option Json} (member : (name, value) ∈ fields) :
    (present fields).filter (·.1 == some name) = (value.map (some name, ·)).toList := by
  induction fields with
  | nil => contradiction
  | cons field fields ih =>
    obtain ⟨fresh, nodup⟩ := List.nodup_cons.mp nodup
    rw [present_cons, List.filter_append]
    rcases List.mem_cons.mp member with rfl | behind
    · have others : (present fields).filter (·.1 == some name) = [] := by
        refine filter_eq_nil fun m member named => ?_
        obtain ⟨other, known, same⟩ := name_of_mem_present member
        rw [same, Option.some.injEq] at named
        exact fresh (named ▸ known)
      cases value <;> simp [others]
    · have different : field.1 ≠ name := by
        rintro rfl
        exact fresh (List.mem_map.mpr ⟨_, behind, rfl⟩)
      rw [ih nodup behind]
      cases field.2 <;> simp [different]

theorem Record.fields? {fields : List (String × Option Json)} {json : Json}
    (record : Record fields json) (nodup : (fields.map Prod.fst).Nodup) :
    json.fields? (fields.map Prod.fst) = some (fields.map Prod.snd) := by
  cases record with
  | @object members extras order unknown =>
    have texts : (members.all fun m => m.1.isSome) = true := by
      refine List.all_eq_true.mpr fun m member => ?_
      rcases List.mem_append.mp (order.mem_iff.mp member) with known | extra
      · obtain ⟨name, _, named⟩ := name_of_mem_present known
        simp [named]
      · obtain ⟨name, named, _⟩ := unknown m extra
        simp [named]
    simp only [Json.fields?, texts, if_true, List.mapM_map]
    refine mapM_eq_map _ fun field known => ?_
    -- No member that is unknown has the name of a field, and no other field has it.
    have others : extras.filter (·.1 == some field.1) = [] := by
      refine filter_eq_nil fun m extra same => ?_
      obtain ⟨other, named, fresh⟩ := unknown m extra
      rw [named, Option.some.injEq] at same
      exact fresh (same ▸ List.mem_map_of_mem known)
    have found := order.filter (·.1 == some field.1)
    rw [List.filter_append, filter_present nodup known, others, List.append_nil] at found
    simp only [Function.comp_apply, member?]
    cases value : field.2 with
    | none =>
      rw [value] at found
      rw [List.perm_nil.mp found]
    | some json =>
      rw [value] at found
      rw [List.perm_singleton.mp found]
  | @array items left spread =>
    have length := congrArg List.length spread
    simp only [List.length_map, List.length_append, List.length_replicate] at length
    simp [Json.fields?, length, spread]

/-! ## Fields -/

/-- A field that need not be given. Left out or null, it is none. -/
inductive Optional {α : Type} (writes : α → Json → Prop) : Option α → Option Json → Prop
  | omitted : Optional writes none none
  | null : Optional writes none (some .null)
  | given {a : α} {json : Json} : writes a json → Optional writes (some a) (some json)

/-- A map to integers, written as an object with one member for each name, in any order. -/
inductive Entries {α : Type} (number : α → Int) (entries : List (String × α)) : Json → Prop
  | object {members : List (String × α)} : (members.map Prod.fst).Nodup →
      (∀ name, Association.find? name members = Association.last? name entries) →
      Entries number entries (.object (members.map fun m => (some m.1, .integer (number m.2))))

theorem Optional.read {α β : Type} {writes : α → Json → Prop} {read : Json → Option β}
    (reading : α → β → Prop) {given : Option α} {field : Option Json}
    (optional : Optional writes given field) (null : read .null = none)
    (each : ∀ a json, given = some a → writes a json → ∃ b, read json = some b ∧ reading a b) :
    ∃ result, optional? read field = some result ∧ Option.Rel reading given result := by
  cases optional with
  | omitted | null => exact ⟨none, rfl, .none⟩
  | @given a json written =>
    obtain ⟨b, result, related⟩ := each a json rfl written
    refine ⟨some b, ?_, .some related⟩
    unfold optional?
    split
    · contradiction
    · next same =>
      cases same
      rw [null] at result
      contradiction
    · next same =>
      cases same
      rw [result]
      rfl

/-- Both lists name the same last value for every name. -/
def SameMap {α : Type} (xs ys : List (String × α)) : Prop :=
  ∀ name, Association.last? name xs = Association.last? name ys

theorem Entries.read {α : Type} {number : α → Int} {entries : List (String × α)} {json : Json}
    (written : Entries number entries json) {read : Json → Option α}
    (each : ∀ name a, Association.last? name entries = some a → read (.integer (number a)) = some a) :
    ∃ members, json.entries? read = some members ∧ SameMap entries members := by
  cases written with
  | @object members nodup same =>
    refine ⟨members, ?_, fun name => by rw [Association.last?_eq_find? nodup, same]⟩
    have values : ∀ m ∈ members, read (.integer (number m.2)) = some m.2 := fun m member =>
      each m.1 m.2 (same m.1 ▸ (Association.mem_iff_find? nodup).mp member)
    simp only [Json.entries?, List.mapM_map]
    refine (mapM_eq_map id fun m member => ?_).trans (by rw [List.map_id])
    simp [values m member]

theorem int64?_integer {n : Int} (fits : Word.fitsSigned n = true) :
    int64? (.integer n) = some n := by
  simp [int64?, fits]

theorem nat64?_integer {n : Nat} (fits : Word.fitsUnsigned n = true) :
    nat64? (.integer n) = some n := by
  change (if Word.fitsUnsigned n then some n else none) = some n
  rw [if_pos fits]

end Json

/-! ## Definitions -/

def RuleDefinition.Renders (d : RuleDefinition) (json : Json) : Prop :=
  Json.Record [("lhs", some (.text (some d.lhs))), ("len", some (.integer d.length))] json

/-- A map without gotos may be left out, and only that. -/
inductive RendersGotos (gotos : List (String × Nat)) : Option Json → Prop
  | omitted : gotos = [] → RendersGotos gotos none
  | given {json : Json} : Json.Entries Int.ofNat gotos json → RendersGotos gotos (some json)

inductive StateDefinition.Renders (d : StateDefinition) (json : Json) : Prop
  | intro {default actions gotos : Option Json} :
      Json.Optional (fun code json => json = .integer code) d.default default →
      Json.Optional (Json.Entries id) d.actions actions →
      RendersGotos d.gotos gotos →
      Json.Record [("default", default), ("actions", actions), ("gotos", gotos)] json →
      Renders d json

inductive TablesDefinition.Renders (d : TablesDefinition) (json : Json) : Prop
  | intro {rules states : List Json} : List.Forall₂ RuleDefinition.Renders d.rules rules →
      List.Forall₂ StateDefinition.Renders d.states states →
      Json.Record [("rules", some (.array rules)), ("states", some (.array states))] json →
      Renders d json

/-- The codes of a state are integers of 64 bits with a sign, and its gotos such without. -/
structure StateDefinition.InRange (d : StateDefinition) : Prop where
  default : ∀ code, d.default = some code → Word.fitsSigned code = true
  action : ∀ token code, d.code? token = some code → Word.fitsSigned code = true
  goto : ∀ lhs target, d.target? lhs = some target → Word.fitsUnsigned target = true

structure TablesDefinition.InRange (d : TablesDefinition) : Prop where
  rules : ∀ rule ∈ d.rules, Word.fitsUnsigned rule.length = true
  states : ∀ state ∈ d.states, state.InRange

theorem RuleDefinition.ofJson?_renders {d : RuleDefinition} {json : Json}
    (fits : Word.fitsUnsigned d.length = true) (renders : d.Renders json) :
    RuleDefinition.ofJson? json = some d := by
  have fields := Json.Record.fields? renders (by simp)
  simp only [List.map_cons, List.map_nil] at fields
  simp [RuleDefinition.ofJson?, fields, Json.text?, Json.nat64?_integer fits]

/-- Validation does not see the order in which a map is listed. -/
theorem State.ofDefinition_congr {d d' : StateDefinition} (default : d.default = d'.default)
    (actions : Option.Rel Json.SameMap d.actions d'.actions)
    (gotos : Json.SameMap d.gotos d'.gotos) (e : Extent) :
    State.ofDefinition e d = State.ofDefinition e d' := by
  obtain ⟨code, codes, targets⟩ := d
  obtain ⟨code', codes', targets'⟩ := d'
  subst default
  simp only [State.ofDefinition, OrderedMap.ofList_congr gotos]
  cases actions with
  | none => rfl
  | some same => simp only [checkOptional, OrderedMap.ofList_congr same]

theorem RendersGotos.read {gotos : List (String × Nat)} {field : Option Json}
    (renders : RendersGotos gotos field)
    (fits : ∀ lhs target, Association.last? lhs gotos = some target →
      Word.fitsUnsigned target = true) :
    ∃ targets, (field.map (Json.entries? Json.nat64?)).getD (some []) = some targets ∧
      Json.SameMap gotos targets := by
  cases renders with
  | omitted empty => exact ⟨[], rfl, fun name => by rw [empty]⟩
  | given written =>
    exact written.read fun lhs target named => Json.nat64?_integer (fits lhs target named)

/-- A state is read again, up to the order of its maps. -/
theorem StateDefinition.ofJson?_renders {d : StateDefinition} {json : Json} (fits : d.InRange)
    (renders : d.Renders json) : ∃ d', StateDefinition.ofJson? json = some d' ∧
      ∀ e, State.ofDefinition e d = State.ofDefinition e d' := by
  obtain ⟨default, actions, gotos, record⟩ := renders
  obtain ⟨code, default_read, code_same⟩ := default.read Eq rfl
    fun code json given written => ⟨code, written ▸ Json.int64?_integer (fits.default code given), rfl⟩
  obtain ⟨codes, actions_read, codes_same⟩ := actions.read Json.SameMap rfl
    fun entries json given written => written.read fun token code named =>
      Json.int64?_integer (fits.action token code (code?_of_actions given named))
  obtain ⟨targets, gotos_read, targets_same⟩ := gotos.read fits.goto
  have fields := record.fields? (by simp)
  simp only [List.map_cons, List.map_nil] at fields
  refine ⟨⟨code, codes, targets⟩, ?_,
    State.ofDefinition_congr (eq_of_rel_eq code_same).symm codes_same targets_same⟩
  simp [StateDefinition.ofJson?, fields, default_read, actions_read, gotos_read]

theorem mapM_of_forall₂ {α β γ : Type} {writes : α → γ → Prop} {read : γ → Option β}
    (reading : α → β → Prop) {as : List α} {texts : List γ} (written : List.Forall₂ writes as texts)
    (each : ∀ a ∈ as, ∀ text, writes a text → ∃ b, read text = some b ∧ reading a b) :
    ∃ bs, texts.mapM read = some bs ∧ List.Forall₂ reading as bs := by
  induction written with
  | nil => exact ⟨[], rfl, .nil⟩
  | @cons a text as texts head _ ih =>
    obtain ⟨b, result, related⟩ := each a List.mem_cons_self text head
    obtain ⟨bs, results, tail⟩ := ih fun a member => each a (List.mem_cons_of_mem _ member)
    exact ⟨b :: bs, by simp [List.mapM_cons, result, results], .cons related tail⟩

theorem Tables.ofDefinition_congr {rules : List RuleDefinition} {states states' : List StateDefinition}
    (same : List.Forall₂ (fun d d' => ∀ e, State.ofDefinition e d = State.ofDefinition e d')
      states states') :
    Tables.ofDefinition ⟨rules, states⟩ = Tables.ofDefinition ⟨rules, states'⟩ := by
  have checked (e : Extent) :
      states.mapM (State.ofDefinition e) = states'.mapM (State.ofDefinition e) := by
    induction same with
    | nil => rfl
    | cons head _ ih => rw [List.mapM_cons, List.mapM_cons, head e, ih]
  have empty : states.isEmpty = states'.isEmpty := by
    cases same <;> rfl
  simp only [Tables.ofDefinition, empty, same.length_eq, checked]

/-- The definition is read from its rendering, up to the order of its maps. -/
theorem TablesDefinition.ofJson?_renders {d : TablesDefinition} {json : Json} (fits : d.InRange)
    (renders : d.Renders json) : ∃ d', TablesDefinition.ofJson? json = some d' ∧
      Tables.ofDefinition d = Tables.ofDefinition d' := by
  obtain ⟨rules, states, record⟩ := renders
  obtain ⟨rules_read, rules_results, rules_same⟩ := mapM_of_forall₂ Eq rules
    fun rule member json written =>
      ⟨rule, RuleDefinition.ofJson?_renders (fits.rules rule member) written, rfl⟩
  obtain ⟨states_read, states_results, states_same⟩ := mapM_of_forall₂ _ states
    fun state member json written =>
      StateDefinition.ofJson?_renders (fits.states state member) written
  have fields := record.fields? (by simp)
  simp only [List.map_cons, List.map_nil] at fields
  refine ⟨⟨rules_read, states_read⟩, ?_, ?_⟩
  · simp [TablesDefinition.ofJson?, fields, rules_results, states_results]
  · rw [List.forall₂_eq_eq_eq] at rules_same
    exact rules_same ▸ Tables.ofDefinition_congr states_same

/-- Tables are loaded from any text of any rendering of their definition as they are from the
definition itself. A state that is given actions asks for a token, be there none of them. -/
theorem Tables.ofJson_renders {d : TablesDefinition} {json : Json} {text : String}
    (fits : d.InRange) (renders : d.Renders json) (written : json.Written text.toList) :
    Tables.ofJson text = (Tables.ofDefinition d).mapError .defect ∧
    ∀ t, Tables.ofJson text = .ok t → ∀ i given, d.states[i]? = some given →
      ∃ s, t.state i = .ok s ∧ s.needsToken = given.actions.isSome := by
  obtain ⟨d', read, same⟩ := TablesDefinition.ofJson?_renders fits renders
  have loaded : Tables.ofJson text = (Tables.ofDefinition d).mapError .defect := by
    simp only [Tables.ofJson, Json.read?_written written, Option.bind_some, read, same]
  refine ⟨loaded, fun t result i given found => ?_⟩
  rw [loaded] at result
  have verdict := Tables.verdict_ofDefinition d
  cases checked : Tables.ofDefinition d with
  | error defect =>
    rw [checked] at result
    contradiction
  | ok tables =>
    rw [checked] at result
    cases result
    obtain ⟨s, state, decoded⟩ := (verdict.faithful_of_ok checked).2.state i given found
    exact ⟨s, state, decoded.needsToken⟩

/-! ## A sample -/

namespace TablesDefinition

/-- A state with an empty map of actions beside one with none. -/
def sample : TablesDefinition where
  rules := [⟨"$", 2⟩, ⟨"S", 0⟩]
  states := [{ actions := some [] }, { default := some (-1), gotos := [("S", 1)] }]

def sampleText : String :=
  "\x7b\"states\":[[null,\x7b\x7d],\x7b\"gotos\":\x7b\"S\":1\x7d,\"x\":[-1.5e3,\"\\ud800\"]," ++
  "\"default\": -1\x7d],\"rules\":[[\"\\u0024\",2],\x7b\"len\":0,\"lhs\":\"S\"\x7d]\x7d"

/-- The value of the text. A member that is unknown holds what no field could. -/
def sampleJson : Json := .object [
  (some "states", .array [.array [.null, .object []],
    .object [(some "gotos", .object [(some "S", .integer 1)]),
      (some "x", .array [.decimal, .text none]), (some "default", .integer (-1))]]),
  (some "rules", .array [.array [.text (some "$"), .integer 2],
    .object [(some "len", .integer 0), (some "lhs", .text (some "S"))]])]

theorem sample_renders : sample.Renders sampleJson := by
  have first : RuleDefinition.Renders ⟨"$", 2⟩ (.array [.text (some "$"), .integer 2]) :=
    @Json.Record.array _ _ 0 rfl
  have second : RuleDefinition.Renders ⟨"S", 0⟩
      (.object [(some "len", .integer 0), (some "lhs", .text (some "S"))]) :=
    @Json.Record.object _ _ [] (.swap _ _ _) nofun
  have asking : StateDefinition.Renders { actions := some [] } (.array [.null, .object []]) :=
    .intro .null (.given (@Json.Entries.object _ _ _ [] .nil fun _ => rfl)) (.omitted rfl)
      (@Json.Record.array _ _ 1 rfl)
  have settled : StateDefinition.Renders { default := some (-1), gotos := [("S", 1)] }
      (.object [(some "gotos", .object [(some "S", .integer 1)]),
        (some "x", .array [.decimal, .text none]), (some "default", .integer (-1))]) := by
    have gotos : Json.Entries Int.ofNat [("S", 1)] (.object [(some "S", .integer 1)]) :=
      @Json.Entries.object _ _ _ [("S", 1)] (by simp) fun name =>
        (Association.last?_eq_find? (by simp) name).symm
    refine .intro (.given rfl) .omitted (.given gotos)
      (@Json.Record.object _ _ [(some "x", .array [.decimal, .text none])] ?_ ?_)
    · exact List.perm_append_singleton (some "default", Json.integer (-1)) [_, _]
    · simp
  exact .intro (.cons first (.cons second .nil)) (.cons asking (.cons settled .nil))
    (@Json.Record.object _ _ [] (.swap _ _ _) nofun)

/-- A member whose name needs no escape. -/
def labelled (name : String) (value : Json) (text : List Char) : Json.Member where
  name := some name
  before := []
  quoted := '"' :: (name.toList ++ ['"'])
  behind := []
  value := value
  text := text

theorem labelled_named {name : String} (value : Json) (text : List Char)
    (plain : ∀ c ∈ name.toList, ' ' ≤ c ∧ c ≠ '"' ∧ c ≠ '\\') :
    (labelled name value text).Named :=
  ⟨nofun, Json.quoted_plain plain, nofun⟩

theorem forall_mem_pair {α : Type} {P : α → Prop} {a b : α} (left : P a) (right : P b) :
    ∀ x ∈ [a, b], P x :=
  List.forall_mem_cons.mpr ⟨left, List.forall_mem_cons.mpr ⟨right, nofun⟩⟩

theorem digit_written {c : Char} (digit : c.isDigit = true) :
    Json.Written (.integer (c.toNat - '0'.toNat : Nat)) [c] := by
  refine .number (.natural ⟨Text.numeral_digit digit, fun zero => ?_⟩)
  rw [Option.some.inj zero]

/-- A number and a text that only an unknown member can hold. -/
theorem sample_extra_written :
    Json.Written (.array [.decimal, .text none]) "[-1.5e3,\"\\ud800\"]".toList := by
  have decimal : Json.Written .decimal ['-', '1', '.', '5', 'e', '3'] :=
    .number (@Json.Number.decimal ['-'] ['1'] ['.', '5'] ['e', '3'] 1 (by decide)
      ⟨Text.numeral_digit rfl, nofun⟩ (.present (@Text.numeral_digit '5' rfl))
      (@Json.Exponent.present 'e' [] ['3'] 3 (.inl rfl) (by decide) (Text.numeral_digit rfl))
      (.inl nofun))
  have half : Json.Quoted none ('"' :: (['\\', 'u', 'd', '8', '0', '0'] ++ ['"'])) := by
    have unit : Json.Spells (.unit 0xd800) ['\\', 'u', 'd', '8', '0', '0'] :=
      @Json.Spells.unit _ _ _ _ 13 8 0 0 ⟨by decide, by decide⟩ ⟨by decide, by decide⟩
        ⟨by decide, by decide⟩ ⟨by decide, by decide⟩
    exact .halved (.cons unit .nil) fun s decodes => nomatch Json.spell_eq decodes
  exact @Json.Written.array [(_, _), (_, _)] nofun (forall_mem_pair decimal (.text half))

theorem sample_states_written : Json.Written
    (.array [.array [.null, .object []],
      .object [(some "gotos", .object [(some "S", .integer 1)]),
        (some "x", .array [.decimal, .text none]), (some "default", .integer (-1))]])
    ("[[null,\x7b\x7d],\x7b\"gotos\":\x7b\"S\":1\x7d,\"x\":[-1.5e3,\"\\ud800\"]," ++
      "\"default\": -1\x7d]").toList := by
  have asking : Json.Written (.array [.null, .object []]) "[null,\x7b\x7d]".toList :=
    @Json.Written.array [(_, _), (_, _)] nofun
      (forall_mem_pair .null (@Json.Written.emptyObject [] nofun))
  have one : Text.Numeral ['1'] 1 := Text.numeral_digit rfl
  have gotos : Json.Written (.object [(some "S", .integer 1)]) "\x7b\"S\":1\x7d".toList :=
    @Json.Written.object [labelled "S" (.integer 1) ['1']] nofun
      (List.forall_mem_singleton.mpr (labelled_named _ _ (by simp)))
      (List.forall_mem_singleton.mpr (@digit_written '1' rfl))
  have default : Json.Written (.integer (-1)) [' ', '-', '1'] :=
    @Json.Written.padded _ [' '] _ [] (by simp [Json.Blanks])
      (.number (.negative ⟨one, nofun⟩ (by decide))) nofun
  have settled := @Json.Written.object [labelled "gotos" _ _, labelled "x" _ _,
    labelled "default" _ _] nofun
    (List.forall_mem_cons.mpr ⟨labelled_named _ _ (by simp),
      forall_mem_pair (labelled_named _ _ (by simp)) (labelled_named _ _ (by simp))⟩)
    (List.forall_mem_cons.mpr ⟨gotos, forall_mem_pair sample_extra_written default⟩)
  exact @Json.Written.array [(_, _), (_, _)] nofun (forall_mem_pair asking settled)

theorem sample_rules_written : Json.Written
    (.array [.array [.text (some "$"), .integer 2],
      .object [(some "len", .integer 0), (some "lhs", .text (some "S"))]])
    "[[\"\\u0024\",2],\x7b\"len\":0,\"lhs\":\"S\"\x7d]".toList := by
  have dollar : Json.Quoted (some "$") ('"' :: (['\\', 'u', '0', '0', '2', '4'] ++ ['"'])) := by
    have unit : Json.Spells (.unit '$'.toNat) ['\\', 'u', '0', '0', '2', '4'] :=
      @Json.Spells.unit _ _ _ _ 0 0 2 4 ⟨by decide, by decide⟩ ⟨by decide, by decide⟩
        ⟨by decide, by decide⟩ ⟨by decide, by decide⟩
    exact .text (.cons unit .nil) (.unit (by decide) .nil)
  have first : Json.Written (.array [.text (some "$"), .integer 2]) "[\"\\u0024\",2]".toList :=
    @Json.Written.array [(_, _), (_, _)] nofun
      (forall_mem_pair (.text dollar) (@digit_written '2' rfl))
  have second := @Json.Written.object [labelled "len" (.integer 0) _, labelled "lhs" _ _] nofun
    (forall_mem_pair (labelled_named _ _ (by simp)) (labelled_named _ _ (by simp)))
    (forall_mem_pair (@digit_written '0' rfl) (.text (@Json.quoted_plain "S" (by simp))))
  exact @Json.Written.array [(_, _), (_, _)] nofun (forall_mem_pair first second)

theorem sample_written : sampleJson.Written sampleText.toList := by
  have written := @Json.Written.object [labelled "states" _ _, labelled "rules" _ _] nofun
    (forall_mem_pair (labelled_named _ _ (by simp)) (labelled_named _ _ (by simp)))
    (forall_mem_pair sample_states_written sample_rules_written)
  refine Eq.mp (congrArg sampleJson.Written ?_) written
  decide +kernel

theorem sample_inRange : sample.InRange where
  rules := forall_mem_pair (by decide) (by decide)
  states := by
    refine forall_mem_pair ⟨nofun, nofun, nofun⟩ ⟨?_, nofun, ?_⟩
    · rintro code ⟨⟩
      decide
    · intro lhs target named
      have member := Association.mem_of_find? named
      simp only [List.reverse_singleton, List.mem_singleton, Prod.mk.injEq] at member
      rw [member.2]
      decide

end TablesDefinition

theorem Tables.sample_loaded : ∃ t, Tables.ofJson TablesDefinition.sampleText = .ok t ∧
    (∃ s, t.state 0 = .ok s ∧ s.needsToken = true) ∧
    ∃ s, t.state 1 = .ok s ∧ s.needsToken = false := by
  obtain ⟨loaded, asks⟩ := Tables.ofJson_renders TablesDefinition.sample_inRange
    TablesDefinition.sample_renders TablesDefinition.sample_written
  have accepted : ∃ t, Tables.ofJson TablesDefinition.sampleText = .ok t := by
    rw [loaded]
    exact ⟨_, rfl⟩
  obtain ⟨t, result⟩ := accepted
  exact ⟨t, result, asks t result 0 _ rfl, asks t result 1 _ rfl⟩

end ShiftReduce
