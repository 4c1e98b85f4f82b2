import ShiftReduce.Json.Reader
import ShiftReduce.Tables.Validation

/-! The JSON form of table definitions. Each record may be an object, whose unknown members are
passed over, or the array of its fields in order. A field may not be repeated, a number has to be a
plain integer of its range, and only the fields of a state may be left out. -/

namespace ShiftReduce

namespace Json

/-- The one member with this name; `none` inside if there is none, outside if it is repeated. -/
def member? (name : String) (members : List (Option String × Json)) : Option (Option Json) :=
  match members.filter (·.1 == some name) with
  | [] => some none
  | [member] => some (some member.2)
  | _ => none

/-- The fields of a record, in the order of `names`; a field that is left out is `none`. An
object has names that are texts, and an array has no more items than there are names. -/
def fields? (names : List String) : Json → Option (List (Option Json))
  | .object members =>
    if members.all (·.1.isSome) then names.mapM (member? · members) else none
  | .array items =>
    if items.length ≤ names.length then
      some (items.map some ++ List.replicate (names.length - items.length) none)
    else none
  | _ => none

def optional? {α : Type} (read : Json → Option α) : Option Json → Option (Option α)
  | none => some none
  | some .null => some none
  | some json => (read json).map some

end Json

def RuleDefinition.ofJson? (json : Json) : Option RuleDefinition :=
  match json.fields? ["lhs", "len"] with
  | some [some lhs, some length] => do
    let lhs ← lhs.text?
    let length ← length.nat64?
    return ⟨lhs, length⟩
  | _ => none

def StateDefinition.ofJson? (json : Json) : Option StateDefinition :=
  match json.fields? ["default", "actions", "gotos"] with
  | some [default, actions, gotos] => do
    let default ← Json.optional? Json.int64? default
    let actions ← Json.optional? (Json.entries? Json.int64?) actions
    let gotos ← ((gotos.map (Json.entries? Json.nat64?)).getD (some []))
    return ⟨default, actions, gotos⟩
  | _ => none

def TablesDefinition.ofJson? (json : Json) : Option TablesDefinition :=
  match json.fields? ["rules", "states"] with
  | some [some (.array rules), some (.array states)] => do
    let rules ← rules.mapM RuleDefinition.ofJson?
    let states ← states.mapM StateDefinition.ofJson?
    return ⟨rules, states⟩
  | _ => none

inductive LoadError where
  /-- The text is no JSON, or not the JSON of a table definition. -/
  | unreadable
  | defect (defect : Defect)
  deriving DecidableEq, Repr

namespace Tables

def ofJson (text : String) : Except LoadError Tables :=
  match (Json.read? text).bind TablesDefinition.ofJson? with
  | none => .error .unreadable
  | some definition => (ofDefinition definition).mapError .defect

end Tables

end ShiftReduce
