import Mathlib.Data.Finset.Card
import ShiftReduce.Proofs.Calculator.Assignments

namespace ShiftReduce.Calculator

inductive Operation where
  | assign (name : String) (value : Int)
  | lookup (name : String)
  deriving DecidableEq, Repr

namespace Operation

inductive Answer where
  /-- An assignment tells where its variable stands. -/
  | place (index : Nat)
  | value (result : Except LineError Int)

def binding? : Operation → Option (String × Int)
  | .assign name value => some (name, value)
  | .lookup _ => none

/-- The bindings that are made, the earliest first. -/
def made (ops : List Operation) : List (String × Int) := ops.filterMap binding?

/-- The names that are assigned, in the order of their first assignments. -/
def order (ops : List Operation) : List String := ((made ops).map Prod.fst).eraseDups

/-- The values that a name is assigned, the earliest first. -/
def given (name : String) (ops : List Operation) : List Int :=
  ((made ops).filter (·.1 = name)).map Prod.snd

end Operation

namespace Symbols

/-- What an operation answers, and the variables that it leaves. -/
def perform (s : Symbols) : Operation → Operation.Answer × Symbols
  | .assign name value => (.place (s.assignIndexed name value).2, (s.assignIndexed name value).1)
  | .lookup name =>
    match s.lookup? name with
    | some value => (.value (.ok value), s)
    | none => (.value (.error (.undefined name)), s)

/-- The variables behind these operations, of which there are none at first. -/
def after (ops : List Operation) : Symbols := ops.foldl (fun s op => (s.perform op).2) {}

/-- What an operation answers behind others. -/
def answer (ops : List Operation) (op : Operation) : Operation.Answer := ((after ops).perform op).1

end Symbols

variable {ops : List Operation} {name : String} {value : Int}

namespace Operation

@[simp] theorem made_assign : made [.assign name value] = [(name, value)] := rfl

@[simp] theorem made_lookup : made [.lookup name] = [] := rfl

theorem made_append (ops more : List Operation) : made (ops ++ more) = made ops ++ made more :=
  List.filterMap_append

theorem mem_made : (name, value) ∈ made ops ↔ .assign name value ∈ ops := by
  simp only [made, List.mem_filterMap]
  constructor
  · rintro ⟨op, member, binds⟩
    cases op with
    | assign =>
      cases binds
      exact member
    | lookup => contradiction
  · intro member
    exact ⟨_, member, rfl⟩

theorem given_append (ops more : List Operation) :
    given name (ops ++ more) = given name ops ++ given name more := by
  simp [given, made_append]

/-- Further operations leave the order as it is and add to its end. -/
theorem order_prefix (ops more : List Operation) : order ops <+: order (ops ++ more) := by
  simp only [order, made_append, List.map_append, List.eraseDups_append]
  exact List.prefix_append _ _

end Operation

open Operation

namespace Symbols

theorem after_concat (ops : List Operation) (op : Operation) :
    after (ops ++ [op]) = ((after ops).perform op).2 := by
  simp [after]

theorem after_assign : after (ops ++ [.assign name value]) = (after ops).assign name value :=
  after_concat ops _

theorem after_lookup : after (ops ++ [.lookup name]) = after ops := by
  rw [after_concat, perform]
  split <;> rfl

/-- The table holds the bindings that were made. -/
theorem after_bindings (ops : List Operation) : Bindings (made ops) (after ops).entries := by
  induction ops using List.reverseRecOn with
  | nil => exact .nil
  | append_singleton ops op ih =>
    rw [made_append]
    cases op with
    | assign name value =>
      rw [after_assign]
      exact ih.assign name value
    | lookup name =>
      rw [after_lookup]
      simpa using ih

theorem names_after (ops : List Operation) : (after ops).names = order ops :=
  (after_bindings ops).order

theorem nodup_order (ops : List Operation) : (order ops).Nodup := by
  rw [← names_after]
  exact (after_bindings ops).once

theorem lookup?_after (name : String) (ops : List Operation) :
    (after ops).lookup? name = (given name ops).getLast? := by
  induction ops using List.reverseRecOn with
  | nil => rfl
  | append_singleton ops op ih =>
    rw [given_append]
    cases op with
    | assign other value =>
      rw [after_assign, lookup?_assign, ih]
      by_cases same : other = name
      · simp [given, same]
      · simp [given, same]
    | lookup other =>
      rw [after_lookup, ih]
      simp [given]

theorem index_eq (s : Symbols) (name : String) : s.index name = s.names.idxOf name := by
  simp [index, names, List.idxOf, List.findIdx_map, Function.comp_def]

/-- An assignment finds its variable where it says that it stands. -/
theorem names_assign (s : Symbols) (name : String) (value : Int) :
    (s.assign name value).names[s.index name]? = some name := by
  rw [index_eq, names, assign, assignIn_names]
  split
  · next known => exact List.getElem?_idxOf known
  · next fresh => simp [names, List.idxOf_eq_length fresh]

/-- It stays there whatever is done later. -/
theorem place_kept (ops later : List Operation) (name : String) (value : Int) :
    (order (ops ++ .assign name value :: later))[(after ops).index name]? = some name := by
  have placed := names_assign (after ops) name value
  rw [← after_assign, names_after] at placed
  obtain ⟨rest, grown⟩ := order_prefix (ops ++ [.assign name value]) later
  rw [List.append_assoc] at grown
  have inside := (List.getElem?_eq_some_iff.mp placed).1
  change (order (ops ++ ([.assign name value] ++ later)))[(after ops).index name]? = some name
  rw [← grown, List.getElem?_append_left inside]
  exact placed

theorem entry_iff (ops : List Operation) (i : Nat) (name : String) (value : Int) :
    (after ops).entries[i]? = some (name, value) ↔
      (order ops)[i]? = some name ∧ (given name ops).getLast? = some value := by
  have found (other : String) (held : Int) : (other, held) ∈ (after ops).entries ↔
      (given other ops).getLast? = some held := by
    rw [← lookup?_after]
    exact Association.mem_iff_find? (after_bindings ops).once
  rw [← names_after, names, List.getElem?_map]
  constructor
  · intro stands
    rw [stands]
    exact ⟨rfl, (found name value).mp (List.mem_of_getElem? stands)⟩
  · rintro ⟨stands, latest⟩
    obtain ⟨⟨other, held⟩, entry, rfl⟩ := Option.map_eq_some_iff.mp stands
    have same := (found other held).mp (List.mem_of_getElem? entry)
    rw [entry, Option.some.inj (same.symm.trans latest)]

theorem size_after (ops : List Operation) :
    (after ops).size = ((made ops).map Prod.fst).toFinset.card := by
  have same : ((made ops).map Prod.fst).toFinset = (order ops).toFinset := by
    ext name
    simp [order]
  rw [same, List.toFinset_card_of_nodup (nodup_order ops), ← names_after]
  simp [size, names]

/-- Two names never share a place. -/
theorem place_unique {before later : List Operation} {other : String} {w : Int} {i : Nat}
    (split : ops = before ++ .assign other w :: later) (stands : (order ops)[i]? = some name) :
    (after before).index other = i ↔ other = name := by
  have placed := place_kept before later other w
  rw [← split] at placed
  constructor
  · intro same
    rw [same, stands] at placed
    exact (Option.some.inj placed).symm
  · rintro rfl
    have inside := (List.getElem?_eq_some_iff.mp placed).1
    exact (List.getElem?_inj inside (nodup_order ops)).mp (placed.trans stands.symm)

/-- Behind any operations the variables are an ordered map. A look-up answers by the last value that
the name was given, or names it as undefined if it was given none. The entries are the names in the
order of their first assignments, each once and with its last value, and an assignment tells the
place of its name among them, now and behind all that follows. -/
theorem variables_refine_ordered_map (ops : List Operation) :
    (∀ name, answer ops (.lookup name) = .value
      (match (given name ops).getLast? with
        | some value => .ok value
        | none => .error (.undefined name))) ∧
    (order ops).Nodup ∧
    (∀ (i : Nat) name value, (after ops).entries[i]? = some (name, value) ↔
      (order ops)[i]? = some name ∧ (given name ops).getLast? = some value) ∧
    (after ops).size = ((made ops).map Prod.fst).toFinset.card ∧
    (∀ name value, ∃ i, answer ops (.assign name value) = .place i ∧
      ∀ later, (order (ops ++ .assign name value :: later))[i]? = some name) ∧
    ∀ (i : Nat) name value, (after ops).entries[i]? = some (name, value) →
      (∃ w, .assign name w ∈ ops) ∧
      ∀ before other w later, ops = before ++ .assign other w :: later →
        (answer before (.assign other w) = .place i ↔ other = name) := by
  refine ⟨fun name => ?_, nodup_order ops, entry_iff ops, size_after ops, fun name value => ?_, ?_⟩
  · rw [← lookup?_after, answer, perform]
    cases (after ops).lookup? name <;> rfl
  · exact ⟨(after ops).index name, rfl, fun later => place_kept ops later name value⟩
  · intro i name value stands
    obtain ⟨placed, _⟩ := (entry_iff ops i name value).mp stands
    constructor
    · have named : name ∈ (made ops).map Prod.fst :=
        List.mem_eraseDups.mp (List.mem_of_getElem? placed)
      obtain ⟨⟨_, w⟩, member, rfl⟩ := List.mem_map.mp named
      exact ⟨w, mem_made.mp member⟩
    · intro before other w later split
      rw [← place_unique split placed]
      constructor
      · intro same
        exact Operation.Answer.place.inj same
      · intro same
        rw [← same]
        rfl

example : order [.assign "y" 1, .assign "x" 2, .lookup "z", .assign "y" 3] = ["y", "x"] := by decide

end Symbols

end ShiftReduce.Calculator
