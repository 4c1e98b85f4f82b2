import ShiftReduce.Association

/-! Finite maps listed in increasing order of key. A key that is inserted again takes the new value,
so of repeated entries the last one counts. -/

namespace ShiftReduce

structure OrderedMap (κ α : Type) where
  entries : List (κ × α) := []
  deriving DecidableEq, Repr

abbrev NameMap (α : Type) := OrderedMap String α

namespace OrderedMap

variable {κ α β ε : Type}

def keys (m : OrderedMap κ α) : List κ := m.entries.map Prod.fst

/-- Checks or converts every value, in order of key, and stops at the first failure. -/
def mapValues (f : α → Except ε β) (m : OrderedMap κ α) : Except ε (OrderedMap κ β) :=
  (m.entries.mapM fun entry => (f entry.2).map (entry.1, ·)).map OrderedMap.mk

variable [DecidableEq κ]

def get? (m : OrderedMap κ α) (key : κ) : Option α := Association.find? key m.entries

variable [LT κ] [DecidableLT κ]

/-- Puts an entry at its place in the order, in place of one with the same key. -/
def insertEntry (key : κ) (value : α) : List (κ × α) → List (κ × α)
  | [] => [(key, value)]
  | entry :: rest =>
    if key = entry.1 then (key, value) :: rest
    else if key < entry.1 then (key, value) :: entry :: rest
    else entry :: insertEntry key value rest

def insert (m : OrderedMap κ α) (key : κ) (value : α) : OrderedMap κ α :=
  ⟨insertEntry key value m.entries⟩

def ofList (entries : List (κ × α)) : OrderedMap κ α :=
  entries.foldl (fun m entry => m.insert entry.1 entry.2) {}

theorem find?_insertEntry (key other : κ) (value : α) (entries : List (κ × α)) :
    Association.find? other (insertEntry key value entries) =
      if key = other then some value else Association.find? other entries := by
  induction entries with
  | nil => simp [insertEntry, Association.find?_cons]
  | cons entry rest ih =>
    simp only [insertEntry]
    split
    · next h => subst h; simp only [Association.find?_cons]; split <;> rfl
    · next h =>
      split
      · simp only [Association.find?_cons]
      · simp only [Association.find?_cons, ih]
        by_cases same : entry.1 = other
        · subst same; simp [h]
        · simp [same]

@[simp] theorem get?_insert (m : OrderedMap κ α) (key other : κ) (value : α) :
    (m.insert key value).get? other = if key = other then some value else m.get? other :=
  find?_insertEntry key other value m.entries

end OrderedMap

end ShiftReduce
