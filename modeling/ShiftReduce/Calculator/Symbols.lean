import ShiftReduce.Association

namespace ShiftReduce.Calculator

structure Symbols where
  entries : List (String × Int) := []
  deriving DecidableEq, Repr

namespace Symbols

def size (s : Symbols) : Nat := s.entries.length

def isEmpty (s : Symbols) : Bool := s.entries.isEmpty

/-- Binds a name in a list of bindings: at its place, or at the end if it is new. -/
def assignIn (name : String) (value : Int) : List (String × Int) → List (String × Int)
  | [] => [(name, value)]
  | entry :: rest =>
    if entry.1 = name then (name, value) :: rest else entry :: assignIn name value rest

def assign (s : Symbols) (name : String) (value : Int) : Symbols :=
  ⟨assignIn name value s.entries⟩

/-- The place of a name, which is the place that it would take if it is not bound. -/
def index (s : Symbols) (name : String) : Nat := s.entries.findIdx (·.1 == name)

def assignIndexed (s : Symbols) (name : String) (value : Int) : Symbols × Nat :=
  (s.assign name value, s.index name)

def lookup? (s : Symbols) (name : String) : Option Int := Association.find? name s.entries

def names (s : Symbols) : List String := s.entries.map Prod.fst

theorem find?_assignIn (name other : String) (value : Int) (entries : List (String × Int)) :
    Association.find? other (assignIn name value entries) =
      if name = other then some value else Association.find? other entries := by
  induction entries with
  | nil => simp [assignIn, Association.find?_cons]
  | cons entry rest ih =>
    simp only [assignIn]
    split
    · next same => subst same; simp only [Association.find?_cons]; split <;> rfl
    · next different =>
      simp only [Association.find?_cons, ih]
      by_cases same : entry.1 = other
      · subst same; simp [Ne.symm different]
      · simp [same]

@[simp] theorem lookup?_assign (s : Symbols) (name other : String) (value : Int) :
    (s.assign name value).lookup? other =
      if name = other then some value else s.lookup? other :=
  find?_assignIn name other value s.entries

end Symbols

end ShiftReduce.Calculator
