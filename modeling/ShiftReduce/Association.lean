namespace ShiftReduce.Association

variable {κ α : Type} [DecidableEq κ]

/-- The value of the first pair with this key. -/
def find? (key : κ) : List (κ × α) → Option α
  | [] => none
  | pair :: rest => if pair.1 = key then some pair.2 else find? key rest

@[simp] theorem find?_nil (key : κ) : find? key ([] : List (κ × α)) = none := rfl

theorem find?_cons (key : κ) (pair : κ × α) (rest : List (κ × α)) :
    find? key (pair :: rest) = if pair.1 = key then some pair.2 else find? key rest := rfl

theorem find?_isSome_iff {key : κ} {pairs : List (κ × α)} :
    (find? key pairs).isSome = true ↔ key ∈ pairs.map Prod.fst := by
  induction pairs with
  | nil => simp
  | cons pair rest ih =>
    rw [find?_cons, List.map_cons, List.mem_cons, ← ih]
    split
    · next same => simp [same]
    · next different => simp [Ne.symm different]

end ShiftReduce.Association
