import ShiftReduce.Proofs.Tables

namespace ShiftReduce

section LastPair

variable {κ α : Type} [DecidableEq κ]

/-- The value of the last pair with this key. -/
def Association.last? (key : κ) (pairs : List (κ × α)) : Option α :=
  Association.find? key pairs.reverse

theorem Association.find?_append (key : κ) (front back : List (κ × α)) :
    find? key (front ++ back) = (find? key front).or (find? key back) := by
  induction front with
  | nil => rfl
  | cons pair rest ih =>
    rw [List.cons_append, find?_cons, find?_cons, ih]
    split <;> rfl

@[simp] theorem Association.last?_nil (key : κ) : last? key ([] : List (κ × α)) = none := rfl

theorem Association.last?_cons (key : κ) (pair : κ × α) (rest : List (κ × α)) :
    last? key (pair :: rest) = (last? key rest).or (if pair.1 = key then some pair.2 else none) := by
  simp only [last?, List.reverse_cons, find?_append, find?_cons, find?_nil]

theorem Association.find?_eq_none {key : κ} {pairs : List (κ × α)}
    (absent : key ∉ pairs.map Prod.fst) : find? key pairs = none := by
  rw [← find?_isSome_iff] at absent
  simpa using absent

theorem Association.mem_iff_find? {pairs : List (κ × α)} (nodup : (pairs.map Prod.fst).Nodup)
    {key : κ} {value : α} : (key, value) ∈ pairs ↔ find? key pairs = some value := by
  refine ⟨fun member => ?_, mem_of_find?⟩
  induction pairs with
  | nil => contradiction
  | cons first rest ih =>
    obtain ⟨fresh, nodup⟩ := List.nodup_cons.mp nodup
    rw [find?_cons]
    rcases List.mem_cons.mp member with same | inside
    · simp [← same]
    · have different : first.1 ≠ key := by
        rintro rfl
        exact fresh (List.mem_map.mpr ⟨_, inside, rfl⟩)
      rw [if_neg different]
      exact ih nodup inside

theorem Association.last?_eq_find? {pairs : List (κ × α)} (nodup : (pairs.map Prod.fst).Nodup)
    (key : κ) : last? key pairs = find? key pairs := by
  induction pairs with
  | nil => rfl
  | cons first rest ih =>
    obtain ⟨fresh, nodup⟩ := List.nodup_cons.mp nodup
    rw [last?_cons, find?_cons, ih nodup]
    split
    · next same => rw [find?_eq_none (same ▸ fresh), Option.none_or]
    · exact Option.or_none

end LastPair

namespace OrderedMap

variable {κ α β δ : Type}

section Values

variable {f : α → Except δ β} {m : OrderedMap κ α}

/-- Converted values stand under the keys of the values that they come from. -/
theorem rel_of_mapValues [DecidableEq κ] {converted : OrderedMap κ β}
    (passed : m.mapValues f = .ok converted) (key : κ) :
    Option.Rel (fun a b => f a = .ok b) (m.get? key) (converted.get? key) := by
  obtain ⟨pairs, entries, rfl⟩ := map_eq_ok_iff.mp passed
  have converted := map_eq_of_mapM entries
  clear passed entries
  unfold get?
  generalize m.entries = given at converted
  induction given generalizing pairs with
  | nil =>
    cases pairs with
    | nil => exact .none
    | cons => contradiction
  | cons entry rest ih =>
    cases pairs with
    | nil => contradiction
    | cons pair pairs =>
      obtain ⟨head, tail⟩ := List.cons.inj converted
      obtain ⟨b, passes, rfl⟩ := map_eq_ok_iff.mp head
      rw [Association.find?_cons, Association.find?_cons]
      split
      · exact .some passes
      · exact ih pairs tail

theorem culprit_of_mapValues {e : δ} (failed : m.mapValues f = .error e) :
    ∃ entry ∈ m.entries, f entry.2 = .error e := by
  obtain ⟨_, entry, found, fails, _⟩ := failure_of_mapM (map_eq_error_iff.mp failed)
  exact ⟨entry, List.mem_of_getElem? found, map_eq_error_iff.mp fails⟩

end Values

section Order

variable [LT κ]

/-- The keys increase strictly, so none is repeated. -/
def Increasing (entries : List (κ × α)) : Prop := entries.Pairwise (·.1 < ·.1)

variable [DecidableEq κ] [DecidableLT κ]

theorem get?_foldl (entries : List (κ × α)) (m : OrderedMap κ α) (key : κ) :
    (entries.foldl (fun m entry => m.insert entry.1 entry.2) m).get? key =
      (Association.last? key entries).or (m.get? key) := by
  induction entries generalizing m with
  | nil => rfl
  | cons entry rest ih =>
    rw [List.foldl_cons, ih, get?_insert, Association.last?_cons, Option.or_assoc]
    congr 1
    split <;> rfl

theorem get?_ofList (entries : List (κ × α)) (key : κ) :
    (ofList entries).get? key = Association.last? key entries := by
  rw [ofList, get?_foldl]
  exact Option.or_none

theorem key_of_mem_insertEntry {key : κ} {value : α} {entries : List (κ × α)} {entry : κ × α}
    (member : entry ∈ insertEntry key value entries) : entry.1 = key ∨ entry ∈ entries := by
  induction entries with
  | nil => exact .inl (by rw [List.mem_singleton.mp member])
  | cons first rest ih =>
    unfold insertEntry at member
    split at member
    · rcases List.mem_cons.mp member with rfl | inside
      · exact .inl rfl
      · exact .inr (List.mem_cons_of_mem _ inside)
    · split at member
      · rcases List.mem_cons.mp member with rfl | inside
        · exact .inl rfl
        · exact .inr inside
      · rcases List.mem_cons.mp member with rfl | inside
        · exact .inr List.mem_cons_self
        · exact (ih inside).imp id (List.mem_cons_of_mem _)

end Order

variable [DecidableEq κ] [LE κ] [LT κ] [DecidableLT κ] [Std.IsLinearOrder κ] [Std.LawfulOrderLT κ]

theorem increasing_insertEntry (key : κ) (value : α) {entries : List (κ × α)}
    (increasing : Increasing entries) : Increasing (insertEntry key value entries) := by
  induction entries with
  | nil => exact List.pairwise_singleton _ _
  | cons first rest ih =>
    obtain ⟨below, rest_increasing⟩ := List.pairwise_cons.mp increasing
    unfold insertEntry
    split
    · next same => exact List.pairwise_cons.mpr ⟨same ▸ below, rest_increasing⟩
    · next different =>
      split
      · next before =>
        refine List.pairwise_cons.mpr ⟨?_, increasing⟩
        intro entry member
        rcases List.mem_cons.mp member with rfl | inside
        · exact before
        · exact Std.lt_trans before (below entry inside)
      · next behind =>
        refine List.pairwise_cons.mpr ⟨?_, ih rest_increasing⟩
        intro entry member
        rcases key_of_mem_insertEntry member with same | inside
        · rw [same]
          exact Std.lt_of_le_of_ne (Std.not_lt.mp behind) (Ne.symm different)
        · exact below entry inside

theorem increasing_ofList (entries : List (κ × α)) : Increasing (ofList entries).entries := by
  have run (m : OrderedMap κ α) (increasing : Increasing m.entries) :
      Increasing (entries.foldl (fun m entry => m.insert entry.1 entry.2) m).entries := by
    induction entries generalizing m with
    | nil => exact increasing
    | cons entry rest ih => exact ih _ (increasing_insertEntry _ _ increasing)
  exact run {} List.Pairwise.nil

omit [DecidableEq κ] [DecidableLT κ] [Std.IsLinearOrder κ] in
theorem Increasing.nodup {entries : List (κ × α)} (increasing : Increasing entries) :
    (entries.map Prod.fst).Nodup := by
  refine List.pairwise_map.mpr (increasing.imp fun below same => ?_)
  exact Std.lt_irrefl (same ▸ below)

/-- An entry of a map built from a list is the last pair of the list with its key. -/
theorem mem_ofList_iff {entries : List (κ × α)} {key : κ} {value : α} :
    (key, value) ∈ (ofList entries).entries ↔ Association.last? key entries = some value := by
  rw [Association.mem_iff_find? (increasing_ofList entries).nodup, ← get?_ofList]
  rfl

omit [DecidableEq κ] [DecidableLT κ] in
theorem increasing_ext {xs ys : List (κ × α)} (xs_increasing : Increasing xs)
    (ys_increasing : Increasing ys) (same : ∀ entry, entry ∈ xs ↔ entry ∈ ys) : xs = ys := by
  induction xs generalizing ys with
  | nil =>
    cases ys with
    | nil => rfl
    | cons y ys => exact absurd ((same y).mpr List.mem_cons_self) (by simp)
  | cons x xs ih =>
    cases ys with
    | nil => exact absurd ((same x).mp List.mem_cons_self) (by simp)
    | cons y ys =>
      obtain ⟨above_x, xs_rest⟩ := List.pairwise_cons.mp xs_increasing
      obtain ⟨above_y, ys_rest⟩ := List.pairwise_cons.mp ys_increasing
      -- Each head is in the other list; behind its head it would be above itself.
      have heads : x = y := by
        rcases List.mem_cons.mp ((same x).mp List.mem_cons_self) with heads | x_inside
        · exact heads
        · rcases List.mem_cons.mp ((same y).mpr List.mem_cons_self) with heads | y_inside
          · exact heads.symm
          · exact absurd (Std.lt_trans (above_x y y_inside) (above_y x x_inside)) Std.lt_irrefl
      subst heads
      congr 1
      refine ih xs_rest ys_rest fun entry => ⟨fun inside => ?_, fun inside => ?_⟩
      · rcases List.mem_cons.mp ((same entry).mp (List.mem_cons_of_mem _ inside)) with rfl | found
        · exact absurd (above_x _ inside) Std.lt_irrefl
        · exact found
      · rcases List.mem_cons.mp ((same entry).mpr (List.mem_cons_of_mem _ inside)) with rfl | found
        · exact absurd (above_y _ inside) Std.lt_irrefl
        · exact found

/-- Lists that name the same last value for every key make the same map. -/
theorem ofList_congr {xs ys : List (κ × α)}
    (same : ∀ key, Association.last? key xs = Association.last? key ys) : ofList xs = ofList ys := by
  suffices entries : (ofList xs).entries = (ofList ys).entries from congrArg OrderedMap.mk entries
  refine increasing_ext (increasing_ofList xs) (increasing_ofList ys) ?_
  rintro ⟨key, value⟩
  rw [mem_ofList_iff, mem_ofList_iff, same]

end OrderedMap

end ShiftReduce
