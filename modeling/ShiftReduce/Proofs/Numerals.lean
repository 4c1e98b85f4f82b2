import ShiftReduce.Text.Radix

namespace ShiftReduce

/-- A pass over a list succeeds if it does so at every element. -/
theorem mapM_eq_some_iff {α β : Type} {f : α → Option β} {as : List α} {bs : List β} :
    as.mapM f = some bs ↔ as.map f = bs.map some := by
  induction as generalizing bs with
  | nil => cases bs <;> simp
  | cons a as ih =>
    rw [List.mapM_cons, List.map_cons]
    constructor
    · intro passed
      obtain ⟨b, head, passed⟩ := Option.bind_eq_some_iff.mp passed
      obtain ⟨rest, tail, same⟩ := Option.bind_eq_some_iff.mp passed
      obtain rfl := Option.some.inj same
      rw [List.map_cons, head, ih.mp tail]
    · intro image
      cases bs with
      | nil => contradiction
      | cons b bs =>
        obtain ⟨head, tail⟩ := List.cons.inj image
        rw [head, ih.mpr tail]
        rfl

theorem image_of_mapM {α β : Type} {f : α → Option β} {as : List α} {bs : List β}
    (passed : as.mapM f = some bs) {a : α} (member : a ∈ as) : ∃ b ∈ bs, f a = some b := by
  have within : f a ∈ bs.map some := mapM_eq_some_iff.mp passed ▸ List.mem_map_of_mem member
  obtain ⟨b, inside, same⟩ := List.mem_map.mp within
  exact ⟨b, inside, same.symm⟩

theorem mapM_eq_map {α β : Type} {f : α → Option β} (g : α → β) {as : List α}
    (each : ∀ a ∈ as, f a = some (g a)) : as.mapM f = some (as.map g) := by
  rw [mapM_eq_some_iff, List.map_map]
  exact List.map_congr_left each

namespace Text

/-- The text is a run of digits that denotes this number. -/
structure Numeral (cs : List Char) (n : Nat) : Prop where
  nonempty : cs ≠ []
  digits : ∀ c ∈ cs, c.isDigit = true
  value : Nat.ofDigitChars 10 cs 0 = n

theorem mapM_decimalValue? {cs : List Char} (digits : ∀ c ∈ cs, c.isDigit = true) :
    cs.mapM decimalValue? = some (cs.map fun c => c.toNat - '0'.toNat) :=
  mapM_eq_map _ fun c member => if_pos (digits c member)

theorem isDigit_of_mapM_decimalValue? {cs : List Char} {values : List Nat}
    (read : cs.mapM decimalValue? = some values) : ∀ c ∈ cs, c.isDigit = true := by
  intro c member
  obtain ⟨value, _, head⟩ := image_of_mapM read member
  unfold decimalValue? at head
  split at head
  · assumption
  · contradiction

theorem Numeral.decimal? {cs : List Char} {n : Nat} (numeral : Numeral cs n) :
    Text.decimal? cs = some n := by
  obtain ⟨nonempty, digits, rfl⟩ := numeral
  simp [Text.decimal?, nonempty, mapM_decimalValue? digits, ofDigits, Nat.ofDigitChars_eq_foldl,
    List.foldl_map]

theorem decimal?_eq_some_iff {cs : List Char} {n : Nat} : decimal? cs = some n ↔ Numeral cs n := by
  refine ⟨fun read => ?_, Numeral.decimal?⟩
  have digits : ∀ c ∈ cs, c.isDigit = true := by
    unfold decimal? at read
    split at read
    · contradiction
    · obtain ⟨values, read, _⟩ := Option.map_eq_some_iff.mp read
      exact isDigit_of_mapM_decimalValue? read
  have nonempty : cs ≠ [] := by
    rintro rfl
    contradiction
  have value := (Numeral.mk nonempty digits rfl).decimal?
  rw [read] at value
  exact ⟨nonempty, digits, (Option.some.inj value).symm⟩

theorem exists_digitChar {c : Char} (digit : c.isDigit = true) :
    ∃ value < 10, Nat.digitChar value = c := by
  have written : ∀ value < 10, Nat.digitChar value = Char.ofNat (48 + value) := by decide
  simp only [Char.isDigit, Bool.and_eq_true, decide_eq_true_eq, ge_iff_le,
    UInt32.le_iff_toNat_le] at digit
  have lower : 48 ≤ c.toNat := digit.1
  have upper : c.toNat ≤ 57 := digit.2
  refine ⟨c.toNat - 48, by omega, ?_⟩
  rw [written _ (by omega), Nat.add_sub_cancel' lower, Char.ofNat_toNat]

theorem Numeral.unique {cs : List Char} {m n : Nat} (left : Numeral cs m) (right : Numeral cs n) :
    m = n := by
  rw [← left.value, ← right.value]

theorem numeral_digit {c : Char} (digit : c.isDigit = true) :
    Numeral [c] (c.toNat - '0'.toNat) where
  nonempty := List.cons_ne_nil c []
  digits _ member := List.mem_singleton.mp member ▸ digit
  value := by simp [Nat.ofDigitChars_eq_foldl]

end Text

end ShiftReduce
