import Mathlib.Data.List.Induction
import ShiftReduce.Proofs.Json.Scalars

namespace ShiftReduce.Text

open Json (HexDigit hexValue?_eq)

/-- A run of hexadecimal digits, in either case, that denotes this number. It is one digit, or a
numeral with one more digit behind it, and may start with zeros. -/
inductive HexNumeral : List Char → Nat → Prop where
  | digit {c : Char} {value : Nat} : HexDigit c value → HexNumeral [c] value
  | snoc {cs : List Char} {n : Nat} {c : Char} {value : Nat} : HexNumeral cs n →
      HexDigit c value → HexNumeral (cs ++ [c]) (16 * n + value)

variable {cs : List Char} {c : Char} {n value : Nat}

theorem hexDigit_digitChar (small : value < 16) : HexDigit (Nat.digitChar value) value :=
  ⟨small, .inl rfl⟩

/-- The digits are few enough to be looked at one by one. -/
theorem hexDigit_of_hexValue? (read : hexValue? c = some value) : HexDigit c value := by
  have digits : ∀ code < 128, ∀ v ∈ hexValue? (Char.ofNat code), HexDigit (Char.ofNat code) v := by
    unfold HexDigit
    decide
  have ascii : c.toNat < 128 := by
    unfold hexValue? at read
    split at read
    · next decimal => exact Nat.lt_of_le_of_lt (UInt32.le_iff_toNat_le.mp decimal.2) (by decide)
    · split at read
      · next lower => exact Nat.lt_of_le_of_lt (UInt32.le_iff_toNat_le.mp lower.2) (by decide)
      · split at read
        · next upper => exact Nat.lt_of_le_of_lt (UInt32.le_iff_toNat_le.mp upper.2) (by decide)
        · contradiction
  have digit := digits c.toNat ascii value
  rw [Char.ofNat_toNat] at digit
  exact digit read

theorem hexadecimal?_snoc (nonempty : cs ≠ []) :
    hexadecimal? (cs ++ [c]) =
      (hexadecimal? cs).bind fun n => (hexValue? c).map fun value => 16 * n + value := by
  simp only [hexadecimal?, List.isEmpty_iff, nonempty, List.append_eq_nil_iff, false_and, if_false,
    List.mapM_append, List.mapM_cons, List.mapM_nil]
  cases cs.mapM hexValue? with
  | none => rfl
  | some values =>
    cases hexValue? c with
    | none => rfl
    | some value => simp [ofDigits_append]

theorem hexadecimal?_singleton (c : Char) : hexadecimal? [c] = hexValue? c := by
  cases read : hexValue? c <;> simp [hexadecimal?, List.mapM_cons, ofDigits, read]

theorem hexadecimal?_eq_some_iff : hexadecimal? cs = some n ↔ HexNumeral cs n := by
  constructor
  · intro read
    induction cs using List.reverseRecOn generalizing n with
    | nil => contradiction
    | append_singleton cs c ih =>
      by_cases empty : cs = []
      · subst empty
        rw [List.nil_append, hexadecimal?_singleton] at read
        exact .digit (hexDigit_of_hexValue? read)
      · rw [hexadecimal?_snoc empty] at read
        obtain ⟨front, before, read⟩ := Option.bind_eq_some_iff.mp read
        obtain ⟨value, last, rfl⟩ := Option.map_eq_some_iff.mp read
        exact .snoc (ih before) (hexDigit_of_hexValue? last)
  · intro numeral
    induction numeral with
    | digit digit => rw [hexadecimal?_singleton, hexValue?_eq digit]
    | @snoc cs n c value before digit ih =>
      have nonempty : cs ≠ [] := by
        rintro rfl
        contradiction
      rw [hexadecimal?_snoc nonempty, ih, hexValue?_eq digit]
      rfl

theorem HexNumeral.digits (numeral : HexNumeral cs n) : ∀ c ∈ cs, ∃ value, HexDigit c value := by
  induction numeral with
  | digit digit => exact List.forall_mem_singleton.mpr ⟨_, digit⟩
  | snoc _ digit ih =>
    exact List.forall_mem_append.mpr ⟨ih, List.forall_mem_singleton.mpr ⟨_, digit⟩⟩

/-- A number's own digits are a numeral of it. -/
theorem hexNumeral_hexDigits (n : Nat) : HexNumeral (hexDigits n) n := by
  unfold hexDigits
  induction n using Nat.strongRecOn with
  | ind n ih =>
    rw [Nat.toDigits_eq_if (by decide)]
    split
    · next small => exact .digit (hexDigit_digitChar small)
    · next large =>
      have before := ih (n / 16) (by omega)
      have behind := before.snoc (hexDigit_digitChar (Nat.mod_lt n (by decide)))
      rwa [Nat.div_add_mod] at behind

end ShiftReduce.Text
