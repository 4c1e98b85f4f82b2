import ShiftReduce.Proofs.Hexadecimal
import ShiftReduce.Text.Escape
import ShiftReduce.Text.Split

namespace ShiftReduce.Text

variable {c : Char} {cs ds rest rest' : List Char}

theorem intercalate_cons (separator part : List Char) (parts : List (List Char)) :
    separator.intercalate (part :: parts) = part ++ parts.flatMap (separator ++ ·) := by
  induction parts generalizing part with
  | nil => simp [List.intercalate]
  | cons next parts ih => simp [List.intercalate_cons_cons, ih]

/-! ## Printable texts -/

/-- All characters of the text are printable ones of ASCII. -/
def Printable (cs : List Char) : Prop := ∀ c ∈ cs, ' ' ≤ c ∧ c ≤ '~'

-- Named, since an instance for all characters would go through every one of them.
instance : DecidablePred Printable := fun cs => List.decidableBAll _ cs

@[simp] theorem printable_append : Printable (cs ++ ds) ↔ Printable cs ∧ Printable ds :=
  List.forall_mem_append

theorem Printable.intercalate {separator : List Char} (between : Printable separator)
    {parts : List (List Char)} (within : ∀ part ∈ parts, Printable part) :
    Printable (separator.intercalate parts) := by
  cases parts with
  | nil => exact List.forall_mem_nil _
  | cons part parts =>
    obtain ⟨first, later⟩ := List.forall_mem_cons.mp within
    rw [intercalate_cons, printable_append]
    refine ⟨first, fun c member => ?_⟩
    obtain ⟨next, inside, member⟩ := List.mem_flatMap.mp member
    exact (List.mem_append.mp member).elim (between c) (later next inside c)

theorem printable_hexDigits (n : Nat) : Printable (hexDigits n) := by
  have digits : ∀ v < 16, Printable [Nat.digitChar v, (Nat.digitChar v).toUpper] := by decide
  intro c member
  obtain ⟨value, small, same⟩ := (hexNumeral_hexDigits n).digits c member
  exact digits value small c (by simpa using same)

theorem printable_escapeChar (c : Char) : Printable (escapeChar c) := by
  fun_cases escapeChar c with
  | case1 | case2 | case3 => decide
  | case4 _ _ _ quoted => rcases quoted with rfl | rfl | rfl <;> decide
  | case5 _ _ _ _ visible => simpa [Printable, isVisible] using visible
  | case6 =>
    refine printable_append.mpr ⟨printable_append.mpr ⟨by decide, ?_⟩, by decide⟩
    exact printable_hexDigits c.toNat

theorem printable_escape (cs : List Char) : Printable (escape cs) := by
  induction cs with
  | nil => exact List.forall_mem_nil _
  | cons c cs ih => simpa using ⟨printable_escapeChar c, ih⟩

theorem Printable.newline_not_mem (printable : Printable cs) : '\n' ∉ cs := fun member =>
  absurd (printable '\n' member).1 (by decide)

/-! ## Reading back -/

/-- A form that can be told off the front of every text that begins with it. -/
def PrefixFree {α : Type} (form : α → List Char) : Prop :=
  ∀ a b rest rest', form a ++ rest = form b ++ rest' → a = b ∧ rest = rest'

theorem PrefixFree.injective {α : Type} {form : α → List Char} (free : PrefixFree form) :
    Function.Injective form := fun a b same => (free a b [] [] (by rw [same])).1

section Joined

variable {α : Type} {form : α → List Char} (free : PrefixFree form) {separator : List Char}
include free

theorem PrefixFree.followers_inj (apart : separator ≠ []) {as bs : List α}
    (same : as.flatMap (separator ++ form ·) = bs.flatMap (separator ++ form ·)) : as = bs := by
  induction as generalizing bs with
  | nil => cases bs <;> simp_all
  | cons a as ih =>
    cases bs with
    | nil => simp_all
    | cons b bs =>
      simp only [List.flatMap_cons, List.append_assoc, List.append_cancel_left_eq] at same
      obtain ⟨rfl, behind⟩ := free _ _ _ _ same
      rw [ih behind]

/-- Joined forms are told apart again, as none of them is empty. -/
theorem PrefixFree.intercalate_inj (solid : ∀ a, form a ≠ []) (apart : separator ≠ [])
    {as bs : List α}
    (same : separator.intercalate (as.map form) = separator.intercalate (bs.map form)) :
    as = bs := by
  have visible (a : α) (as : List α) : separator.intercalate ((a :: as).map form) ≠ [] := by
    rw [List.map_cons, intercalate_cons]
    exact List.append_ne_nil_of_left_ne_nil (solid a) _
  cases as with
  | nil =>
    cases bs with
    | nil => rfl
    | cons b bs => exact absurd same.symm (visible b bs)
  | cons a as =>
    cases bs with
    | nil => exact absurd same (visible a as)
    | cons b bs =>
      simp only [List.map_cons, intercalate_cons, List.flatMap_map] at same
      obtain ⟨rfl, behind⟩ := free _ _ _ _ same
      rw [free.followers_inj apart behind]

end Joined

/-- Reads the first character off an escaped text. There is none at an apostrophe. -/
def readEscaped : List Char → Option (Char × List Char)
  | '\\' :: 't' :: rest => some ('\t', rest)
  | '\\' :: 'r' :: rest => some ('\r', rest)
  | '\\' :: 'n' :: rest => some ('\n', rest)
  | '\\' :: 'u' :: '\x7b' :: rest =>
    (splitFirst '\x7d' rest).bind fun (digits, rest) =>
      (hexadecimal? digits).map fun code => (Char.ofNat code, rest)
  | '\\' :: c :: rest => some (c, rest)
  | '\'' :: _ => none
  | c :: rest => some (c, rest)
  | [] => none

theorem brace_not_mem_hexDigits (n : Nat) : '\x7d' ∉ hexDigits n := by
  intro member
  obtain ⟨value, small, same⟩ := (hexNumeral_hexDigits n).digits _ member
  revert value
  decide

theorem readEscaped_code (c : Char) (rest : List Char) :
    readEscaped (escapeCode c ++ rest) = some (c, rest) := by
  have numeral := hexNumeral_hexDigits c.toNat
  have closed : '\x7d' ∉ hexDigits c.toNat := brace_not_mem_hexDigits c.toNat
  have digits : splitFirst '\x7d' (hexDigits c.toNat ++ '\x7d' :: rest) =
      some (hexDigits c.toNat, rest) := splitFirst_append closed
  simp [escapeCode, readEscaped, digits, hexadecimal?_eq_some_iff.mpr numeral, Char.ofNat_toNat]

theorem readEscaped_escapeChar (c : Char) (rest : List Char) :
    readEscaped (escapeChar c ++ rest) = some (c, rest) := by
  fun_cases escapeChar c with
  | case1 same | case2 _ same | case3 _ _ same => rw [same]; rfl
  | case4 _ _ _ quoted => rcases quoted with rfl | rfl | rfl <;> rfl
  | case5 _ _ _ plain =>
    simp only [not_or] at plain
    obtain ⟨apostrophe, _, backslash⟩ := plain
    rw [List.singleton_append]
    unfold readEscaped
    split <;> simp_all
  | case6 => exact readEscaped_code c rest

theorem readEscaped_cons (c : Char) (cs rest : List Char) :
    readEscaped (escape (c :: cs) ++ rest) = some (c, escape cs ++ rest) := by
  rw [escape_cons, List.append_assoc, readEscaped_escapeChar]

/-- An escaped text ends at the first apostrophe that is not escaped itself. -/
theorem escape_apostrophe_inj
    (same : escape cs ++ '\'' :: rest = escape ds ++ '\'' :: rest') : cs = ds ∧ rest = rest' := by
  -- Both sides are read from the front. Where one is at its apostrophe, so is the other.
  induction cs generalizing ds with
  | nil =>
    cases ds with
    | nil => exact ⟨rfl, (List.cons.inj same).2⟩
    | cons d ds =>
      have front := congrArg readEscaped same
      rw [readEscaped_cons] at front
      contradiction
  | cons c cs ih =>
    have front := congrArg readEscaped same
    rw [readEscaped_cons] at front
    cases ds with
    | nil => contradiction
    | cons d ds =>
      rw [readEscaped_cons] at front
      obtain ⟨rfl, behind⟩ := Prod.mk.inj (Option.some.inj front)
      obtain ⟨rfl, rfl⟩ := ih behind
      exact ⟨rfl, rfl⟩

end ShiftReduce.Text
