import Mathlib.Data.List.DropRight
import ShiftReduce.Text.Blank
import ShiftReduce.Text.Split

namespace ShiftReduce.Text

/-! ## Trimmed texts -/

/-- The core is left when blanks are cut off at both ends, and no blank is left to be cut off. -/
structure Trimmed (whole core : List Char) : Prop where
  around : ∃ before behind, whole = before ++ (core ++ behind) ∧
    (∀ c ∈ before, isBlank c = true) ∧ ∀ c ∈ behind, isBlank c = true
  first : ∀ c ∈ core.head?, isBlank c = false
  last : ∀ c ∈ core.getLast?, isBlank c = false

theorem dropWhile_of_head? {p : Char → Bool} {cs : List Char} (kept : ∀ c ∈ cs.head?, p c = false) :
    cs.dropWhile p = cs := by
  cases cs with
  | nil => rfl
  | cons c cs => rw [List.dropWhile_cons_of_neg (by simp [kept c rfl])]

variable {whole core : List Char}

theorem trim_eq (cs : List Char) : trim cs = (cs.dropWhile isBlank).rdropWhile isBlank := rfl

theorem trimmed_trim (cs : List Char) : Trimmed cs (trim cs) := by
  rw [trim_eq]
  refine ⟨⟨cs.takeWhile isBlank, (cs.dropWhile isBlank).rtakeWhile isBlank, ?_, ?_, ?_⟩, ?_, ?_⟩
  · rw [List.rdropWhile_append_rtakeWhile, List.takeWhile_append_dropWhile]
  · exact fun c => List.mem_takeWhile_imp
  · exact fun c => List.mem_rtakeWhile_imp
  · intro c first
    obtain ⟨cut, same⟩ := List.rdropWhile_prefix isBlank (l := cs.dropWhile isBlank)
    have leads : c ∈ (cs.dropWhile isBlank).head? := by
      rw [← same, List.head?_append, Option.mem_def.mp first]
      rfl
    have refused := List.head?_dropWhile_not isBlank cs
    rwa [Option.mem_def.mp leads] at refused
  · intro c last
    obtain ⟨nonempty, rfl⟩ := List.mem_getLast?_eq_getLast last
    simpa using List.rdropWhile_last_not isBlank _ nonempty

theorem Trimmed.trim_eq (trimmed : Trimmed whole core) : trim whole = core := by
  obtain ⟨⟨before, behind, rfl, leading, trailing⟩, first, last⟩ := trimmed
  have front : (before ++ (core ++ behind)).dropWhile isBlank = (core ++ behind).dropWhile isBlank :=
    List.dropWhile_append_of_pos leading
  have back : (core ++ behind).rdropWhile isBlank = core := by
    rw [List.rdropWhile, List.reverse_append, List.dropWhile_append_of_pos (by simpa using trailing),
      dropWhile_of_head? (by simpa using last), List.reverse_reverse]
  cases core with
  | nil =>
    rw [Text.trim_eq, front, List.nil_append, List.dropWhile_eq_nil_iff.mpr trailing]
    rfl
  | cons c core =>
    rw [Text.trim_eq, front, dropWhile_of_head? (by simpa using first), back]

/-- A trimmed text begins as the whole does, if that is not with a blank. -/
theorem Trimmed.head? {c : Char} {cs : List Char} (trimmed : Trimmed (c :: cs) core)
    (solid : isBlank c = false) : core.head? = some c := by
  obtain ⟨⟨before, behind, same, leading, trailing⟩, _, _⟩ := trimmed
  cases before with
  | cons d before =>
    obtain ⟨rfl, _⟩ := List.cons.inj same
    exact absurd (leading c List.mem_cons_self) (by simp [solid])
  | nil =>
    cases core with
    | nil =>
      obtain rfl : c :: cs = behind := same
      exact absurd (trailing c List.mem_cons_self) (by simp [solid])
    | cons d core =>
      obtain ⟨rfl, _⟩ := List.cons.inj same
      rfl

/-! ## Pieces between separators -/

/-- The text consists of these pieces, with the separator between them and nowhere else. -/
structure Joined (separator : Char) (pieces : List (List Char)) (text : List Char) : Prop where
  whole : [separator].intercalate pieces = text
  nonempty : pieces ≠ []
  apart : ∀ piece ∈ pieces, separator ∉ piece

theorem joined_split (separator : Char) (cs : List Char) :
    Joined separator (split separator cs) cs :=
  ⟨intercalate_split separator cs, split_ne_nil separator cs, fun _ => not_mem_of_mem_split⟩

theorem split_cons_of_ne {separator c : Char} (different : c ≠ separator) (cs : List Char) :
    ∃ piece pieces, split separator (c :: cs) = (c :: piece) :: pieces := by
  simp only [split, if_neg different]
  split
  · exact ⟨_, _, rfl⟩
  · exact ⟨_, _, rfl⟩

theorem split_eq_splitOn (separator : Char) (cs : List Char) :
    split separator cs = cs.splitOn separator := by
  have joined := joined_split separator cs
  rw [← List.splitOn_intercalate separator joined.apart joined.nonempty, joined.whole]

theorem joined_iff {separator : Char} {pieces : List (List Char)} {text : List Char} :
    Joined separator pieces text ↔ split separator text = pieces := by
  constructor
  · intro joined
    rw [split_eq_splitOn, ← joined.whole]
    exact List.splitOn_intercalate separator joined.apart joined.nonempty
  · rintro rfl
    exact joined_split separator text

end ShiftReduce.Text
