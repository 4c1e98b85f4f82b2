namespace ShiftReduce.Text

/-- The parts before and behind the first occurrence, if there is one. -/
def splitFirst (separator : Char) : List Char → Option (List Char × List Char)
  | [] => none
  | c :: cs =>
    if c = separator then some ([], cs)
    else (splitFirst separator cs).map fun parts => (c :: parts.1, parts.2)

/-- The parts between the occurrences, which may be empty. There is always one at least. -/
def split (separator : Char) : List Char → List (List Char)
  | [] => [[]]
  | c :: cs =>
    if c = separator then [] :: split separator cs
    else
      match split separator cs with
      | part :: parts => (c :: part) :: parts
      | [] => [[c]]

theorem eq_of_splitFirst {separator : Char} {cs before behind : List Char}
    (h : splitFirst separator cs = some (before, behind)) :
    cs = before ++ separator :: behind ∧ separator ∉ before := by
  induction cs generalizing before with
  | nil => simp [splitFirst] at h
  | cons c cs ih =>
    simp only [splitFirst] at h
    split at h
    · next same =>
      simp only [Option.some.injEq, Prod.mk.injEq] at h
      obtain ⟨rfl, rfl⟩ := h
      simp [same]
    · next different =>
      obtain ⟨⟨front, back⟩, found, same⟩ := Option.map_eq_some_iff.mp h
      simp only [Prod.mk.injEq] at same
      obtain ⟨rfl, rfl⟩ := same
      obtain ⟨rfl, absent⟩ := ih found
      simp [absent, Ne.symm different]

theorem splitFirst_append {separator : Char} {before behind : List Char}
    (absent : separator ∉ before) :
    splitFirst separator (before ++ separator :: behind) = some (before, behind) := by
  induction before with
  | nil => simp [splitFirst]
  | cons c cs ih =>
    rw [List.mem_cons, not_or] at absent
    simp [splitFirst, Ne.symm absent.1, ih absent.2]

theorem split_ne_nil (separator : Char) (cs : List Char) : split separator cs ≠ [] := by
  cases cs with
  | nil => simp [split]
  | cons c cs =>
    simp only [split]
    split
    · simp
    · split <;> simp

theorem intercalate_split (separator : Char) (cs : List Char) :
    [separator].intercalate (split separator cs) = cs := by
  induction cs with
  | nil => rfl
  | cons c cs ih =>
    simp only [split]
    cases parts : split separator cs with
    | nil => exact absurd parts (split_ne_nil separator cs)
    | cons part rest =>
      rw [parts] at ih
      split
      · next same => subst same; rw [← ih]; rfl
      · rw [← ih]
        cases rest <;> simp [List.intercalate, List.intersperse]

theorem not_mem_of_mem_split {separator : Char} {cs part : List Char}
    (member : part ∈ split separator cs) : separator ∉ part := by
  induction cs generalizing part with
  | nil => simp_all [split]
  | cons c cs ih =>
    simp only [split] at member
    split at member
    · rcases List.mem_cons.mp member with rfl | inside
      · simp
      · exact ih inside
    · next different =>
      cases parts : split separator cs with
      | nil => exact absurd parts (split_ne_nil separator cs)
      | cons first rest =>
        rw [parts] at ih member
        rcases List.mem_cons.mp member with rfl | inside
        · simp [Ne.symm different, ih List.mem_cons_self]
        · exact ih (List.mem_cons_of_mem _ inside)

end ShiftReduce.Text
