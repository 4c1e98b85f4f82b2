import ShiftReduce.Proofs.Calculator.Reading
import ShiftReduce.Text.Split

namespace ShiftReduce.Calculator

theorem Kind.takes_newline (kind : Kind) : kind.takes '\n' = false := by
  cases kind <;> decide

theorem munchFrom_newline (kind : Kind) (text cs rest : List Char) :
    munchFrom kind text (cs ++ '\n' :: rest) = munchFrom kind text cs ++ munch ('\n' :: rest) := by
  induction cs generalizing kind text with
  | nil => simp [munchFrom, munch, kind.takes_newline]
  | cons c cs ih =>
    rw [List.cons_append]
    unfold munchFrom
    split
    · exact ih _ _
    · rw [ih, List.cons_append]

theorem munch_newline (cs rest : List Char) :
    munch (cs ++ '\n' :: rest) = munch cs ++ ⟨.other, ['\n']⟩ :: munch rest := by
  have newline : munch ('\n' :: rest) = ⟨.other, ['\n']⟩ :: munch rest := by
    have kind : Kind.ofChar '\n' = .other := by decide
    rw [munch_cons, kind]
    cases rest <;> rfl
  cases cs with
  | nil => exact newline
  | cons c cs =>
    rw [← newline]
    exact munchFrom_newline _ _ cs rest

theorem tokens_newline (cs rest : List Char) :
    tokens (cs ++ '\n' :: rest) = tokens cs ++ .newline :: tokens rest := by
  rw [tokens, munch_newline, List.filterMap_append]
  rfl

/-- Runs are cut from the characters of the source. -/
theorem munchFrom_chars {kind : Kind} {text cs : List Char} {piece : Piece}
    (member : piece ∈ munchFrom kind text cs) {c : Char} (inside : c ∈ piece.text) :
    c ∈ text ∨ c ∈ cs := by
  induction cs generalizing kind text with
  | nil =>
    rw [munchFrom, List.mem_singleton] at member
    subst member
    exact .inl inside
  | cons d ds ih =>
    unfold munchFrom at member
    split at member
    · rcases ih member with head | tail
      · rcases List.mem_append.mp head with before | last
        · exact .inl before
        · rw [List.mem_singleton.mp last]
          exact .inr (by simp)
      · exact .inr (by simp [tail])
    · rcases List.mem_cons.mp member with rfl | later
      · exact .inl inside
      · rcases ih later with head | tail
        · rw [List.mem_singleton.mp head]
          exact .inr (by simp)
        · exact .inr (by simp [tail])

/-- Only a newline makes the token of a newline. -/
theorem Piece.newline_mem {piece : Piece} (made : piece.token? = some .newline) :
    '\n' ∈ piece.text := by
  obtain ⟨kind, text⟩ := piece
  cases kind with
  | blank | comment | digits | name => simp [Piece.token?] at made
  | other =>
    simp only [Piece.token?, Option.map_eq_some_iff] at made
    obtain ⟨c, head, same⟩ := made
    obtain rfl := Token.mark.inj same
    exact List.mem_of_mem_head? head

theorem newline_not_mem_tokens {cs : List Char} (within : '\n' ∉ cs) : .newline ∉ tokens cs := by
  intro member
  obtain ⟨piece, cut, made⟩ := List.mem_filterMap.mp member
  have inside := Piece.newline_mem made
  cases cs with
  | nil => simp [munch] at cut
  | cons d ds =>
    rcases munchFrom_chars cut inside with first | later
    · exact within (List.mem_cons.mpr (.inl (List.mem_singleton.mp first)))
    · exact within (List.mem_cons_of_mem _ later)

/-- The pieces of a source that count as lines: all before a newline, and what is behind the last
newline if it holds a token. -/
def counted : List (List Char) → List (List Char)
  | [] => []
  | [last] => if tokens last = [] then [] else [last]
  | line :: next :: rest => line :: counted (next :: rest)

def sourceLines (source : List Char) : List (List Char) := counted (Text.split '\n' source)

theorem counted_subset {pieces : List (List Char)} {line : List Char}
    (member : line ∈ counted pieces) : line ∈ pieces := by
  induction pieces with
  | nil => exact member
  | cons piece rest ih =>
    cases rest with
    | nil =>
      unfold counted at member
      split at member
      · contradiction
      · exact member
    | cons next rest =>
      rcases List.mem_cons.mp member with rfl | later
      · simp
      · exact List.mem_cons_of_mem _ (ih later)

theorem closeLine_behind (lineOpen : Bool) (ts : List Token) (t : Token) (us : List Token) :
    closeLine lineOpen (ts ++ t :: us) = ts ++ t :: closeLine (t != .newline) us := by
  induction ts generalizing lineOpen with
  | nil => rfl
  | cons u ts ih => rw [List.cons_append, closeLine, ih, List.cons_append]

theorem closeLine_newline (lineOpen : Bool) (line rest : List Token) :
    closeLine lineOpen (line ++ .newline :: rest) = line ++ .newline :: closeLine false rest :=
  closeLine_behind lineOpen line .newline rest

theorem closeLine_last {line : List Token} (within : .newline ∉ line) (nonempty : line ≠ []) :
    closeLine false line = line ++ [.newline] := by
  suffices ∀ lineOpen, (line = [] → lineOpen = true) →
      closeLine lineOpen line = line ++ [.newline] from
    this false fun empty => absurd empty nonempty
  clear nonempty
  induction line with
  | nil =>
    intro lineOpen isOpen
    rw [isOpen rfl]
    rfl
  | cons t ts ih =>
    rw [List.mem_cons, not_or] at within
    intro lineOpen _
    rw [closeLine, ih within.2 _ fun _ => ?_, List.cons_append]
    simpa using Ne.symm within.1

/-- What the scanner delivers are the tokens of the lines, each behind the other and each closed
by a newline. -/
theorem closeLine_tokens (source : List Char) : closeLine false (tokens source) =
    (sourceLines source).flatMap fun line => tokens line ++ [.newline] := by
  suffices ∀ pieces : List (List Char), (∀ piece ∈ pieces, '\n' ∉ piece) →
      closeLine false (tokens (['\n'].intercalate pieces)) =
        (counted pieces).flatMap fun line => tokens line ++ [.newline] by
    have split := this (Text.split '\n' source) fun _ => Text.not_mem_of_mem_split
    rwa [Text.intercalate_split] at split
  intro pieces within
  induction pieces with
  | nil => rfl
  | cons piece rest ih =>
    obtain ⟨first, later⟩ := List.forall_mem_cons.mp within
    cases rest with
    | nil =>
      have single : ['\n'].intercalate [piece] = piece := by simp [List.intercalate]
      rw [single, counted]
      split
      · next empty =>
        rw [empty]
        rfl
      · next nonempty =>
        rw [closeLine_last (newline_not_mem_tokens first) nonempty]
        simp
    | cons next rest =>
      have joined : ['\n'].intercalate (piece :: next :: rest) =
          piece ++ '\n' :: ['\n'].intercalate (next :: rest) := by
        simp [List.intercalate, List.intersperse]
      rw [joined, tokens_newline, closeLine_newline, ih later, counted, List.flatMap_cons]
      simp

/-- The lines of a source without a number that is too large can be read. -/
theorem inline_of_mem_sourceLines {source : List Char} (fit : ∀ t ∈ tokens source, t.Fits)
    {line : List Char} (member : line ∈ sourceLines source) : Inline (tokens line) := by
  intro t inside
  constructor
  · have closed := (@fits_closeLine false _).mpr fit
    rw [closeLine_tokens] at closed
    refine closed t (List.mem_flatMap.mpr ⟨line, member, ?_⟩)
    exact List.mem_append_left _ inside
  · rintro rfl
    exact newline_not_mem_tokens (Text.not_mem_of_mem_split (counted_subset member)) inside

/-- Behind a newline, the tokens of a source go on as those of a source of their own. -/
theorem closeLine_append {first : List Char} (ended : first = [] ∨ ∃ text, first = text ++ ['\n'])
    (second : List Char) : closeLine false (tokens (first ++ second)) =
      closeLine false (tokens first) ++ closeLine false (tokens second) := by
  rcases ended with rfl | ⟨text, rfl⟩
  · rfl
  · have alone : tokens (text ++ ['\n']) = tokens text ++ [.newline] := tokens_newline text []
    rw [alone, List.append_assoc, List.singleton_append, tokens_newline, closeLine_newline,
      closeLine_newline]
    simp [closeLine]

end ShiftReduce.Calculator
