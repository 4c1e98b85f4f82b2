import Mathlib.Data.List.Forall2
import ShiftReduce.Proofs.Hexadecimal
import ShiftReduce.Proofs.TextParts
import ShiftReduce.Proofs.Tracing

/-! The language in which sets of categories are written, said without the reader of it. A text is a
bit mask or a list of words, and the reader accepts the texts of this language and no others. -/

namespace ShiftReduce.Trace.Flags

open Text (HexNumeral Joined Numeral Trimmed)

/-! ## The language -/

/-- The number that a bit mask is written for. A plus sign may follow the mark of a hexadecimal
one. -/
inductive Writes : List Char → Nat → Prop where
  | hexadecimal {mark : Char} {sign digits : List Char} {n : Nat} : mark = 'x' ∨ mark = 'X' →
      sign = [] ∨ sign = ['+'] → HexNumeral digits n → Writes ('0' :: mark :: (sign ++ digits)) n
  | decimal {digits : List Char} {n : Nat} : Numeral digits n → Writes digits n

/-- The word is one that a list may hold. -/
def Known (word : String) : Prop := (∃ c : Category, word = c.name) ∨ word = "all" ∨ word = "none"

/-- The word asks for the category, by its name or with all others. -/
def Names (word : String) (c : Category) : Prop := word = c.name ∨ word = "all"

instance (word : String) (c : Category) : Decidable (Names word c) :=
  inferInstanceAs (Decidable (_ ∨ _))

/-- The piece holds the word. Neither blanks around it nor the case of its letters count. -/
def Holds (piece : List Char) (word : String) : Prop :=
  ∃ core, Trimmed piece core ∧ word = String.ofList (core.map Char.toLower)

/-- The text holds these words between commas. -/
def Lists (text : List Char) (words : List String) : Prop :=
  ∃ pieces, Joined ',' pieces text ∧ List.Forall₂ Holds pieces words

/-- What a text without blanks at its ends stands for. A mask stands for its bits, less those of no
category, and a list for all that its words ask for. -/
inductive Denotes (text : List Char) (flags : Flags) : Prop where
  | mask {n : Nat} (written : Writes text n) (byte : n ≤ 255)
      (bits : flags.bits.toNat = n &&& 0x1f)
  | list {words : List String} (listed : Lists text words) (known : ∀ word ∈ words, Known word)
      (shows : ∀ c, flags.shows c = true ↔ ∃ word ∈ words, Names word c)

variable {f g flags : Flags} {c : Category} {ch : Char}

/-! ## Sets -/

theorem ext_shows (same : ∀ c, f.shows c = true ↔ g.shows c = true) : f = g := by
  have below : f ||| g = g := (within_iff f g).mp fun c => (same c).mp
  have above : g ||| f = f := (within_iff g f).mp fun c => (same c).mpr
  have swap : f ||| g = g ||| f := congrArg Flags.mk (BitVec.or_comm f.bits g.bits)
  rw [← above, ← swap, below]

/-- The bit by which a category is in a set. -/
def bitOf : Category → Nat
  | .token => 0
  | .state => 1
  | .action => 2
  | .stack => 3
  | .recovery => 4

theorem shows_eq (f : Flags) (c : Category) : f.shows c = f.bits.getLsbD (bitOf c) := by
  obtain ⟨bits⟩ := f
  revert bits
  cases c <;> decide

theorem shows_union (f g : Flags) (c : Category) :
    (union f g).shows c = true ↔ f.shows c = true ∨ g.shows c = true := by
  rw [shows_eq, shows_eq, shows_eq, union, BitVec.getLsbD_or, Bool.or_eq_true]

theorem shows_foldl (sets : List Flags) (f : Flags) :
    (sets.foldl union f).shows c = true ↔ f.shows c = true ∨ ∃ set ∈ sets, set.shows c = true := by
  induction sets generalizing f with
  | nil => simp
  | cons set sets ih => simp [ih, shows_union, or_assoc]

theorem shows_none (c : Category) : none.shows c = false := by cases c <;> rfl

theorem shows_all (c : Category) : all.shows c = true := by cases c <;> rfl

theorem shows_only (d c : Category) : (only d).shows c = true ↔ Names d.name c := by
  cases d <;> cases c <;> decide

/-! ## Masks -/

theorem ofBits_eq_iff {n : Nat} : ofBits n = flags ↔ flags.bits.toNat = n &&& 0x1f := by
  have low : n &&& 0x1f = (BitVec.ofNat 5 n).toNat :=
    (Nat.and_two_pow_sub_one_eq_mod n 5).trans (BitVec.toNat_ofNat n 5).symm
  rw [low, BitVec.toNat_inj]
  constructor
  · rintro rfl
    rfl
  · intro same
    rw [ofBits, ← same]

theorem ofMask?_eq_some_iff {number : Option Nat} : ofMask? number = some flags ↔
    ∃ n, number = some n ∧ n ≤ 255 ∧ flags.bits.toNat = n &&& 0x1f := by
  simp only [ofMask?, Option.bind_eq_some_iff, Option.ite_none_right_eq_some, Option.some.injEq,
    ofBits_eq_iff]

/-- The sign is not one of the digits, so it is told apart from them. -/
theorem hexadecimal?_dropPlus {digits : List Char} {n : Nat} :
    Text.hexadecimal? (dropPlus digits) = some n ↔
      ∃ sign rest, digits = sign ++ rest ∧ (sign = [] ∨ sign = ['+']) ∧ HexNumeral rest n := by
  rw [Text.hexadecimal?_eq_some_iff]
  constructor
  · intro numeral
    unfold dropPlus at numeral
    split at numeral
    · exact ⟨['+'], _, rfl, .inr rfl, numeral⟩
    · exact ⟨[], _, rfl, .inl rfl, numeral⟩
  · rintro ⟨sign, rest, rfl, rfl | rfl, numeral⟩
    · unfold dropPlus
      split
      · next plus =>
        have read := Text.hexadecimal?_eq_some_iff.mpr numeral
        rw [List.nil_append] at plus
        simp [plus, Text.hexadecimal?, List.mapM_cons, Text.hexValue?] at read
      · exact numeral
    · exact numeral

/-! ## Lists -/

def wordOf (piece : List Char) : String := String.ofList ((Text.trim piece).map Char.toLower)

theorem holds_iff {piece : List Char} {word : String} : Holds piece word ↔ wordOf piece = word := by
  unfold Holds wordOf
  constructor
  · rintro ⟨core, trimmed, rfl⟩
    rw [trimmed.trim_eq]
  · rintro rfl
    exact ⟨_, Text.trimmed_trim piece, rfl⟩

theorem lists_iff {text : List Char} {words : List String} :
    Lists text words ↔ (Text.split ',' text).map wordOf = words := by
  have holds : Holds = fun piece word => wordOf piece = word := by
    funext piece word
    exact propext holds_iff
  unfold Lists
  rw [holds]
  simp only [Text.joined_iff, exists_eq_left', ← List.forall₂_map_left_iff (f := wordOf),
    List.forall₂_eq_eq_eq]

/-- A word that is known and the set that is read from it ask for the same categories. -/
theorem ofName?_names {name : List Char} {set : Flags} (read : ofName? name = some set) :
    Known (String.ofList (name.map Char.toLower)) ∧
      ∀ c, set.shows c = true ↔ Names (String.ofList (name.map Char.toLower)) c := by
  unfold ofName? at read
  generalize String.ofList (name.map Char.toLower) = word at read ⊢
  dsimp only at read
  split at read
  · next every =>
    obtain rfl := Option.some.inj read
    exact ⟨.inr (.inl every), fun c => ⟨fun _ => .inr every, fun _ => shows_all c⟩⟩
  · next partly =>
    split at read
    · next nothing =>
      obtain rfl := Option.some.inj read
      have unnamed (c : Category) : ¬ Names word c := by
        rw [nothing]
        cases c <;> decide
      exact ⟨.inr (.inr nothing), fun c => by simp [shows_none, unnamed c]⟩
    · obtain ⟨d, found, rfl⟩ := Option.map_eq_some_iff.mp read
      have same : d.name = word := by simpa using List.find?_some found
      rw [← same]
      exact ⟨.inl ⟨d, rfl⟩, shows_only d⟩

theorem exists_ofName? {name : List Char} (known : Known (String.ofList (name.map Char.toLower))) :
    ∃ set, ofName? name = some set := by
  unfold ofName?
  generalize String.ofList (name.map Char.toLower) = word at known ⊢
  rcases known with ⟨c, rfl⟩ | rfl | rfl
  · cases c <;> exact ⟨_, rfl⟩
  · exact ⟨_, rfl⟩
  · exact ⟨_, rfl⟩

variable {pieces : List (List Char)}

theorem ofNames?_names (read : ofNames? pieces = some flags) :
    (∀ piece ∈ pieces, Known (wordOf piece)) ∧
      ∀ c, flags.shows c = true ↔ ∃ piece ∈ pieces, Names (wordOf piece) c := by
  obtain ⟨sets, passed, rfl⟩ := Option.map_eq_some_iff.mp read
  constructor
  · intro piece member
    obtain ⟨set, _, read⟩ := image_of_mapM passed member
    exact (ofName?_names read).1
  · intro c
    rw [shows_foldl, shows_none]
    constructor
    · rintro (nothing | ⟨set, member, shown⟩)
      · contradiction
      · have within : some set ∈ pieces.map fun piece => ofName? (Text.trim piece) := by
          rw [mapM_eq_some_iff.mp passed]
          exact List.mem_map_of_mem member
        obtain ⟨piece, inside, read⟩ := List.mem_map.mp within
        exact ⟨piece, inside, ((ofName?_names read).2 c).mp shown⟩
    · rintro ⟨piece, inside, named⟩
      obtain ⟨set, member, read⟩ := image_of_mapM passed inside
      exact .inr ⟨set, member, ((ofName?_names read).2 c).mpr named⟩

theorem exists_ofNames? (known : ∀ piece ∈ pieces, Known (wordOf piece)) :
    ∃ flags, ofNames? pieces = some flags := by
  have each : ∀ piece ∈ pieces,
      ofName? (Text.trim piece) = some ((ofName? (Text.trim piece)).getD none) := by
    intro piece member
    obtain ⟨set, read⟩ := exists_ofName? (known piece member)
    rw [read, Option.getD_some]
  exact ⟨_, Option.map_eq_some_iff.mpr ⟨_, mapM_eq_map _ each, rfl⟩⟩

theorem ofNames?_eq_some_iff : ofNames? pieces = some flags ↔
    (∀ piece ∈ pieces, Known (wordOf piece)) ∧
      ∀ c, flags.shows c = true ↔ ∃ piece ∈ pieces, Names (wordOf piece) c := by
  refine ⟨ofNames?_names, fun ⟨known, shows⟩ => ?_⟩
  obtain ⟨set, read⟩ := exists_ofNames? known
  rw [read, ext_shows fun c => ((ofNames?_names read).2 c).trans (shows c).symm]

/-! ## The forms apart -/

/-- A digit is no blank and has no other case. -/
theorem digit_kept (digit : ch.isDigit = true) :
    Text.isBlank ch = false ∧ ch.toLower = ch ∧ ch ≠ ',' := by
  have digits : ∀ value < 10, Text.isBlank (Nat.digitChar value) = false ∧
      (Nat.digitChar value).toLower = Nat.digitChar value ∧ Nat.digitChar value ≠ ',' := by
    decide
  obtain ⟨value, small, rfl⟩ := Text.exists_digitChar digit
  exact digits value small

theorem Known.head? {word : String} (known : Known word) :
    ∀ ch ∈ word.toList.head?, ch.isDigit = false := by
  intro ch leads
  rcases known with ⟨c, rfl⟩ | rfl | rfl
  · cases c <;> cases leads <;> rfl
  · cases leads
    rfl
  · cases leads
    rfl

/-- A list of known words does not begin with a digit, so it is no mask. -/
theorem Lists.unknown {ch : Char} {cs : List Char} {words : List String}
    (listed : Lists (ch :: cs) words) (digit : ch.isDigit = true) :
    ¬ ∀ word ∈ words, Known word := by
  obtain ⟨solid, lower, different⟩ := digit_kept digit
  obtain ⟨piece, pieces, cut⟩ := Text.split_cons_of_ne different cs
  rw [lists_iff, cut, List.map_cons] at listed
  intro known
  have first : Known (wordOf (ch :: piece)) := known _ (listed ▸ List.mem_cons_self)
  have leads : ch ∈ (wordOf (ch :: piece)).toList.head? := by
    simp [wordOf, (Text.trimmed_trim (ch :: piece)).head? solid, lower]
  exact absurd digit (by simp [first.head? ch leads])

variable {text digits : List Char} {mark : Char} {n : Nat}

theorem not_digit_mark (marked : mark = 'x' ∨ mark = 'X') : mark.isDigit = false := by
  rcases marked with rfl | rfl <;> rfl

theorem writes_marked (marked : mark = 'x' ∨ mark = 'X') :
    Writes ('0' :: mark :: digits) n ↔ Text.hexadecimal? (dropPlus digits) = some n := by
  rw [hexadecimal?_dropPlus]
  constructor
  · intro written
    cases written with
    | hexadecimal _ signed numeral => exact ⟨_, _, rfl, signed, numeral⟩
    | decimal numeral =>
      have digit := numeral.digits mark (by simp)
      rw [not_digit_mark marked] at digit
      contradiction
  · rintro ⟨sign, rest, rfl, signed, numeral⟩
    exact .hexadecimal marked signed numeral

theorem writes_unmarked (unmarked : ∀ mark digits, mark = 'x' ∨ mark = 'X' →
    text ≠ '0' :: mark :: digits) : Writes text n ↔ Numeral text n := by
  constructor
  · intro written
    cases written with
    | hexadecimal marked => exact absurd rfl (unmarked _ _ marked)
    | decimal numeral => exact numeral
  · exact .decimal

/-- A text that begins with a digit is read as a mask or not at all. -/
theorem denotes_mask {cs : List Char} {number : Option Nat} (digit : ch.isDigit = true)
    (reads : ∀ n, Writes (ch :: cs) n ↔ number = some n) :
    Denotes (ch :: cs) flags ↔ ofMask? number = some flags := by
  rw [ofMask?_eq_some_iff]
  constructor
  · intro denotes
    cases denotes with
    | mask written byte bits => exact ⟨_, (reads _).mp written, byte, bits⟩
    | list listed known => exact absurd known (listed.unknown digit)
  · rintro ⟨n, read, byte, bits⟩
    exact .mask ((reads n).mpr read) byte bits

theorem denotes_list (unwritten : ∀ n, ¬ Writes text n) :
    Denotes text flags ↔ ofNames? (Text.split ',' text) = some flags := by
  rw [ofNames?_eq_some_iff]
  constructor
  · intro denotes
    cases denotes with
    | mask written => exact absurd written (unwritten _)
    | list listed known shows =>
      obtain rfl := lists_iff.mp listed
      exact ⟨by simpa using known, fun c => (shows c).trans (by simp)⟩
  · rintro ⟨known, shows⟩
    exact .list (lists_iff.mpr rfl) (by simpa using known) fun c => (shows c).trans (by simp)

theorem ofTrimmed?_eq_some_iff : ofTrimmed? text = some flags ↔ Denotes text flags := by
  -- A text that begins as a mask cannot be a list, so the first form that applies is the only one.
  unfold ofTrimmed?
  split
  · exact (denotes_mask rfl fun n => writes_marked (.inl rfl)).symm
  · exact (denotes_mask rfl fun n => writes_marked (.inr rfl)).symm
  · next lower upper =>
    have unmarked (mark : Char) (digits : List Char) (marked : mark = 'x' ∨ mark = 'X') :
        text ≠ '0' :: mark :: digits := by
      rintro rfl
      rcases marked with rfl | rfl
      · exact lower digits rfl
      · exact upper digits rfl
    have reads (n : Nat) : Writes text n ↔ Text.decimal? text = some n :=
      (writes_unmarked unmarked).trans Text.decimal?_eq_some_iff.symm
    split
    · next numeric =>
      cases text with
      | nil => contradiction
      | cons ch cs =>
        have digit : ch.isDigit = true := by simp_all
        exact (denotes_mask digit reads).symm
    · next other =>
      refine (denotes_list fun n written => other ?_).symm
      have numeral := (writes_unmarked unmarked).mp written
      simpa [numeral.nonempty] using numeral.digits

/-- A text that lists known words has a set, which its words alone decide. -/
theorem Lists.exists_denotes {words : List String} (listed : Lists text words)
    (known : ∀ word ∈ words, Known word) : ∃ flags, Denotes text flags ∧
      ∀ c, flags.shows c = true ↔ ∃ word ∈ words, Names word c := by
  have same := lists_iff.mp listed
  subst same
  obtain ⟨flags, read⟩ := exists_ofNames? (by simpa using known)
  have shows (c : Category) : flags.shows c = true ↔
      ∃ word ∈ (Text.split ',' text).map wordOf, Names word c :=
    ((ofNames?_names read).2 c).trans (by simp)
  exact ⟨flags, .list listed known shows, shows⟩

/-! ## The reader -/

section Reader

variable {input : String} {core : List Char} (trimmed : Trimmed input.toList core)
include trimmed

theorem parse_trimmed : parse input =
    match ofTrimmed? core with
    | some flags => .ok flags
    | Option.none => .error ⟨String.ofList core⟩ := by
  rw [← trimmed.trim_eq]
  rfl

theorem parse_eq_ok_iff : parse input = .ok flags ↔ Denotes core flags := by
  rw [parse_trimmed trimmed, ← ofTrimmed?_eq_some_iff]
  cases ofTrimmed? core <;> simp

theorem parse_eq_error_iff {e : ParseError} :
    parse input = .error e ↔ (∀ flags, ¬ Denotes core flags) ∧ e.text = String.ofList core := by
  rw [parse_trimmed trimmed]
  simp only [← ofTrimmed?_eq_some_iff]
  obtain ⟨given⟩ := e
  cases ofTrimmed? core <;> simp [eq_comm]

end Reader

/-- A text is read without the blanks around it. What is left is accepted if it denotes a set, as a
mask or as a list, and read as that set; else the error gives it back. Lists of the same words are
read alike, in whatever order and however often they hold them. -/
theorem parse_exact (text : String) : ∃ core, Trimmed text.toList core ∧
    (∀ flags, parse text = .ok flags ↔ Denotes core flags) ∧
    (∀ e, parse text = .error e ↔ (∀ flags, ¬ Denotes core flags) ∧ e.text = String.ofList core) ∧
    ∀ (other : String) (core' : List Char) (words words' : List String),
      Trimmed other.toList core' → Lists core words → Lists core' words' →
      (∀ word ∈ words, Known word) → (∀ word, word ∈ words ↔ word ∈ words') →
      parse other = parse text := by
  have trimmed := Text.trimmed_trim text.toList
  refine ⟨_, trimmed, fun flags => parse_eq_ok_iff trimmed, fun e => parse_eq_error_iff trimmed, ?_⟩
  intro other core' words words' trimmed' listed listed' known same
  obtain ⟨flags, denotes, shows⟩ := listed.exists_denotes known
  have denotes' : Denotes core' flags := by
    refine .list listed' (fun word member => known word ((same word).mpr member)) fun c => ?_
    simp only [shows, same]
  rw [(parse_eq_ok_iff trimmed).mpr denotes, (parse_eq_ok_iff trimmed').mpr denotes']

example : parse " Token,\tRECOVERY,token " = .ok ⟨0x11⟩ := by decide

example : parse " token,4" = .error ⟨"token,4"⟩ := by decide

end ShiftReduce.Trace.Flags
