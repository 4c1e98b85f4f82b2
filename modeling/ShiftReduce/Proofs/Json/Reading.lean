import ShiftReduce.Json.Reader
import ShiftReduce.Proofs.Json.Scalars

namespace ShiftReduce.Json

def Blanks (cs : List Char) : Prop := ∀ c ∈ cs, c = ' ' ∨ c = '\t' ∨ c = '\n' ∨ c = '\r'

/-- A member of an object as it is written: a name with blanks around it, and a value. -/
structure Member where
  name : Option String
  before : List Char
  quoted : List Char
  behind : List Char
  value : Json
  text : List Char

namespace Member

def written (m : Member) : List Char := m.before ++ (m.quoted ++ (m.behind ++ ':' :: m.text))

structure Named (m : Member) : Prop where
  before : Blanks m.before
  quoted : Quoted m.name m.quoted
  behind : Blanks m.behind

end Member

/-- The ways to write a value. Blanks may stand around every value and every name, and a comma
between two neighbours. -/
inductive Written : Json → List Char → Prop
  | padded {json : Json} {before cs behind : List Char} : Blanks before → Written json cs →
      Blanks behind → Written json (before ++ (cs ++ behind))
  | null : Written .null ['n', 'u', 'l', 'l']
  | trueWord : Written (.bool true) ['t', 'r', 'u', 'e']
  | falseWord : Written (.bool false) ['f', 'a', 'l', 's', 'e']
  | number {json : Json} {cs : List Char} : Number json cs → Written json cs
  | text {value : Option String} {cs : List Char} : Quoted value cs → Written (.text value) cs
  | emptyArray {blanks : List Char} : Blanks blanks → Written (.array []) ('[' :: (blanks ++ [']']))
  | array {items : List (Json × List Char)} : items ≠ [] →
      (∀ item ∈ items, Written item.1 item.2) →
      Written (.array (items.map Prod.fst))
        ('[' :: ([','].intercalate (items.map Prod.snd) ++ [']']))
  | emptyObject {blanks : List Char} : Blanks blanks →
      Written (.object []) ('\x7b' :: (blanks ++ ['\x7d']))
  | object {members : List Member} : members ≠ [] → (∀ m ∈ members, m.Named) →
      (∀ m ∈ members, Written m.value m.text) →
      Written (.object (members.map fun m => (m.name, m.value)))
        ('\x7b' :: ([','].intercalate (members.map Member.written) ++ ['\x7d']))

/-! ## Tokens of a text -/

theorem ofChars_space {c : Char} (space : Token.isSpace c = true) (cs : List Char) :
    Token.ofChars (c :: cs) = Token.ofChars cs := by
  rw [Token.ofChars, if_pos space]

theorem ofChars_token {c : Char} {cs rest : List Char} {token : Token}
    (solid : Token.isSpace c = false) (read : Token.scan c cs = some (token, rest)) :
    Token.ofChars (c :: cs) = (Token.ofChars rest).map (token :: ·) := by
  rw [Token.ofChars, if_neg (by simp [solid])]
  split
  · next unread =>
    rw [read] at unread
    contradiction
  · next read' =>
    rw [read] at read'
    cases read'
    rfl

/-- The text is cut into these tokens, whatever follows it that does not belong to a number. -/
def Scans (cs : List Char) (tokens : List Token) : Prop :=
  ∀ rest, Delimited rest →
    Token.ofChars (cs ++ rest) = (Token.ofChars rest).map (tokens ++ ·)

/-- The characters that are tokens by themselves. -/
def marks : List (Char × Token) :=
  [('\x7b', .openBrace), ('\x7d', .closeBrace), ('[', .openBracket), (']', .closeBracket),
   (':', .colon), (',', .comma)]

theorem delimited_cons {c : Char} (mark : c ∈ [',', ':', ']', '\x7d', ' ', '\t', '\n', '\r'])
    (rest : List Char) : Delimited (c :: rest) := by
  intro d first
  cases first
  simp only [List.mem_cons, List.not_mem_nil, or_false] at mark
  rcases mark with rfl | rfl | rfl | rfl | rfl | rfl | rfl | rfl <;> decide

theorem delimited_blanks {blanks rest : List Char} (blank : Blanks blanks)
    (delimited : Delimited rest) : Delimited (blanks ++ rest) := by
  cases blanks with
  | nil => exact delimited
  | cons c cs =>
    refine delimited_cons ?_ _
    rcases blank c List.mem_cons_self with rfl | rfl | rfl | rfl <;> decide

namespace Scans

theorem nil : Scans [] [] := by
  intro rest _
  cases tokens : Token.ofChars rest <;> simp [tokens]

theorem append {cs ds : List Char} {ts us : List Token} (front : Scans cs ts) (back : Scans ds us)
    (delimits : ∀ rest, Delimited rest → Delimited (ds ++ rest)) : Scans (cs ++ ds) (ts ++ us) := by
  intro rest delimited
  rw [List.append_assoc, front _ (delimits rest delimited), back rest delimited]
  cases Token.ofChars rest <;> simp

theorem mark {c : Char} {t : Token} {cs : List Char} {ts : List Token} (mark : (c, t) ∈ marks)
    (behind : Scans cs ts) : Scans (c :: cs) (t :: ts) := by
  intro rest delimited
  have solid : Token.isSpace c = false ∧ Token.scan c (cs ++ rest) = some (t, cs ++ rest) := by
    simp only [marks, List.mem_cons, Prod.mk.injEq, List.not_mem_nil, or_false] at mark
    rcases mark with ⟨rfl, rfl⟩ | ⟨rfl, rfl⟩ | ⟨rfl, rfl⟩ | ⟨rfl, rfl⟩ | ⟨rfl, rfl⟩ | ⟨rfl, rfl⟩ <;>
      exact ⟨rfl, by simp [Token.scan]⟩
  rw [List.cons_append, ofChars_token solid.1 solid.2, behind rest delimited]
  cases Token.ofChars rest <;> simp

theorem of_covers {cs : List Char} {token : Token}
    (covers : ∀ rest, Delimited rest → token.Covers cs rest) : Scans cs [token] := by
  intro rest delimited
  obtain ⟨c, tail, rfl, solid, read⟩ := covers rest delimited
  exact ofChars_token solid read

theorem behind_blanks {blanks cs : List Char} {ts : List Token} (blank : Blanks blanks)
    (scans : Scans cs ts) : Scans (blanks ++ cs) ts := by
  induction blanks with
  | nil => exact scans
  | cons c blanks ih =>
    obtain ⟨space, blank⟩ := List.forall_mem_cons.mp blank
    intro rest delimited
    rw [List.cons_append, List.cons_append,
      ofChars_space (by simpa [Token.isSpace, or_assoc] using space)]
    exact ih blank rest delimited

theorem before_blanks {blanks cs : List Char} {ts : List Token} (scans : Scans cs ts)
    (blank : Blanks blanks) : Scans (cs ++ blanks) ts := by
  have spaces : Scans blanks [] := by simpa using behind_blanks blank .nil
  simpa using scans.append spaces fun _ => delimited_blanks blank

end Scans

/-! ## Values of tokens -/

/-- The tokens are read as this value wherever a value is expected, and they do not begin with the
end of an array. -/
structure Reads (json : Json) (tokens : List Token) : Prop where
  value : ∀ more frames,
    readTokens (tokens ++ more) .value frames = readTokens more (.after json) frames
  begins : ∃ t ts, tokens = t :: ts ∧ t ≠ .closeBracket

/-- The first item of an array is read like every other value. -/
theorem readTokens_item {t : Token} {ts : List Token} {frames : List Frame}
    (first : t ≠ .closeBracket) :
    readTokens (t :: ts) .item frames = readTokens (t :: ts) .value (.array [] :: frames) := by
  cases t <;> first | rfl | contradiction

/-- A text that is cut into tokens which are read as the value. -/
def Legible (json : Json) (cs : List Char) : Prop := ∃ ts, Scans cs ts ∧ Reads json ts

/-- What stands between the brackets of an array. -/
theorem legible_items {items : List (Json × List Char)} (nonempty : items ≠ [])
    (each : ∀ item ∈ items, Legible item.1 item.2) :
    ∃ ts, Scans ([','].intercalate (items.map Prod.snd)) ts ∧
      (∀ more frames done,
        readTokens (ts ++ .closeBracket :: more) .value (.array done :: frames) =
          readTokens more (.after (.array (done.reverse ++ items.map Prod.fst))) frames) ∧
      ∃ t more, ts = t :: more ∧ t ≠ .closeBracket := by
  induction items with
  | nil => contradiction
  | cons item items ih =>
    obtain ⟨ts, scans, reads⟩ := each item List.mem_cons_self
    -- The last item stands without a comma behind it, so it is the base of the induction.
    cases items with
    | nil =>
      refine ⟨ts, by simpa using scans, fun more frames done => ?_, reads.begins⟩
      rw [reads.value]
      simp [readTokens, advance, endValue]
    | cons next items =>
      obtain ⟨us, scanned, read, _⟩ := ih (List.cons_ne_nil _ _) fun item member =>
        each item (List.mem_cons_of_mem _ member)
      refine ⟨ts ++ .comma :: us, ?_, fun more frames done => ?_, ?_⟩
      · rw [List.map_cons, List.map_cons, List.intercalate_cons_cons, List.append_assoc]
        exact scans.append (.mark (by simp [marks]) scanned) fun _ _ => delimited_cons (by simp) _
      · rw [List.append_assoc, reads.value]
        simp [readTokens, advance, endValue, read]
      · obtain ⟨t, tail, rfl, first⟩ := reads.begins
        exact ⟨t, _, rfl, first⟩

/-- A member of an object, up to the end of its value. -/
theorem legible_member {m : Member} (named : m.Named) (legible : Legible m.value m.text) :
    ∃ ts, Scans m.written ts ∧ ∀ more frames done opened,
      readTokens (ts ++ more) (.name done opened) frames =
        readTokens more (.after m.value) (.object done m.name :: frames) := by
  obtain ⟨ts, scans, reads⟩ := legible
  obtain ⟨before, quoted, behind⟩ := named
  refine ⟨.text m.name :: .colon :: ts, ?_, fun more frames done opened => ?_⟩
  · have name : Scans m.quoted [.text m.name] := .of_covers fun rest _ => quoted.covers rest
    have rest : Scans (m.behind ++ ':' :: m.text) (.colon :: ts) :=
      .behind_blanks behind (.mark (by simp [marks]) scans)
    refine .behind_blanks before (name.append rest fun _ _ => ?_)
    rw [List.append_assoc]
    exact delimited_blanks behind (delimited_cons (by simp) _)
  · rw [← reads.value]
    cases opened <;> rfl

/-- What stands between the braces of an object. -/
theorem legible_members {members : List Member} (nonempty : members ≠ [])
    (named : ∀ m ∈ members, m.Named) (each : ∀ m ∈ members, Legible m.value m.text) :
    ∃ ts, Scans ([','].intercalate (members.map Member.written)) ts ∧
      ∀ more frames done opened,
        readTokens (ts ++ .closeBrace :: more) (.name done opened) frames =
          readTokens more
            (.after (.object (done.reverse ++ members.map fun m => (m.name, m.value)))) frames := by
  induction members with
  | nil => contradiction
  | cons m members ih =>
    obtain ⟨ts, scans, reads⟩ :=
      legible_member (named m List.mem_cons_self) (each m List.mem_cons_self)
    cases members with
    | nil =>
      refine ⟨ts, by simpa using scans, fun more frames done opened => ?_⟩
      rw [reads]
      simp [readTokens, advance, endValue]
    | cons next members =>
      obtain ⟨us, scanned, read⟩ := ih (List.cons_ne_nil _ _)
        (fun m member => named m (List.mem_cons_of_mem _ member))
        fun m member => each m (List.mem_cons_of_mem _ member)
      refine ⟨ts ++ .comma :: us, ?_, fun more frames done opened => ?_⟩
      · rw [List.map_cons, List.map_cons, List.intercalate_cons_cons, List.append_assoc]
        exact scans.append (.mark (by simp [marks]) scanned) fun _ _ => delimited_cons (by simp) _
      · rw [List.append_assoc, reads]
        simp [readTokens, advance, endValue, read]

theorem legible_single {json : Json} {cs : List Char} (token : Token)
    (covers : ∀ rest, Delimited rest → token.Covers cs rest) (first : token ≠ .closeBracket)
    (value : ∀ more frames,
      readTokens (token :: more) .value frames = readTokens more (.after json) frames) :
    Legible json cs :=
  ⟨[token], .of_covers covers, value, ⟨token, [], rfl, first⟩⟩

/-- Every written text is cut into tokens that are read as its value. -/
theorem Written.legible {json : Json} {cs : List Char} (written : Written json cs) :
    Legible json cs := by
  induction written with
  | padded before _ behind ih =>
    obtain ⟨ts, scans, reads⟩ := ih
    exact ⟨ts, .behind_blanks before (scans.before_blanks behind), reads⟩
  | null | trueWord | falseWord =>
    exact legible_single (.scalar _) (fun rest _ => ⟨_, _, rfl, rfl, by simp [Token.scan]⟩)
      (by simp) fun _ _ => rfl
  | number number =>
    exact legible_single (.scalar _) (fun _ => number.covers) (by simp) fun _ _ => rfl
  | text quoted =>
    exact legible_single (.text _) (fun rest _ => quoted.covers rest) (by simp) fun _ _ => rfl
  | emptyArray blank =>
    exact ⟨[.openBracket, .closeBracket],
      .mark (by simp [marks]) (.behind_blanks blank (.mark (by simp [marks]) .nil)),
      fun _ _ => rfl, ⟨_, _, rfl, by simp⟩⟩
  | array nonempty _ each =>
    obtain ⟨ts, scanned, read, t, tail, rfl, first⟩ := legible_items nonempty each
    refine ⟨.openBracket :: (t :: tail ++ [.closeBracket]), ?_, fun more frames => ?_,
      ⟨_, _, rfl, by simp⟩⟩
    · exact .mark (by simp [marks]) (scanned.append (.mark (by simp [marks]) .nil)
        fun _ _ => delimited_cons (by simp) _)
    · have opened : readTokens (t :: tail ++ .closeBracket :: more) .item frames =
          readTokens (t :: tail ++ .closeBracket :: more) .value (.array [] :: frames) :=
        readTokens_item first
      simpa [readTokens, advance, beginValue] using opened.trans (read more frames [])
  | emptyObject blank =>
    exact ⟨[.openBrace, .closeBrace],
      .mark (by simp [marks]) (.behind_blanks blank (.mark (by simp [marks]) .nil)),
      fun _ _ => rfl, ⟨_, _, rfl, by simp⟩⟩
  | object nonempty named _ each =>
    obtain ⟨ts, scanned, read⟩ := legible_members nonempty named each
    refine ⟨.openBrace :: (ts ++ [.closeBrace]), ?_, fun more frames => ?_, ⟨_, _, rfl, by simp⟩⟩
    · exact .mark (by simp [marks]) (scanned.append (.mark (by simp [marks]) .nil)
        fun _ _ => delimited_cons (by simp) _)
    · simpa [readTokens, advance, beginValue] using read more frames [] true

/-- A written text is read as the value that it is written for. -/
theorem read?_written {json : Json} {text : String} (written : Written json text.toList) :
    read? text = some json := by
  obtain ⟨ts, scans, reads⟩ := written.legible
  have tokens := scans [] nofun
  have value := reads.value [] []
  simp only [List.append_nil] at tokens value
  simp [read?, tokens, Token.ofChars, value, readTokens]

end ShiftReduce.Json
