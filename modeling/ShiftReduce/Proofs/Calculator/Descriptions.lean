import ShiftReduce.Calculator.Driver
import ShiftReduce.Proofs.Escapes

namespace ShiftReduce.Calculator

open Text (Printable PrefixFree escape)

/-! ## Forms -/

/-- The tokens that are shown by a word. -/
def spoken : List (String × String) :=
  [(endToken, "end of input"), (Terminal.newline.name, "newline"),
    (Terminal.number.name, "number"), (Terminal.ident.name, "variable")]

/-- How a token may be shown: by a word for it, or by its name between apostrophes. -/
inductive Shown : String → List Char → Prop where
  | word {token word : String} : (token, word) ∈ spoken → Shown token word.toList
  | quoted {token : String} : Shown token ('\'' :: (escape token.toList ++ ['\'']))

theorem shown_describe (token : String) : Shown token (describe token).toList := by
  unfold describe
  repeat' split
  case isFalse =>
    rw [String.toList_ofList]
    exact .quoted
  all_goals
    next same => exact .word (by simp [same, spoken])

variable {a b : String} {form form' rest rest' : List Char}

theorem Shown.printable (shown : Shown a form) : Printable form := by
  cases shown with
  | word member =>
    have words : ∀ entry ∈ spoken, Printable entry.2.toList := by decide
    exact words _ member
  | quoted =>
    refine List.forall_mem_cons.mpr ⟨by decide, Text.printable_append.mpr ⟨?_, by decide⟩⟩
    exact Text.printable_escape a.toList

theorem Shown.ne_nil (shown : Shown a form) : form ≠ [] := by
  cases shown with
  | word member =>
    have words : ∀ entry ∈ spoken, entry.2.toList ≠ [] := by decide
    exact words _ member
  | quoted => exact List.cons_ne_nil _ _

/-- A word and a quoted name differ from the first character on. -/
theorem spoken_apart {token word : String} (member : (token, word) ∈ spoken) :
    word.toList ++ rest ≠ '\'' :: rest' := by
  have words : ∀ entry ∈ spoken,
      ¬ ['\''] <+: entry.2.toList ∧ ¬ entry.2.toList <+: ['\''] := by
    decide
  obtain ⟨unquoted, longer⟩ := words _ member
  intro same
  have opened : ['\''] <+: word.toList ++ rest := same ▸ List.prefix_append ['\''] rest'
  rcases List.prefix_or_prefix_of_prefix opened (List.prefix_append _ rest) with inside | within
  · exact unquoted inside
  · exact longer within

/-- No word begins with another one. -/
theorem spoken_inj {word word' : String} (member : (a, word) ∈ spoken)
    (member' : (b, word') ∈ spoken) (same : word.toList ++ rest = word'.toList ++ rest') :
    a = b ∧ rest = rest' := by
  have words : ∀ entry ∈ spoken, ∀ other ∈ spoken, entry.2.toList <+: other.2.toList →
      entry = other := by
    decide
  have equal : (a, word) = (b, word') := by
    have inside : word'.toList <+: word.toList ++ rest := same ▸ List.prefix_append _ _
    rcases List.prefix_or_prefix_of_prefix (List.prefix_append _ rest) inside with shorter | longer
    · exact words _ member _ member' shorter
    · exact (words _ member' _ member longer).symm
  obtain ⟨rfl, rfl⟩ := Prod.mk.inj equal
  exact ⟨rfl, List.append_cancel_left same⟩

theorem Shown.inj (shown : Shown a form) (shown' : Shown b form')
    (same : form ++ rest = form' ++ rest') : a = b ∧ rest = rest' := by
  cases shown with
  | word member =>
    cases shown' with
    | word member' => exact spoken_inj member member' same
    | quoted => exact absurd same (spoken_apart member)
  | quoted =>
    cases shown' with
    | word member' => exact absurd same.symm (spoken_apart member')
    | quoted =>
      obtain ⟨letters, behind⟩ := Text.escape_apostrophe_inj (by simpa using same)
      exact ⟨String.toList_injective letters, behind⟩

theorem prefixFree_describe : PrefixFree fun token => (describe token).toList :=
  fun a b _ _ => (shown_describe a).inj (shown_describe b)

theorem describe_injective : Function.Injective describe := fun _ _ same =>
  prefixFree_describe.injective (congrArg String.toList same)

/-! ## Syntax errors -/

theorem printable_nat (n : Nat) : Printable (toString n).toList := by
  have digits : ∀ value < 10, Printable [Nat.digitChar value] := by decide
  rw [Nat.toString_eq_repr, Nat.toList_repr]
  intro c member
  have digit : c.isDigit = true := Nat.isDigit_of_mem_toDigits (by decide) (by decide) member
  obtain ⟨value, small, rfl⟩ := Text.exists_digitChar digit
  exact digits value small _ List.mem_cons_self

theorem syntaxMessage_unmet {view : View Value} (unmet : view.status.token = none) :
    syntaxMessage view = "syntax error" := by
  rw [syntaxMessage, unmet]

/-- The text of a syntax error at a token, with the form of the token and those of the tokens that
were expected. -/
theorem syntaxMessage_toList {view : View Value} {token : String}
    (met : view.status.token = some token) :
    (syntaxMessage view).toList = "syntax error near ".toList ++ ((describe token).toList ++
      (", expected one of: ".toList ++ ", ".toList.intercalate
        ((view.expected.filter (· != errorToken)).map fun name => (describe name).toList))) := by
  simp only [syntaxMessage, met, String.toList_append, String.toList_intercalate, List.map_map,
    List.append_assoc]
  rfl

theorem printable_syntaxMessage (view : View Value) : Printable (syntaxMessage view).toList := by
  cases met : view.status.token with
  | none =>
    rw [syntaxMessage_unmet met]
    decide
  | some token =>
    have forms (name : String) := (shown_describe name).printable
    rw [syntaxMessage_toList met]
    simp only [Text.printable_append]
    refine ⟨by decide, forms token, by decide, ?_⟩
    refine .intercalate (by decide) fun form member => ?_
    obtain ⟨name, _, rfl⟩ := List.mem_map.mp member
    exact forms name

theorem syntaxMessage_tells {view view' : View Value} {token : String}
    (met : view.status.token = some token) (same : syntaxMessage view' = syntaxMessage view) :
    view'.status.token = some token ∧
      view'.expected.filter (· != errorToken) = view.expected.filter (· != errorToken) := by
  have texts := congrArg String.toList same
  rw [syntaxMessage_toList met] at texts
  cases met' : view'.status.token with
  | none =>
    rw [syntaxMessage_unmet met'] at texts
    have longer : "syntax error near ".toList <+: "syntax error".toList := ⟨_, texts.symm⟩
    exact absurd longer (by decide)
  | some token' =>
    rw [syntaxMessage_toList met', List.append_cancel_left_eq] at texts
    obtain ⟨rfl, behind⟩ := prefixFree_describe _ _ _ _ texts
    rw [List.append_cancel_left_eq] at behind
    refine ⟨rfl, prefixFree_describe.intercalate_inj ?_ (by decide) behind⟩
    exact fun name => (shown_describe name).ne_nil

/-- With nothing else to report, a report is about syntax, and printable like its message. -/
theorem printable_report (view : View Value) {s : Session} (nothing : s.pending = none) :
    ∃ report, (reportError view s).context.errors = s.errors.push report ∧
      Printable report.toList := by
  refine ⟨s!"line {s.lines + 1}: " ++ syntaxMessage view, by simp [reportError, nothing], ?_⟩
  rw [String.toList_append]
  refine Text.printable_append.mpr ⟨?_, printable_syntaxMessage view⟩
  change Printable ("line " ++ toString (s.lines + 1) ++ ": ").toList
  simp only [String.toList_append, Text.printable_append]
  exact ⟨⟨by decide, printable_nat _⟩, by decide⟩

/-- Diagnostics never confuse two tokens. No two of them are shown alike, and each is shown in
printable ASCII. So a syntax error is reported on one line, and its message tells the token at which
it came up and the tokens that were expected there. -/
theorem descriptions_told_apart :
    Function.Injective describe ∧ (∀ token, Printable (describe token).toList) ∧
    (∀ (view : View Value) (s : Session), s.pending = none →
      ∃ report, (reportError view s).context.errors = s.errors.push report ∧
        Printable report.toList ∧ '\n' ∉ report.toList) ∧
    ∀ (view view' : View Value) token, view.status.token = some token →
      syntaxMessage view' = syntaxMessage view → view'.status.token = some token ∧
        view'.expected.filter (· != errorToken) = view.expected.filter (· != errorToken) := by
  refine ⟨describe_injective, fun token => (shown_describe token).printable, ?_, ?_⟩
  · intro view s nothing
    obtain ⟨report, added, printable⟩ := printable_report view nothing
    exact ⟨report, added, printable, printable.newline_not_mem⟩
  · intro view view' token met same
    exact syntaxMessage_tells met same

example : describe "'NUM\x07" = "'\\'NUM\\u\x7b7\x7d'" := by decide

end ShiftReduce.Calculator
