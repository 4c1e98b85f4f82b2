import ShiftReduce.Proofs.Consumption
import ShiftReduce.Proofs.Control

/-! Values that are lists, actions that join them: what is on the stack, from the bottom to the top,
is what was shifted, in that order. A reduction puts the same text in place of its pieces, a shift
adds to the end of it, and recovery takes something away from the end and adds nothing. -/

namespace ShiftReduce

variable {V ε γ σ α : Type}

/-- The concatenation of the values, of which a missing one is empty. -/
def text (values : List (Option (List α))) : List α := values.flatMap (·.getD [])

@[simp] theorem text_nil : text ([] : List (Option (List α))) = [] := rfl

@[simp] theorem text_append (values more : List (Option (List α))) :
    text (values ++ more) = text values ++ text more :=
  List.flatMap_append

@[simp] theorem text_singleton (value : Option (List α)) : text [value] = value.getD [] := by
  simp [text]

def stackText (stack : List (Entry (List α))) : List α := text (stack.reverse.map Entry.value)

theorem stackText_append (above below : List (Entry (List α))) :
    stackText (above ++ below) = stackText below ++ stackText above := by
  simp [stackText]

theorem stackText_below (above below : List (Entry (List α))) :
    stackText below <+: stackText (above ++ below) := by
  rw [stackText_append]
  exact List.prefix_append _ _

theorem stackText_above (above below : List (Entry (List α))) :
    stackText above <:+ stackText (above ++ below) := by
  rw [stackText_append]
  exact List.suffix_append _ _

theorem stackText_cons (top : Entry (List α)) (below : List (Entry (List α))) :
    stackText (top :: below) = stackText below ++ top.value.getD [] := by
  simp [stackText]

/-- The text of the lexemes, which are given the latest first. -/
def lexemeText (lexemes : List (Lexeme (List α))) : List α :=
  text (lexemes.reverse.map Lexeme.value)

@[simp] theorem lexemeText_nil : lexemeText ([] : List (Lexeme (List α))) = [] := rfl

theorem lexemeText_append (later earlier : List (Lexeme (List α))) :
    lexemeText (later ++ earlier) = lexemeText earlier ++ lexemeText later := by
  simp [lexemeText]

/-- Every rule has an action, and what it returns is the concatenation of what it was given. -/
structure Driver.Joins (d : Driver (List α) ε γ) : Prop where
  hasAction : ∀ rule, d.hasAction rule = true
  joined : ∀ {rule values view context value},
    (d.reduce rule values view context).result = .ok value → value.getD [] = text values

/-- The end of the input comes without a value. -/
def Lexer.BareEnds (lexer : Lexer V ε σ) : Prop :=
  ∀ {status source lexeme}, (lexer status source).1 = .ok lexeme → lexeme.isEnd = true →
    lexeme.value = none

/-- Unless a lexeme is pending that is not the end of the input, there is no value. -/
def Status.Bare (s : Status V) : Prop := s.token.getD endToken = endToken → s.value = none

theorem Status.Bare.of_same {s s' : Status V} (bare : s.Bare) (token : s'.token = s.token)
    (value : s'.value = s.value) : s'.Bare := by
  intro idle
  rw [token] at idle
  rw [value, bare idle]

theorem Status.Bare.of_missing {s : Status V} (value : s.value = none) : s.Bare := fun _ => value

/-- What is pushed by a shift is the value of the lexeme that is shifted. -/
theorem Status.Bare.lexemeText_shift {s : Status (List α)} (bare : s.Bare) :
    lexemeText (shifts [.shift s.token s.value]) = s.value.getD [] := by
  cases known : s.token with
  | none => simp [shifts, List.filterMap_cons, Act.lexeme?, lexemeText, bare (by simp [known])]
  | some token =>
    by_cases atEnd : token = endToken
    · simp [shifts, Act.lexeme?, lexemeText, atEnd, bare (by simp [known, atEnd])]
    · simp [shifts, Act.lexeme?, lexemeText, atEnd]

theorem entries_cons (legs : List (Leg V γ σ)) (m m' : Moment V γ σ) (acts : List (Act V)) :
    entries (⟨m, acts⟩ :: legs) m' = entries legs m + if m'.isEntry then 1 else 0 := by
  simp only [entries, List.countP_cons, Leg.isEntry]
  rfl

theorem fresh_of_entries {legs : List (Leg V γ σ)} {m m' : Moment V γ σ} {acts : List (Act V)}
    (none : entries (⟨m, acts⟩ :: legs) m' = 0) :
    entries legs m = 0 ∧ m.isEntry = false ∧ m'.isEntry = false := by
  rw [entries_cons] at none
  have before : entries legs m = 0 := by omega
  refine ⟨before, ?_, ?_⟩
  · cases entry : m.isEntry with
    | false => rfl
    | true => simp [entries, entry] at before
  · cases entry : m'.isEntry with
    | false => rfl
    | true => simp [entry] at none

/-- The lexemes that were shifted along a trail, the latest first. -/
def shifted (legs : List (Leg V γ σ)) : List (Lexeme V) := legs.flatMap fun leg => shifts leg.acts

namespace Parser

variable {p : Parser V ε γ} {lexer : Lexer V ε σ} {b c d : Config V γ σ} {m m' : Moment V γ σ}
  {acts : List (Act V)}

theorem supplied_bare (ends : lexer.BareEnds) (bare : c.status.Bare) (supply : lexer.Supply c b) :
    b.status.Bare := by
  cases supply with
  | idle token value => exact bare.of_same token value
  | @delivered lexeme _ answer token value =>
    intro atEnd
    rw [value]
    exact ends answer (by simpa [token, Lexeme.isEnd] using atEnd)

theorem shift_bare (bare : b.status.Bare) (target : Nat) : (p.shift target b).status.Bare := by
  obtain ⟨token, value⟩ := shift_lookahead (p := p) target b
  cases atEnd : b.status.atEnd with
  | true => exact bare.of_same (by simpa [atEnd] using token) (by simpa [atEnd] using value)
  | false => exact .of_missing (by simpa [atEnd] using value)

section

variable (steady : p.driver.Never Request.setsToken) (faithful : p.driver.Never Request.setsValue)
include steady faithful

theorem recover_bare (bare : b.status.Bare) (recovered : p.recover lexer b = .next d) :
    d.status.Bare := by
  by_cases repeated : b.status.errorStatus = 3
  · have consumes := p.recover_consumes lexer repeated
    rw [recovered] at consumes
    cases consumes with
    | discarded _ _ _ _ _ value => exact .of_missing value
  · have kept := p.recover_spares lexer repeated
    rw [recovered] at kept
    obtain ⟨token, value, -⟩ := kept
    exact bare.of_same (token.trans (entered_token steady b)) (value.trans (entered_value faithful b))

variable (ends : lexer.BareEnds)
include ends

theorem Goes.bare (goes : p.Goes lexer m acts m') (bare : m.config.status.Bare) :
    m'.config.status.Bare := by
  have reduced {c b d : Config V γ σ} {index : Nat} (reduces : p.Reduces lexer c index b)
      (going : p.reduce index b = .next d ∨ p.reduce index b = .recover d) (bare : c.status.Bare) :
      d.status.Bare :=
    (supplied_bare ends bare reduces.supply).of_same
      (reduce_keeps steady Status.token_changedBy going)
      (reduce_keeps faithful Status.value_changedBy going)
  cases goes with
  | shifted performs => exact shift_bare (supplied_bare ends bare performs.supply) _
  | reduced reduces _ going => exact reduced reduces (.inl going) bare
  | forced reduces _ going => exact reduced reduces (.inr going) bare
  | missed performs => exact supplied_bare ends bare performs.supply
  | recovered recovered => exact recover_bare steady faithful bare recovered

theorem Trail.bare {legs : List (Leg V γ σ)} {source : σ} {context : γ}
    (trail : p.Trail lexer (.top (.start source context)) legs m) : m.config.status.Bare := by
  induction trail with
  | here => exact fun _ => rfl
  | next _ goes ih => exact goes.bare steady faithful ends ih

end

section

variable {p : Parser (List α) ε γ} {lexer : Lexer (List α) ε σ} {b c d : Config (List α) γ σ}
  {m m' : Moment (List α) γ σ} {acts : List (Act (List α))}

theorem lastValues_text (b : Config (List α) γ σ) (count : Nat) :
    text (b.lastValues count) = stackText (b.stack.take count) := by
  simp [Config.lastValues, stackText]

theorem acted_text (joins : p.driver.Joins) {index : Nat} {rule : Rule}
    {value : Option (List α)} (result : (p.acted index rule b).1 = .ok value) :
    value.getD [] = stackText (b.stack.take rule.dot) := by
  rw [← lastValues_text]
  unfold acted evaluate at result
  rw [if_pos (joins.hasAction index)] at result
  exact joins.joined result

/-- A reduction replaces the pieces on the stack by their concatenation. -/
theorem reduce_text (joins : p.driver.Joins) {index : Nat} {rule : Rule}
    (whole : rule.marker = none) (ready : p.Ready index rule b)
    (reduced : p.reduce index b = .next d) : stackText d.stack = stackText b.stack := by
  have cases := p.reduce_cases index b
  rw [reduced] at cases
  cases cases with
  | continued ready' result =>
    obtain rfl := ready.rule_unique ready'
    have joined := acted_text joins result
    rw [Rule.dot, whole, Option.getD_none] at joined
    simp only [Config.push_stack, closeBracket_stack, told_stack, stackText_cons, joined]
    rw [← stackText_append, List.take_append_drop]

theorem force_text {index : Nat} (forced : p.reduce index b = .recover d) :
    stackText d.stack <+: stackText b.stack := by
  have cases := p.reduce_cases index b
  rw [forced] at cases
  cases cases with
  | @forced rule =>
    have above := stackText_below (b.stack.take rule.length) (b.stack.drop rule.length)
    rwa [List.take_append_drop, ← told_stack] at above

/-- The placeholder of an error has no value, and what recovery pops is at the end of the text. -/
theorem recover_text (recovered : p.recover lexer b = .next d) :
    stackText d.stack <+: stackText b.stack := by
  have cases := p.recover_cases lexer b
  rw [recovered] at cases
  cases cases with
  | resumed => exact List.prefix_rfl
  | @unwound b' _ _ discard unwound =>
    have kept : b'.stack = b.stack := by
      have frame := (p.discard_frame lexer (p.entered b)).stack
      rw [discard] at frame
      exact frame.trans (p.entered_stack b)
    have cases := p.unwind_cases (b'.setErrorStatus 3) b'.stack
    rw [unwound] at cases
    cases cases with
    | shifted split _ _ _ stack_eq =>
      rw [stack_eq, ← kept, split, stackText_cons, Option.getD_none, List.append_nil]
      exact stackText_below _ _

/-- From one moment to the next, only a shift adds text. Recovery and what forces it may take some
away, and nothing else changes any. -/
theorem Goes.text (joins : p.driver.Joins) (outlined : ∀ rule ∈ p.tables.rules, rule.marker = none)
    (ends : lexer.BareEnds) (goes : p.Goes lexer m acts m') (bare : m.config.status.Bare) :
    stackText m'.config.stack <+: stackText m.config.stack ++ lexemeText (shifts acts) ∧
      (m.isEntry = false → m'.isEntry = false →
        stackText m'.config.stack = stackText m.config.stack ++ lexemeText (shifts acts)) := by
  cases goes with
  | @shifted c b target performs =>
    have same : stackText (p.shift target b).stack =
        stackText c.stack ++ lexemeText (shifts [.shift b.status.token b.status.value]) := by
      rw [shift_stack, performs.frame.stack, stackText_cons,
        (supplied_bare ends bare performs.supply).lexemeText_shift]
    exact ⟨same ▸ List.prefix_rfl, fun _ _ => same⟩
  | @reduced c b d index rule reduces ready reduced =>
    have whole := outlined rule (Array.mem_of_getElem? ready.found)
    have same : stackText d.stack =
        stackText c.stack ++ lexemeText (shifts (p.called index rule b)) := by
      rw [reduce_text joins whole ready reduced, reduces.stack, called_shifts, lexemeText_nil,
        List.append_nil]
    exact ⟨same ▸ List.prefix_rfl, fun _ _ => same⟩
  | forced reduces ready forced =>
    have shorter := force_text forced
    rw [reduces.stack] at shorter
    rw [called_shifts, lexemeText_nil, List.append_nil]
    exact ⟨shorter, by simp⟩
  | @missed c b performs =>
    rw [shifts_nil, lexemeText_nil, List.append_nil]
    exact ⟨(congrArg stackText performs.frame.stack) ▸ List.prefix_rfl, by simp⟩
  | recovered recovered =>
    rw [recovering_shifts, lexemeText_nil, List.append_nil]
    exact ⟨recover_text recovered, by simp⟩

theorem Trail.text (joins : p.driver.Joins)
    (outlined : ∀ rule ∈ p.tables.rules, rule.marker = none) (ends : lexer.BareEnds)
    (steady : p.driver.Never Request.setsToken) (faithful : p.driver.Never Request.setsValue)
    {source : σ} {context : γ} {legs : List (Leg (List α) γ σ)}
    (trail : p.Trail lexer (.top (.start source context)) legs m) :
    (stackText m.config.stack).Sublist (lexemeText (shifted legs)) ∧
      (entries legs m = 0 → stackText m.config.stack = lexemeText (shifted legs)) := by
  induction trail with
  | here => exact ⟨List.Sublist.refl _, fun _ => rfl⟩
  | @next legs m m' acts passed goes ih =>
    obtain ⟨sublist, same⟩ := ih
    obtain ⟨shorter, kept⟩ :=
      goes.text joins outlined ends (passed.bare steady faithful ends)
    have further : lexemeText (shifted (⟨m, acts⟩ :: legs)) =
        lexemeText (shifted legs) ++ lexemeText (shifts acts) := by
      rw [shifted, List.flatMap_cons, lexemeText_append]
      rfl
    rw [further]
    refine ⟨shorter.sublist.trans (sublist.append_right _), fun none => ?_⟩
    obtain ⟨before, here, after⟩ := fresh_of_entries none
    rw [kept here after, same before]

/-- An accepted value is the text at the end of the stack that it is reduced from. -/
theorem accepted_text (joins : p.driver.Joins) {value : Option (List α)}
    (accepted : p.step lexer c = .stop (.ok (.accept value)) d) :
    value.getD [] <:+ stackText c.stack := by
  obtain ⟨index, b, reduces, stopped⟩ := step_ended accepted (by simp)
  have cases := p.reduce_cases index b
  rw [stopped] at cases
  cases cases with
  | @accepted rule _ _ result =>
    have above := stackText_above (b.stack.take rule.dot) (b.stack.drop rule.dot)
    rw [List.take_append_drop, reduces.stack] at above
    rwa [acted_text joins result, reduces.stack]

/-- Values flow in order and are never duplicated. Where every rule has an action that joins its
values, no rule is in-line, and the end of the input has no value, what is on the stack whenever a
run comes to the top of its loop is a sublist of what was shifted, and all of it until recovery is
entered for the first time. An accepted value is the end of what is then on the stack. -/
theorem values_flow_in_order (p : Parser (List α) ε γ) (lexer : Lexer (List α) ε σ)
    (outlined : ∀ rule ∈ p.tables.rules, rule.marker = none) (joins : p.driver.Joins)
    (steady : p.driver.Never Request.setsToken) (faithful : p.driver.Never Request.setsValue)
    (ends : lexer.BareEnds) (source : σ) (context : γ) :
    (∀ c, p.Reaches lexer (.start source context) c →
      ∃ legs, p.Trail lexer (.top (.start source context)) legs (.top c)) ∧
    (∀ legs c, p.Trail lexer (.top (.start source context)) legs (.top c) →
      (stackText c.stack).Sublist (lexemeText (shifted legs)) ∧
      (entries legs (.top c) = 0 → stackText c.stack = lexemeText (shifted legs))) ∧
    ∀ steps r value, p.run lexer steps source context = some r →
      r.result = .ok (.accept value) →
      ∃ c, p.Reaches lexer (.start source context) c ∧ p.step lexer c = .stop r.result r.final ∧
        value.getD [] <:+ stackText c.stack := by
  refine ⟨fun c reached => reached.trail, fun legs c trail =>
    trail.text joins outlined ends steady faithful, fun steps r value ended accepted => ?_⟩
  obtain ⟨c, reached, stopped⟩ := runFrom_origin ended
  exact ⟨c, reached, stopped, accepted_text joins (accepted ▸ stopped)⟩

end

/-- Hands out words, and as a stray token those that are empty. -/
def words : Lexer (List Nat) Unit (List (List Nat)) := fun _ rest =>
  match rest with
  | [] => (.ok .atEnd, [])
  | word :: rest => (.ok ⟨if word = [] then "b" else "a", some word⟩, rest)

def joining : Driver (List Nat) Unit Unit where
  hasAction _ := true
  reduce _ values _ context := { result := .ok (some (text values)), context }
  onError := Driver.defaultHook

def wordParser : Parser (List Nat) Unit Unit := ⟨listTables, joining, .none⟩

/-- Two words are joined; the accepted value is all of the text that is on the stack in the end. -/
theorem words_joined :
    (∀ rule ∈ wordParser.tables.rules, rule.marker = none) ∧ wordParser.driver.Joins ∧
    wordParser.driver.Never Request.setsToken ∧ wordParser.driver.Never Request.setsValue ∧
    words.BareEnds ∧
    (wordParser.run words 9 [[1, 2], [3]] ()).map Run.result =
      some (.ok (.accept (some [1, 2, 3]))) ∧
    ∃ c d legs, wordParser.Trail words (.top (.start [[1, 2], [3]] ())) legs (.top c) ∧
      wordParser.step words c = .stop (.ok (.accept (some [1, 2, 3]))) d ∧
      [1, 2, 3] <:+ stackText c.stack ∧
      (stackText c.stack).Sublist (lexemeText (shifted legs)) := by
  have outlined : ∀ rule ∈ wordParser.tables.rules, rule.marker = none := by
    simp [wordParser, listTables]
  have joins : wordParser.driver.Joins := ⟨fun _ => rfl, by rintro _ _ _ _ _ ⟨⟩; rfl⟩
  have never (kind : Request (List Nat) → Bool) : wordParser.driver.Never kind :=
    ⟨by simp [wordParser, joining], by simp [wordParser, joining, Driver.defaultHook]⟩
  have ends : words.BareEnds := by
    intro status source lexeme answer atEnd
    cases source with
    | nil => cases answer; rfl
    | cons word rest =>
      cases answer
      revert atEnd
      by_cases stray : word = [] <;> simp [Lexeme.isEnd, endToken, stray]
  obtain ⟨trails, flows, accepts⟩ := values_flow_in_order wordParser words outlined joins
    (never _) (never _) ends [[1, 2], [3]] ()
  obtain ⟨r, ended, result⟩ := Option.map_eq_some_iff.mp
    (show (wordParser.run words 9 [[1, 2], [3]] ()).map Run.result =
      some (.ok (.accept (some [1, 2, 3]))) from rfl)
  obtain ⟨c, reached, stopped, suffix⟩ := accepts 9 r _ ended result
  obtain ⟨legs, trail⟩ := trails c reached
  exact ⟨outlined, joins, never _, never _, ends, rfl, c, r.final, legs, trail, result ▸ stopped,
    suffix, (flows legs c trail).1⟩

end Parser

end ShiftReduce
