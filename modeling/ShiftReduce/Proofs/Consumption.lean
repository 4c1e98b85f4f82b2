import ShiftReduce.Proofs.Lookahead
import ShiftReduce.Proofs.Recording
import ShiftReduce.Proofs.Trail

/-! Every lexeme that the lexer delivers is used once, in the order of delivery: it is shifted, or
recovery discards it, and until then it is pending. A log of the deliveries is kept by the lexer
itself, which makes no difference to the run. -/

namespace ShiftReduce

variable {V ε γ σ : Type}

inductive Use (V : Type) where
  | shifted (lexeme : Lexeme V)
  | discarded (lexeme : Lexeme V)
  deriving DecidableEq, Repr

namespace Use

def lexeme : Use V → Lexeme V
  | .shifted lexeme => lexeme
  | .discarded lexeme => lexeme

def isShift : Use V → Bool
  | .shifted _ => true
  | .discarded _ => false

def isDiscard (use : Use V) : Bool := !use.isShift

theorem length_eq (uses : List (Use V)) :
    uses.length = uses.countP isShift + uses.countP isDiscard := by
  have same : (fun use : Use V => decide ¬use.isShift = true) = isDiscard := by
    funext use
    cases use <;> rfl
  rw [List.length_eq_countP_add_countP isShift, same]

end Use

/-- The deliveries so far, of which the pending lookahead is the last, were used like this; the
latest first. -/
structure Accounted (uses : List (Use V)) (c : Config V γ (σ × List (Lexeme V))) : Prop where
  log : c.source.2 = c.status.lookahead?.toList ++ uses.map Use.lexeme
  inside : ∀ use ∈ uses, use.lexeme.isEnd = false
  bare : c.status.token = none → c.status.value = none
  tokens : c.stats.tokens = c.source.2.length
  discarded : c.stats.discarded = uses.countP Use.isDiscard

namespace Accounted

variable {lexer : Lexer V ε σ} {uses : List (Use V)} {b c d : Config V γ (σ × List (Lexeme V))}

theorem start (source : σ) (context : γ) :
    Accounted [] (.start (source, []) context : Config V γ (σ × List (Lexeme V))) :=
  ⟨rfl, by simp, fun _ => rfl, rfl, rfl⟩

theorem of_same (accounted : Accounted uses b) (token : d.status.token = b.status.token)
    (value : d.status.value = b.status.value) (source : d.source = b.source)
    (tokens : d.stats.tokens = b.stats.tokens) (discarded : d.stats.discarded = b.stats.discarded) :
    Accounted uses d where
  log := by rw [source, accounted.log, Status.lookahead?, Status.lookahead?, token, value]
  inside := accounted.inside
  bare missing := value.trans (accounted.bare (token.symm.trans missing))
  tokens := by rw [tokens, source, accounted.tokens]
  discarded := discarded.trans accounted.discarded

theorem supplied (accounted : Accounted uses c) (supply : lexer.logging.Supply c b) :
    Accounted uses b := by
  cases supply with
  | idle token value source stats =>
    exact accounted.of_same token value source (by rw [stats]) (by rw [stats])
  | @delivered lexeme missing answer token value source stats =>
    have answer : (lexer c.status c.source.1).1 = .ok lexeme := answer
    have source : b.source.2 = lexeme :: c.source.2 := by
      simp [source, Lexer.logging, answer, Except.toOption]
    have pending : b.status.lookahead? = some lexeme := by rw [Status.lookahead?, token, value]; rfl
    have before : c.status.lookahead? = none := by rw [Status.lookahead?, missing]; rfl
    refine ⟨?_, accounted.inside, by simp [token], ?_, ?_⟩
    · rw [source, accounted.log, before, pending]
      rfl
    · rw [stats, source, List.length_cons, ← accounted.tokens]
    · rw [stats, ← accounted.discarded]

/-- The pending lookahead is used. -/
theorem used (accounted : Accounted uses b) (use : Use V)
    (pending : b.status.lookahead? = some use.lexeme) (inside : use.lexeme.isEnd = false)
    (token : d.status.token = none) (value : d.status.value = none) (source : d.source = b.source)
    (tokens : d.stats.tokens = b.stats.tokens)
    (discarded : d.stats.discarded = b.stats.discarded + if use.isDiscard then 1 else 0) :
    Accounted (use :: uses) d where
  log := by
    rw [source, accounted.log, pending, Status.lookahead?, token]
    rfl
  inside := by simpa [inside] using accounted.inside
  bare _ := value
  tokens := by rw [tokens, source, accounted.tokens]
  discarded := by rw [discarded, accounted.discarded, List.countP_cons]

/-- All that was delivered was shifted or discarded, or it is pending. -/
theorem tokens_eq (accounted : Accounted uses c) : c.stats.tokens =
    uses.countP Use.isShift + c.stats.discarded + if c.status.token.isSome then 1 else 0 := by
  rw [accounted.tokens, accounted.log, accounted.discarded, List.length_append, List.length_map,
    Use.length_eq, Status.lookahead?]
  cases c.status.token <;> simp
  omega

end Accounted

namespace Parser

section

variable (p : Parser V ε γ) (lexer : Lexer V ε σ)

/-- What a run uses on its way from one moment to the next. -/
def used (leg : Leg V γ σ) : List (Use V) :=
  match leg.moment with
  | .top _ => (shifts leg.acts).map .shifted
  | .entry b => (p.thrown lexer b).toList.map .discarded

/-- What a run has used along a trail, the latest first. -/
def uses (legs : List (Leg V γ σ)) : List (Use V) := legs.flatMap (p.used lexer)

end

variable {p : Parser V ε γ} {lexer : Lexer V ε σ}

section Steps

variable {b c d : Config V γ (σ × List (Lexeme V))} {m m' : Moment V γ (σ × List (Lexeme V))}
  {uses : List (Use V)} {acts : List (Act V)}

/-- The status after a shift: a lookahead that is not the end of the input is used up. -/
theorem shift_lookahead (target : Nat) (b : Config V γ σ) :
    (p.shift target b).status.token = (if b.status.atEnd then b.status.token else none) ∧
    (p.shift target b).status.value = if b.status.atEnd then b.status.value else none := by
  rw [shift_status]
  unfold Status.consume
  change (if b.status.atEnd then _ else _ : Status V).token = _ ∧
    (if b.status.atEnd then _ else _ : Status V).value = _
  split <;> exact ⟨rfl, rfl⟩

theorem shift_accounted (accounted : Accounted uses b) (target : Nat) :
    Accounted ((shifts [.shift b.status.token b.status.value]).map Use.shifted ++ uses)
      (p.shift target b) := by
  obtain ⟨token, value⟩ := shift_lookahead (p := p) target b
  have tokens : (p.shift target b).stats.tokens = b.stats.tokens := by rw [shift_stats]
  have discarded : (p.shift target b).stats.discarded = b.stats.discarded := by rw [shift_stats]
  -- nothing may be pending, or the end of the input, or a lexeme that the shift uses
  cases known : b.status.token with
  | none =>
    have outside : b.status.atEnd = false := by simp [Status.atEnd, known]
    simp only [outside, Bool.false_eq_true, if_false] at token value
    exact accounted.of_same (token.trans known.symm) (value.trans (accounted.bare known).symm)
      (p.shift_source target b) tokens discarded
  | some name =>
    by_cases atEnd : name = endToken
    · have inside : b.status.atEnd = true := by simp [Status.atEnd, known, atEnd]
      simp only [inside, if_true] at token value
      simpa [shifts, Act.lexeme?, atEnd] using
        accounted.of_same token value (p.shift_source target b) tokens discarded
    · have outside : b.status.atEnd = false := by simp [Status.atEnd, known, atEnd]
      simp only [outside, Bool.false_eq_true, if_false] at token value
      have pending : b.status.lookahead? = some ⟨name, b.status.value⟩ := by
        rw [Status.lookahead?, known]
        rfl
      simpa [shifts, Act.lexeme?, atEnd] using accounted.used (.shifted _) pending
        (by simp [Use.lexeme, Lexeme.isEnd, atEnd]) token value (p.shift_source target b) tokens
        discarded

/-- A shift pushes the value of the latest delivery, of which nothing is left unless it is the end
of the input. Without a lookahead it pushes no value, and nothing is delivered for it. -/
structure Pushed (token : Option String) (value : Option V)
    (c d : Config V γ (σ × List (Lexeme V))) : Prop where
  stack : ∃ target, d.stack = ⟨target, value⟩ :: c.stack
  bare : token = none → value = none ∧ d.status.lookahead? = none ∧ d.source = c.source
  latest : ∀ name, token = some name → d.source.2.head? = some ⟨name, value⟩ ∧
    d.status.lookahead? = if name = endToken then some ⟨name, value⟩ else none

theorem Performs.pushed {target : Nat}
    (performs : p.Performs lexer.logging c (some (.shift target)) b)
    (accounted : Accounted uses c) :
    Pushed b.status.token b.status.value c (p.shift target b) := by
  have before := accounted.supplied performs.supply
  obtain ⟨token, value⟩ := shift_lookahead (p := p) target b
  refine ⟨⟨target, ?_⟩, fun missing => ⟨before.bare missing, ?_, ?_⟩, fun name known => ⟨?_, ?_⟩⟩
  · rw [shift_stack, performs.frame.stack]
  · rw [Status.lookahead?, token, missing]
    split <;> rfl
  · rw [shift_source]
    cases performs.supply with
    | idle _ _ source => exact source
    | delivered _ _ present => simp [missing] at present
  · rw [shift_source, before.log, Status.lookahead?, known]
    rfl
  · rw [Status.lookahead?, token, value, Status.atEnd, known]
    by_cases atEnd : name = endToken <;> simp [atEnd]

variable (steady : p.driver.Never Request.setsToken) (faithful : p.driver.Never Request.setsValue)
include steady faithful

theorem Reduces.accounted {index : Nat} (reduces : p.Reduces lexer.logging c index b)
    (accounted : Accounted uses c)
    (going : p.reduce index b = .next d ∨ p.reduce index b = .recover d) : Accounted uses d := by
  obtain ⟨source, stats⟩ := reduce_leaves going
  exact (accounted.supplied reduces.supply).of_same (reduce_keeps steady Status.token_changedBy going)
    (reduce_keeps faithful Status.value_changedBy going) source (by rw [stats]) (by rw [stats])

theorem recover_accounted (accounted : Accounted uses b)
    (recovered : p.recover lexer.logging b = .next d) :
    Accounted ((p.thrown lexer.logging b).toList.map Use.discarded ++ uses) d := by
  by_cases repeated : b.status.errorStatus = 3
  · have consumes := p.recover_consumes lexer.logging repeated
    rw [recovered] at consumes
    cases consumes with
    | @discarded _ b' lexeme supply pending inside thrown token value source tokens counted =>
      rw [thrown]
      rw [← supply.discarded] at counted
      exact (accounted.supplied supply).used (.discarded lexeme) pending inside token value source
        tokens counted
  · have kept := p.recover_spares lexer.logging repeated
    rw [recovered] at kept
    obtain ⟨token, value, source, tokens, discarded⟩ := kept
    rw [thrown_of_fresh repeated]
    exact accounted.of_same (token.trans (entered_token steady b))
      (value.trans (entered_value faithful b)) source tokens discarded

theorem Goes.accounted (goes : p.Goes lexer.logging m acts m')
    (accounted : Accounted uses m.config) :
    Accounted (p.used lexer.logging ⟨m, acts⟩ ++ uses) m'.config := by
  cases goes with
  | shifted performs => exact shift_accounted (accounted.supplied performs.supply) _
  | reduced reduces _ reduced =>
    simpa [used] using reduces.accounted steady faithful accounted (.inl reduced)
  | forced reduces _ forced =>
    simpa [used] using reduces.accounted steady faithful accounted (.inr forced)
  | missed performs => exact accounted.supplied performs.supply
  | recovered recovered => exact recover_accounted steady faithful accounted recovered

theorem Trail.accounted {legs : List (Leg V γ (σ × List (Lexeme V)))} {source : σ} {context : γ}
    (trail : p.Trail lexer.logging (.top (.start (source, []) context)) legs m) :
    Accounted (p.uses lexer.logging legs) m.config := by
  induction trail with
  | here => exact .start source context
  | next _ goes ih => exact goes.accounted steady faithful ih

end Steps

/-- Lexemes are used in order. A run is the same with a lexer that keeps a log of what it delivers.
That log is the lookahead that is pending and, before it, what the run has shifted and discarded,
each lexeme once; the end of the input is not among those. The counters tell how much they are, and
a shift pushes the value that was delivered with its lexeme, or none if it found no lookahead. -/
theorem lexemes_used_in_order (p : Parser V ε γ) (lexer : Lexer V ε σ)
    (steady : p.driver.Never Request.setsToken) (faithful : p.driver.Never Request.setsValue)
    (source : σ) (context : γ) :
    (∀ c, p.Reaches lexer (.start source context) c →
      ∃ legs d, p.Trail lexer.logging (.top (.start (source, []) context)) legs (.top d) ∧
        c = d.project id Prod.fst id) ∧
    ∀ legs m, p.Trail lexer.logging (.top (.start (source, []) context)) legs m →
      m.config.source.2 =
        m.config.status.lookahead?.toList ++ (p.uses lexer.logging legs).map Use.lexeme ∧
      (∀ use ∈ p.uses lexer.logging legs, use.lexeme.isEnd = false) ∧
      m.config.stats.discarded = (p.uses lexer.logging legs).countP Use.isDiscard ∧
      m.config.stats.tokens = (p.uses lexer.logging legs).countP Use.isShift +
        m.config.stats.discarded + (if m.config.status.token.isSome then 1 else 0) ∧
      ∀ token value m', p.Goes lexer.logging m [.shift token value] m' →
        ∃ c d, m = .top c ∧ m' = .top d ∧ Pushed token value c d := by
  refine ⟨fun c reached => ?_, fun legs m trail => ?_⟩
  · obtain ⟨d, reached, same⟩ := ((Projects.of_driver (.refl p.driver) p.flags).reaches_iff
      lexer.logging_projects (c := .start (source, []) context)).mp reached
    obtain ⟨legs, trail⟩ := reached.trail
    exact ⟨legs, d, trail, same⟩
  · have accounted := trail.accounted steady faithful
    refine ⟨accounted.log, accounted.inside, accounted.discarded, accounted.tokens_eq, ?_⟩
    intro token value m' goes
    obtain ⟨c, b, target, rfl, rfl, performs, rfl, rfl⟩ := goes.of_shift
    exact ⟨c, _, rfl, rfl, performs.pushed accounted⟩

/-- Tables for a list of tokens `a`, the first of which the error token may stand for. -/
def listTables : Tables where
  rules := #[⟨"$start", 2, none⟩, ⟨"S", 1, none⟩, ⟨"S", 2, none⟩]
  states := #[
    { actions := some ⟨[("a", .shift 1), (errorToken, .shift 1)]⟩, gotos := ⟨[("S", 2)]⟩ },
    { default := some (.reduce 1) },
    { actions := some ⟨[(endToken, .shift 3), ("a", .shift 4)]⟩ },
    { default := some .accept },
    { default := some (.reduce 2) }]

def listParser : Parser Nat Unit Unit := ⟨listTables, Driver.plain, .none⟩

theorem plain_never (kind : Request V → Bool) : (Driver.plain : Driver V ε γ).Never kind :=
  ⟨by simp [Driver.plain], by simp [Driver.plain, Driver.defaultHook]⟩

def listStart : Config Nat Unit (LexemeQueue Nat × List (Lexeme Nat)) :=
  .start (⟨[⟨"b", some 1⟩, ⟨"a", some 2⟩], 0⟩, []) ()

/-- Of a stray `b` and an `a` behind it, one is discarded and one is shifted; the end is pending. -/
theorem stray_lexeme_used :
    (Driver.plain : Driver Nat Unit Unit).Never Request.setsToken ∧
    (Driver.plain : Driver Nat Unit Unit).Never Request.setsValue ∧
    ∃ legs d, listParser.Trail LexemeQueue.lexer.logging (.top listStart) legs (.top d) ∧
      d.status.atEnd = true ∧
      (listParser.uses LexemeQueue.lexer.logging legs).map Use.lexeme =
        [⟨"a", some 2⟩, ⟨"b", some 1⟩] ∧
      (listParser.uses LexemeQueue.lexer.logging legs).countP Use.isDiscard = 1 ∧
      (listParser.uses LexemeQueue.lexer.logging legs).countP Use.isShift = 1 := by
  have reached : listParser.Reaches LexemeQueue.lexer.logging listStart _ :=
    (((((((Reaches.refl).next rfl).next rfl).next rfl).next rfl).next rfl).next rfl).next rfl
  obtain ⟨legs, trail⟩ := reached.trail
  obtain ⟨log, -, discarded, tokens, -⟩ := (lexemes_used_in_order listParser LexemeQueue.lexer
    (plain_never _) (plain_never _) ⟨[⟨"b", some 1⟩, ⟨"a", some 2⟩], 0⟩ ()).2 legs _ trail
  refine ⟨plain_never _, plain_never _, legs, _, trail, rfl, ?_, discarded.symm, ?_⟩
  · exact (List.cons.inj log).2.symm
  · exact (Nat.add_right_cancel (Nat.add_right_cancel tokens)).symm

end Parser

end ShiftReduce
