import ShiftReduce.Proofs.Consumption
import ShiftReduce.Proofs.Tracing

namespace ShiftReduce

variable {V W ε δ γ κ σ τ : Type}

open Trace

namespace Likeness

section

variable (f : V → W) (errors : ε → δ → Prop) (contexts : γ → κ → Prop) (sources : σ → τ → Prop)

/-- Values translate by `f`. The traces are the same, and callbacks may warn of what they like. -/
def translation : Likeness V W ε δ γ κ σ τ where
  value := f
  error := errors
  context := contexts
  source := sources
  warnings _ _ := True
  records r r' := r'.filterMap Record.sent? = r.filterMap Record.sent?

variable {f errors contexts sources}

theorem Configs.sent {c : Config V γ σ} {d : Config W κ τ}
    (alike : (translation (ε := ε) (δ := δ) f errors contexts sources).Configs c d) :
    d.sent = c.sent := by
  simp only [Config.sent, List.filterMap_reverse]
  exact congrArg List.reverse alike.records

theorem filterMap_warnings (texts : List String) (records : List Record) :
    ((texts.map Record.warning).reverse ++ records).filterMap Record.sent? =
      records.filterMap Record.sent? := by
  rw [List.filterMap_append, List.append_left_eq_self, List.filterMap_eq_nil_iff]
  intro record member
  obtain ⟨text, -, rfl⟩ := List.mem_map.mp (List.mem_reverse.mp member)
  rfl

theorem Drivers.parsers {driver : Driver V ε γ} {driver' : Driver W δ κ}
    (drivers : (translation f errors contexts sources).Drivers driver driver') (tables : Tables)
    (flags : Flags) :
    (translation f errors contexts sources).Parsers ⟨tables, driver, flags⟩
      ⟨tables, driver', flags⟩ where
  tables := rfl
  drivers := drivers
  emits event r r' same := by
    simp only [Flags.record]
    split
    · exact congrArg (List.cons (event.category, event.text)) same
    · exact same
  warns _ same := by
    simp only [translation, filterMap_warnings]
    exact same

theorem start_alike {source : σ} {source' : τ} {context : γ} {context' : κ}
    (start : sources source source') (initial : contexts context context') :
    (translation (ε := ε) (δ := δ) f errors contexts sources).Configs (.start source context)
      (.start source' context') :=
  ⟨rfl, rfl, rfl, rfl, initial, start, rfl⟩

/-- To pass values on is the same with any values. -/
theorem plain_alike : (translation f errors contexts sources).Drivers
    (Driver.plain : Driver V ε γ) (Driver.plain : Driver W δ κ) where
  hasAction _ := rfl
  reduce _ _ _ _ _ acts := by simp [Driver.plain] at acts
  onError _ _ _ initial := ⟨rfl, initial, rfl, trivial⟩

end

end Likeness

namespace Parser

/-- Values never steer a run. Let two lexers, shown the same statuses up to a translation of values,
give the same tokens with translated values, and let two drivers, shown the same up to it, make the
same requests and return translated values, as the plain driver does. Then their runs over the same
tables end after the same number of steps, with the same fault or with the same outcome, its value
translated. Counters and trace lines are the same there and at every top of the loop. -/
theorem values_never_steer (f : V → W) (errors : ε → δ → Prop) (contexts : γ → κ → Prop)
    (sources : σ → τ → Prop) (tables : Tables) (flags : Flags)
    {driver : Driver V ε γ} {driver' : Driver W δ κ} {lexer : Lexer V ε σ} {lexer' : Lexer W δ τ}
    (drivers : (Likeness.translation f errors contexts sources).Drivers driver driver')
    (lexers : (Likeness.translation f errors contexts sources).Lexers lexer lexer')
    {source : σ} {source' : τ} {context : γ} {context' : κ} (start : sources source source')
    (initial : contexts context context') :
    (∀ steps, Option.Rel
      (fun r r' =>
        (Likeness.translation f errors contexts sources).Results r.result r'.result ∧
          r'.final.stats = r.final.stats ∧ r'.final.sent = r.final.sent)
      (run ⟨tables, driver, flags⟩ lexer steps source context)
      (run ⟨tables, driver', flags⟩ lexer' steps source' context')) ∧
    (∀ c, Reaches ⟨tables, driver, flags⟩ lexer (.start source context) c →
      ∃ d, Reaches ⟨tables, driver', flags⟩ lexer' (.start source' context') d ∧
        d.stack = c.stack.map (Entry.map f) ∧ d.stats = c.stats ∧ d.sent = c.sent) ∧
    (Likeness.translation f errors contexts sources).Drivers (Driver.plain : Driver V ε γ)
      (Driver.plain : Driver W δ κ) := by
  have parsers := drivers.parsers tables flags
  have alike : (Likeness.translation f errors contexts sources).Configs (.start source context)
      (.start source' context') := Likeness.start_alike start initial
  refine ⟨fun steps => ?_, fun c reached => ?_, Likeness.plain_alike⟩
  · unfold run
    have runs := parsers.runFrom lexers steps alike
    generalize runFrom _ lexer steps _ = r at runs ⊢
    generalize runFrom _ lexer' steps _ = r' at runs ⊢
    cases runs with
    | none => exact .none
    | some runs => exact .some ⟨runs.result, runs.final.stats, runs.final.sent⟩
  · obtain ⟨d, reached, alike⟩ := parsers.reaches lexers alike reached
    exact ⟨d, reached, alike.stack, alike.stats, alike.sent⟩

end Parser

def LexemeQueue.map (f : V → W) (q : LexemeQueue V) : LexemeQueue W :=
  ⟨q.pending.map (Lexeme.map f), q.taken⟩

/-- The driver that adds up the values of every rule. -/
def Driver.adding (zero : V) (add : V → V → V) : Driver V ε γ where
  hasAction _ := true
  reduce _ values _ context :=
    { result := .ok (some (values.foldl (fun sum value => add sum (value.getD zero)) zero)), context }
  onError := defaultHook

namespace Likeness

theorem queues_alike (f : V → W) (errors : ε → δ → Prop) (contexts : γ → κ → Prop) :
    (translation f errors contexts fun queue queue' => queue' = queue.map f).Lexers
      LexemeQueue.lexer LexemeQueue.lexer := by
  rintro status ⟨pending, taken⟩ _ rfl
  cases pending with
  | nil => exact .ok .atEnd rfl
  | cons lexeme rest => exact .ok lexeme rfl

theorem adding_alike {f : V → W} {zero : V} {zero' : W} {add : V → V → V} {add' : W → W → W}
    (zeros : f zero = zero') (adds : ∀ a b, f (add a b) = add' (f a) (f b)) (errors : ε → δ → Prop)
    (contexts : γ → κ → Prop) (sources : σ → τ → Prop) :
    (translation f errors contexts sources).Drivers (Driver.adding zero add)
      (Driver.adding zero' add') where
  hasAction _ := rfl
  reduce _ values _ _ _ _ initial := by
    have sums (sum : V) : (values.map (Option.map f)).foldl
          (fun sum value => add' sum (value.getD zero')) (f sum) =
        f (values.foldl (fun sum value => add sum (value.getD zero)) sum) := by
      induction values generalizing sum with
      | nil => rfl
      | cons value values ih =>
        have first : add' (f sum) ((value.map f).getD zero') = f (add sum (value.getD zero)) := by
          cases value <;> simp [zeros, adds]
        rw [List.map_cons, List.foldl_cons, List.foldl_cons, first, ih]
    have total := sums zero
    rw [zeros] at total
    refine ⟨?_, initial, rfl, trivial⟩
    change Values _ (.ok (some _)) (.ok (some _))
    exact total ▸ Values.ok (some _)
  onError _ _ _ initial := ⟨rfl, initial, rfl, trivial⟩

end Likeness

namespace Parser

def isOdd (n : Nat) : Bool := n % 2 == 1

/-- Numbers and their parities. -/
def parity : Likeness Nat Bool Unit Unit Unit Unit (LexemeQueue Nat) (LexemeQueue Bool) :=
  .translation isOdd Eq Eq fun queue queue' => queue' = queue.map isOdd

def summing : Parser Nat Unit Unit := ⟨listTables, .adding 0 (· + ·), .all⟩

def toggling : Parser Bool Unit Unit := ⟨listTables, .adding false xor, .all⟩

def numbers : LexemeQueue Nat := ⟨[⟨"b", some 1⟩, ⟨"a", some 2⟩, ⟨"a", some 3⟩], 0⟩

/-- Numbers are added up as their parities are, with the recovery from a stray `b` in between. -/
theorem parity_of_sum :
    parity.Lexers LexemeQueue.lexer LexemeQueue.lexer ∧
    parity.Drivers summing.driver toggling.driver ∧
    ∃ r r', summing.run LexemeQueue.lexer 12 numbers () = some r ∧
      toggling.run LexemeQueue.lexer 12 (numbers.map isOdd) () = some r' ∧
      r.result = .ok (.accept (some 5)) ∧ r'.result = .ok (.accept (some true)) ∧
      r'.final.stats = r.final.stats ∧ r'.final.sent = r.final.sent := by
  have lexers : parity.Lexers LexemeQueue.lexer LexemeQueue.lexer :=
    Likeness.queues_alike isOdd Eq Eq
  have drivers : parity.Drivers summing.driver toggling.driver :=
    Likeness.adding_alike rfl (by grind [isOdd]) Eq Eq _
  obtain ⟨r, ran, sum⟩ : ∃ r, summing.run LexemeQueue.lexer 12 numbers () = some r ∧
      r.result = .ok (.accept (some 5)) := ⟨_, rfl, rfl⟩
  obtain ⟨r', ran', odd⟩ : ∃ r, toggling.run LexemeQueue.lexer 12 (numbers.map isOdd) () = some r ∧
      r.result = .ok (.accept (some true)) := ⟨_, rfl, rfl⟩
  have start : parity.source numbers (numbers.map isOdd) := rfl
  have runs := (values_never_steer isOdd Eq Eq _ listTables .all drivers lexers start (Eq.refl ())).1
    12
  change Option.Rel _ (summing.run _ _ _ _) (toggling.run _ _ _ _) at runs
  rw [ran, ran'] at runs
  cases runs with
  | some runs => exact ⟨lexers, drivers, r, r', ran, ran', sum, odd, runs.2⟩

end Parser

end ShiftReduce
