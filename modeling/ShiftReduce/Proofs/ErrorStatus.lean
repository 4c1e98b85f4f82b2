import ShiftReduce.Proofs.History

/-! The error status follows from the history of a run alone: it is zero until recovery first shifts
the error token, three right after that, one less with every shift, and zero as soon as a callback
clears it. -/

namespace ShiftReduce

variable {V ε γ σ : Type}

def Request.isErrok : Request V → Bool
  | .errok => true
  | _ => false

theorem Request.any_isErrok {requests : List (Request V)} :
    requests.any Request.isErrok = true ↔ .errok ∈ requests := by
  rw [List.any_eq_true]
  constructor
  · rintro ⟨request, member, errok⟩
    cases request with
    | errok => exact member
    | accept | abort | error | setToken | setValue => contradiction
  · intro member
    exact ⟨.errok, member, rfl⟩

theorem Status.applyAll_errorStatus_eq (s : Status V) (requests : List (Request V)) :
    (s.applyAll requests).errorStatus =
      if requests.any Request.isErrok then 0 else s.errorStatus := by
  induction requests generalizing s with
  | nil => rfl
  | cons request rest ih =>
    rw [Status.applyAll_cons, ih, List.any_cons]
    cases request with
    | errok => simp [Request.isErrok, Status.apply]
    | accept | abort | error | setToken | setValue => simp [Request.isErrok, Status.apply]

theorem Status.consume_errorStatus (s : Status V) : s.consume.errorStatus = s.errorStatus := by
  unfold Status.consume
  split <;> rfl

namespace Act

/-- A callback asked for the end of recovery. -/
def clears : Act V → Bool
  | .action _ requests => requests.any Request.isErrok
  | .hook requests => requests.any Request.isErrok
  | .shift .. => false
  | .errorShift => false

def isShift : Act V → Bool
  | .shift .. => true
  | _ => false

def isHook : Act V → Bool
  | .hook _ => true
  | _ => false

end Act

/-- What was done since the error token was last shifted, if it ever was. -/
def sinceErrorShift : List (Act V) → Option (List (Act V))
  | [] => none
  | .errorShift :: _ => some []
  | act :: past => (sinceErrorShift past).map (act :: ·)

/-- The error status that a history calls for: zero if the error token was never shifted or the
error was cleared since, and otherwise three less the shifts since. -/
def dueStatus (past : List (Act V)) : Nat :=
  match sinceErrorShift past with
  | none => 0
  | some acts => if acts.any Act.clears then 0 else 3 - acts.countP Act.isShift

section Due

variable (past : List (Act V))

theorem dueStatus_shift (token : Option String) (value : Option V) :
    dueStatus (.shift token value :: past) = dueStatus past - 1 := by
  unfold dueStatus
  rw [sinceErrorShift]
  cases since : sinceErrorShift past with
  | none => rfl
  | some acts =>
    rw [Option.map_some]
    dsimp only
    rw [List.any_cons, List.countP_cons]
    have quiet : (Act.shift token value).clears = false := rfl
    have counted : (Act.shift token value).isShift = true := rfl
    rw [quiet, Bool.false_or, if_pos counted]
    split
    · rfl
    · omega
  intro same
  contradiction

/-- A call clears the status if it asks for that, and leaves it alone otherwise. -/
theorem dueStatus_call {act : Act V} (call : act.isShift = false) (known : act ≠ .errorShift) :
    dueStatus (act :: past) = if act.clears then 0 else dueStatus past := by
  unfold dueStatus
  rw [sinceErrorShift]
  cases since : sinceErrorShift past with
  | none => simp
  | some acts =>
    rw [Option.map_some]
    dsimp only
    rw [List.any_cons, List.countP_cons, call]
    by_cases clears : act.clears = true
    · simp [clears]
    · simp [clears]
  exact known

theorem sinceErrorShift_eq_some {acts : List (Act V)} (since : sinceErrorShift past = some acts) :
    ∃ before, past = acts ++ .errorShift :: before ∧ Act.errorShift ∉ acts := by
  induction past generalizing acts with
  | nil => contradiction
  | cons act past ih =>
    by_cases last : act = .errorShift
    · subst last
      cases since
      exact ⟨past, rfl, by simp⟩
    · rw [sinceErrorShift] at since
      · obtain ⟨rest, earlier, rfl⟩ := Option.map_eq_some_iff.mp since
        obtain ⟨before, rfl, clear⟩ := ih earlier
        refine ⟨before, rfl, ?_⟩
        rw [List.mem_cons, not_or]
        exact ⟨Ne.symm last, clear⟩
      · exact last

theorem sinceErrorShift_isSome (member : Act.errorShift ∈ past) :
    ∃ acts, sinceErrorShift past = some acts := by
  induction past with
  | nil => contradiction
  | cons act past ih =>
    by_cases last : act = .errorShift
    · subst last
      exact ⟨[], rfl⟩
    · rcases List.mem_cons.mp member with same | inside
      · exact absurd same.symm last
      · obtain ⟨acts, since⟩ := ih inside
        refine ⟨act :: acts, ?_⟩
        rw [sinceErrorShift, since, Option.map_some]
        exact last

theorem sinceErrorShift_append {acts before : List (Act V)} (clear : Act.errorShift ∉ acts) :
    sinceErrorShift (acts ++ .errorShift :: before) = some acts := by
  induction acts with
  | nil => rfl
  | cons act acts ih =>
    rw [List.mem_cons, not_or] at clear
    rw [List.cons_append, sinceErrorShift, ih clear.2, Option.map_some]
    exact Ne.symm clear.1

end Due

namespace Parser

variable {p : Parser V ε γ} {lexer : Lexer V ε σ} {start b c d : Config V γ σ}
  {past more : List (Act V)} {m m' : Moment V γ σ}

theorem dueStatus_called (index : Nat) (rule : Rule) (past : List (Act V)) :
    dueStatus (p.called index rule b ++ past) =
      if (p.called index rule b).any Act.clears then 0 else dueStatus past := by
  unfold called
  split
  · rw [List.singleton_append, dueStatus_call past rfl (by simp)]
    simp
  · rfl

/-- The action of a reduction may clear the error status, and does nothing else to it. -/
theorem acted_errorStatus (index : Nat) (rule : Rule) (c : Config V γ σ) :
    (p.acted index rule c).2.status.errorStatus =
      if (p.called index rule c).any Act.clears then 0 else c.status.errorStatus := by
  unfold acted called evaluate
  split
  · rw [List.any_cons, List.any_nil, Bool.or_false]
    exact Status.applyAll_errorStatus_eq _ (p.reply index rule c).requests
  · rfl

theorem report_errorStatus (c : Config V γ σ) : (p.report c).status.errorStatus =
    if (p.hookReply c).requests.any Request.isErrok then 0 else 1 :=
  Status.applyAll_errorStatus_eq _ _

theorem reduce_errorStatus {index : Nat} {rule : Rule} (ready : p.Ready index rule b)
    (reduced : p.reduce index b = .next d ∨ p.reduce index b = .recover d) :
    d.status.errorStatus =
      if (p.called index rule b).any Act.clears then 0 else b.status.errorStatus := by
  rw [← acted_errorStatus]
  have cases := p.reduce_cases index b
  rcases reduced with reduced | reduced
  · rw [reduced] at cases
    cases cases with
    | continued ready' =>
      obtain rfl := ready.rule_unique ready'
      simp
  · rw [reduced] at cases
    cases cases with
    | forced ready' =>
      obtain rfl := ready.rule_unique ready'
      simp

theorem Reduces.errorStatus {index : Nat} (reduces : p.Reduces lexer c index b) :
    b.status.errorStatus = c.status.errorStatus := by
  rcases reduces with performs | ⟨before, performs, _, rfl⟩
  · exact performs.frame.errorStatus
  · exact performs.frame.errorStatus

/-- Recovery that shifts the error token leaves a status of three. -/
theorem recover_errorStatus (recovered : p.recover lexer b = .next d) :
    d.status.errorStatus = dueStatus (p.recovering b ++ past) := by
  unfold recovering
  have cases := p.recover_cases lexer b
  rw [recovered] at cases
  cases cases with
  | resumed fresh cleared =>
    have clears : (Act.hook (p.hookReply b).requests).clears = true := by
      rw [report_errorStatus] at cleared
      by_cases asked : (p.hookReply b).requests.any Request.isErrok = true
      · exact asked
      · rw [if_neg asked] at cleared
        contradiction
    rw [if_pos fresh, if_pos cleared, cleared, List.singleton_append,
      dueStatus_call past rfl (by simp), if_pos clears]
  | @unwound b' _ uncleared _ unwound =>
    have unwinding := p.unwind_cases (b'.setErrorStatus 3) b'.stack
    rw [unwound] at unwinding
    cases unwinding with
    | shifted _ _ _ _ _ status =>
      rw [status]
      by_cases fresh : b.status.errorStatus = 0
      · rw [if_pos fresh, if_neg (uncleared fresh)]
        rfl
      · rw [if_neg fresh]
        rfl

/-- The history goes on calling for the status that the run has. -/
theorem Goes.errorStatus (goes : p.Goes lexer m more m')
    (agrees : m.config.status.errorStatus = dueStatus past) :
    m'.config.status.errorStatus = dueStatus (more ++ past) := by
  cases goes with
  | @shifted c b target performs =>
    rw [List.singleton_append, dueStatus_shift]
    calc (p.shift target b).status.errorStatus
      _ = b.status.errorStatus - 1 := by rw [shift_status, Status.consume_errorStatus]
      _ = c.status.errorStatus - 1 := by rw [performs.frame.errorStatus]
      _ = dueStatus past - 1 := congrArg (· - 1) agrees
  | reduced reduces ready reduced =>
    rw [dueStatus_called, ← agrees]
    exact (reduce_errorStatus ready (.inl reduced)).trans (by rw [reduces.errorStatus]; rfl)
  | forced reduces ready forced =>
    rw [dueStatus_called, ← agrees]
    exact (reduce_errorStatus ready (.inr forced)).trans (by rw [reduces.errorStatus]; rfl)
  | missed performs => exact performs.frame.errorStatus.trans agrees
  | recovered recovered => exact recover_errorStatus recovered

/-- The error status is the one that the history calls for. -/
theorem Past.errorStatus (started : start.status.errorStatus = 0)
    (passed : p.Past lexer start past m) : m.config.status.errorStatus = dueStatus past := by
  induction passed with
  | start => exact started
  | next _ goes ih => exact goes.errorStatus ih

/-- Recovery shifts the error token right after a hook that does not clear the status. -/
theorem recovering_followed {b : Config V γ σ} {later earlier : List (Act V)}
    {requests : List (Request V)} (split : p.recovering b = later ++ .hook requests :: earlier)
    (uncleared : requests.any Request.isErrok = false) : later = [.errorShift] := by
  have member : .hook requests ∈ p.recovering b := split ▸ by simp
  unfold recovering at split member
  split at split
  · next fresh =>
    rw [if_pos fresh] at member
    split at split
    · next cleared =>
      rw [if_pos cleared] at member
      obtain rfl := Act.hook.inj (List.mem_singleton.mp member)
      rw [report_errorStatus, uncleared] at cleared
      contradiction
    · cases later with
      | nil => simp at split
      | cons act later =>
        obtain ⟨rfl, rest⟩ := List.cons.inj split
        cases later with
        | nil => rfl
        | cons => simp at rest
  · next known =>
    rw [if_neg known] at member
    simp at member

theorem Goes.hook_followed (goes : p.Goes lexer m more m') {later earlier : List (Act V)}
    {requests : List (Request V)} (split : more = later ++ .hook requests :: earlier)
    (uncleared : requests.any Request.isErrok = false) : later = [.errorShift] := by
  have member : .hook requests ∈ more := split ▸ by simp
  cases goes with
  | shifted | missed => simp at member
  | reduced | forced =>
    unfold called at member
    split at member <;> simp at member
  | recovered => exact recovering_followed split uncleared

/-- A hook that did not clear the status was followed by the shift of the error token. -/
theorem Past.hook_followed (passed : p.Past lexer start past m) {later earlier : List (Act V)}
    {requests : List (Request V)} (split : past = later ++ .hook requests :: earlier)
    (uncleared : requests.any Request.isErrok = false) :
    ∃ recent, later = recent ++ [.errorShift] := by
  induction passed generalizing later earlier with
  | start => simp at split
  | @next acts more m m' _ goes ih =>
    -- the hook was called by the last step, or it lies before it
    rcases List.append_eq_append_iff.mp split with ⟨middle, same, before⟩ | ⟨middle, same, before⟩
    · obtain ⟨recent, rfl⟩ := ih before
      exact ⟨more ++ recent, by rw [same, List.append_assoc]⟩
    cases middle with
    | nil =>
      obtain ⟨recent, nothing⟩ := @ih [] earlier before.symm
      simp at nothing
    | cons act middle =>
      obtain ⟨rfl, _⟩ := List.cons.inj before
      exact ⟨[], goes.hook_followed same uncleared⟩

/-- From one call of the hook to the next, the status is cleared or counted down to zero. -/
theorem Past.between_hooks (passed : p.Past lexer start past m) (due : dueStatus past = 0)
    {later earlier : List (Act V)} {requests : List (Request V)}
    (split : past = later ++ .hook requests :: earlier) :
    (∃ act ∈ .hook requests :: later, act.clears = true) ∨
      ∃ recent before, later = recent ++ .errorShift :: before ∧ .errorShift ∉ recent ∧
        3 ≤ recent.countP Act.isShift := by
  by_cases clears : ∃ act ∈ .hook requests :: later, act.clears = true
  · exact .inl clears
  right
  have quiet : ∀ act ∈ .hook requests :: later, act.clears = false := by simpa using clears
  obtain ⟨first, rest⟩ := List.forall_mem_cons.mp quiet
  obtain ⟨recent, rfl⟩ := passed.hook_followed split first
  obtain ⟨acts, since⟩ := sinceErrorShift_isSome (recent ++ [Act.errorShift]) (by simp)
  obtain ⟨before, same, clear⟩ := sinceErrorShift_eq_some _ since
  refine ⟨acts, before, same, clear, ?_⟩
  rw [same] at split rest
  have found : sinceErrorShift past = some acts := by
    rw [split, List.append_assoc]
    exact sinceErrorShift_append clear
  have silent : acts.any Act.clears = false := by
    rw [List.any_eq_false]
    intro act member
    simp [rest act (List.mem_append_left _ member)]
  unfold dueStatus at due
  rw [found] at due
  simp only [silent] at due
  simp at due
  omega

/-- Recovery calls the hook exactly at a status of zero. -/
theorem hook_mem_recovering (b : Config V γ σ) :
    (∃ requests, .hook requests ∈ p.recovering b) ↔ b.status.errorStatus = 0 := by
  unfold recovering
  by_cases fresh : b.status.errorStatus = 0
  · rw [if_pos fresh]
    refine ⟨fun _ => fresh, fun _ => ⟨(p.hookReply b).requests, ?_⟩⟩
    split <;> simp
  · rw [if_neg fresh]
    simp [fresh]

/-- At every moment of a run the error status is the one that its history calls for. The hook is
called at the entries into recovery where that is zero: it has been cleared since the last call,
or three shifts have followed the last shift of the error token. -/
theorem error_status_of_history (p : Parser V ε γ) (lexer : Lexer V ε σ) (source : σ)
    (context : γ) :
    (∀ c, p.Reaches lexer (.start source context) c →
      ∃ past, p.Past lexer (.start source context) past (.top c)) ∧
    (∀ c b, p.Reaches lexer (.start source context) c → p.Recovers lexer c b →
      ∃ past, p.Past lexer (.start source context) past (.entry b)) ∧
    ∀ past m, p.Past lexer (.start source context) past m →
      m.config.status.errorStatus = dueStatus past ∧
      ∀ b, m = .entry b →
        (p.recover lexer b).config.context =
          (if dueStatus past = 0 then (p.hookReply b).context else b.context) ∧
        ((∃ requests, .hook requests ∈ p.recovering b) ↔ dueStatus past = 0) ∧
        ∀ later requests earlier, past = later ++ .hook requests :: earlier →
          (∀ act ∈ later, act.isHook = false) → dueStatus past = 0 →
          .errok ∈ requests ∨
          (∃ rule asked, .action rule asked ∈ later ∧ .errok ∈ asked) ∨
          ∃ recent before, later = recent ++ .errorShift :: before ∧ .errorShift ∉ recent ∧
            3 ≤ recent.countP Act.isShift := by
  refine ⟨fun c reached => reached.past, fun c b reached recovers => ?_, fun past m passed => ?_⟩
  · obtain ⟨acts, passed⟩ := reached.past
    exact passed.of_recovers recovers
  have status := passed.errorStatus rfl
  refine ⟨status, ?_⟩
  rintro b rfl
  have due : b.status.errorStatus = dueStatus past := status
  refine ⟨due ▸ p.recover_context lexer b, due ▸ hook_mem_recovering b, ?_⟩
  intro later requests earlier split quiet zero
  rcases passed.between_hooks zero split with ⟨act, member, clears⟩ | counted
  · rcases List.mem_cons.mp member with rfl | inside
    · exact .inl (Request.any_isErrok.mp clears)
    · cases act with
      | action rule asked =>
        exact .inr (.inl ⟨rule, asked, inside, Request.any_isErrok.mp clears⟩)
      | hook asked => exact absurd (quiet _ inside) (by simp [Act.isHook])
      | shift | errorShift => contradiction
  · exact .inr (.inr counted)

end Parser

end ShiftReduce
