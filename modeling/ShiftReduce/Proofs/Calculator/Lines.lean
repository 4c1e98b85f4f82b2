import ShiftReduce.Proofs.Calculator.Automaton

namespace ShiftReduce.Calculator

variable (session : Session) (ts : List Token)

/-- A run begins as between two lines. -/
theorem moves_start (input : List Token) :
    Moves [] ⟨[⟨0, none⟩], 0, session, input⟩ ⟨base, 0, session, input⟩ := by
  have replies : Replies ⟨[⟨0, none⟩], 0, session, input⟩ 1 "input" [] ⟨0, none⟩ []
      (session.produce none) := ⟨rfl, rfl, .noLine, rfl, rfl⟩
  exact replies.moves rfl (.blind (by decide)) rfl (by decide)
    (by decide) (.inl ⟨rfl, rfl⟩)

theorem moves_nextLine :
    Moves [] ⟨⟨9, none⟩ :: base, 0, session, ts⟩ ⟨base, 0, session, ts⟩ := by
  have replies : Replies ⟨⟨9, none⟩ :: base, 0, session, ts⟩ 2 "input" [⟨9, none⟩, ⟨1, none⟩]
      ⟨0, none⟩ [] (session.produce none) := ⟨rfl, rfl, .nextLine, rfl, rfl⟩
  exact replies.moves rfl (.blind (by decide)) rfl (by decide)
    (by decide) (.inl ⟨rfl, rfl⟩)

section Ends

variable {ts} in
/-- A line is reduced as soon as its newline is shifted. -/
theorem moves_reducedLine (popped : Stack) {under : Stack} {n r errorStatus : Nat}
    {value : Option Value} {p : Production} {reply : ActionReply} (top : popped = ⟨n, value⟩ :: under)
    (chooses : Chooses n ts (some (.reduce r)))
    (rule : tables.rules[r]? = some ⟨"line", popped.length, none⟩)
    (found : Production.ofRule? r = some p) (act : p.act (values popped) session = reply)
    (result : reply.result = .ok none)
    (requests : reply.requests = [] ∧ errorStatus = 0 ∨ reply.requests = [.errok]) :
    Moves [] ⟨popped ++ base, errorStatus, session, ts⟩ ⟨⟨9, none⟩ :: base, 0, reply.context, ts⟩ := by
  have replies : Replies ⟨popped ++ base, errorStatus, session, ts⟩ r "line" popped ⟨1, none⟩
      [⟨0, none⟩] reply := ⟨rfl, rule, p, found, act⟩
  have top' : popped ++ base = ⟨n, value⟩ :: (under ++ base) := by rw [top, List.cons_append]
  have goes : (stateAt 1).goto? "line" = some 9 := by decide
  exact replies.moves top' chooses result (by decide) goes
    (requests.imp (fun quiet => ⟨quiet.1, quiet.2.symm⟩) fun errok => ⟨errok, rfl⟩)

theorem moves_blank :
    Moves [.newline] ⟨base, 0, session, .newline :: ts⟩ ⟨⟨3, none⟩ :: base, 0, session, ts⟩ :=
  moves_shift (t := .newline) (by decide) trivial 0 session

theorem moves_blankLine :
    Moves [] ⟨⟨3, none⟩ :: base, 0, session, ts⟩ ⟨⟨9, none⟩ :: base, 0, session.endLine, ts⟩ :=
  moves_reducedLine (r := 3) (p := .blankLine) session [_] rfl (.blind (by decide)) rfl rfl rfl rfl
    (.inl ⟨rfl, rfl⟩)

theorem moves_result (v : Option Value) :
    Moves [.newline] ⟨⟨10, v⟩ :: base, 0, session, .newline :: ts⟩
      ⟨⟨15, none⟩ :: ⟨10, v⟩ :: base, 0, session, ts⟩ :=
  moves_shift (t := .newline) (by decide) trivial 0 session

theorem moves_resultLine (v : Int) :
    Moves [] ⟨⟨15, none⟩ :: ⟨10, some (.number v)⟩ :: base, 0, session, ts⟩
      ⟨⟨9, none⟩ :: base, 0, session.endLine.addResult (some v), ts⟩ :=
  moves_reducedLine (r := 4) (p := .resultLine) session [_, _] rfl (.blind (by decide)) rfl rfl rfl
    rfl (.inl ⟨rfl, rfl⟩)

theorem moves_mended :
    Moves [.newline] ⟨spoiltStack, 3, session, .newline :: ts⟩
      ⟨⟨11, none⟩ :: spoiltStack, 2, session, ts⟩ :=
  moves_shift (t := .newline) (by decide) trivial 3 session

/-- The reduction of a spoilt line ends its recovery. -/
theorem moves_spoiltLine :
    Moves [] ⟨⟨11, none⟩ :: spoiltStack, 2, session, ts⟩
      ⟨⟨9, none⟩ :: base, 0, session.endLine.addResult none, ts⟩ :=
  moves_reducedLine (r := 5) (p := .spoiltLine) session [_, _] rfl (.blind (by decide)) rfl rfl rfl
    rfl (.inr rfl)

end Ends

theorem leads_blankLine :
    Leads 3 ⟨base, 0, session, .newline :: ts⟩ ⟨base, 0, session.endLine, ts⟩ :=
  ((moves_blank session ts).leads.trans (moves_blankLine session ts).leads).trans
    (moves_nextLine _ ts).leads

theorem leads_resultLine (v : Int) :
    Leads 3 ⟨⟨10, some (.number v)⟩ :: base, 0, session, .newline :: ts⟩
      ⟨base, 0, session.endLine.addResult (some v), ts⟩ :=
  ((moves_result session ts _).leads.trans (moves_resultLine session ts v).leads).trans
    (moves_nextLine _ ts).leads

theorem leads_spoiltLine :
    Leads 3 ⟨spoiltStack, 3, session, .newline :: ts⟩
      ⟨base, 0, session.endLine.addResult none, ts⟩ :=
  ((moves_mended session ts).leads.trans (moves_spoiltLine session ts).leads).trans
    (moves_nextLine _ ts).leads

theorem leads_skip {ts : List Token} (rest : List Token) (inline : ∀ t ∈ ts, t.Fits ∧ t ≠ .newline) :
    Leads ts.length ⟨spoiltStack, 3, session, ts ++ rest⟩ ⟨spoiltStack, 3, session, rest⟩ := by
  induction ts with
  | nil => exact .refl _
  | cons t ts ih =>
    obtain ⟨⟨fits, inside⟩, inline⟩ := List.forall_mem_cons.mp inline
    have first : Leads 1 ⟨spoiltStack, 3, session, t :: (ts ++ rest)⟩
        ⟨spoiltStack, 3, session, ts ++ rest⟩ := (errs_discard fits inside session).leads
    exact (first.trans (ih inline)).mono (by simp; omega)

theorem replies_start : Replies ⟨⟨2, none⟩ :: base, 0, session, []⟩ 0 "$start"
    [⟨2, none⟩, ⟨1, none⟩] ⟨0, none⟩ [] (session.produce none) :=
  ⟨rfl, rfl, .start, rfl, rfl⟩

/-- Behind the last line the end of the input is shifted, and the run accepts. -/
theorem ends_accept : Ends 2 ⟨base, 0, session, []⟩ (.ok (.accept none)) session :=
  ends_end (by decide) ((replies_start session).accepts rfl (.blind (by decide)))

theorem hops_end : Hops [] ⟨base, 0, session, []⟩ ⟨⟨2, none⟩ :: base, 0, session, []⟩ :=
  fun flags _ => goes_end (by decide) flags

theorem stuck_accept : Stuck ⟨⟨2, none⟩ :: base, 0, session, []⟩ :=
  (replies_start session).stuck rfl (.blind (by decide))

end ShiftReduce.Calculator
