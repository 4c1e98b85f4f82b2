import ShiftReduce.Proofs.Projection

namespace ShiftReduce

variable {V ε γ κ σ : Type}

namespace Lexer

variable (lexer : Lexer V ε σ)

/-- The same lexer, which also keeps the statuses that it is shown, the latest first. -/
def recording : Lexer V ε (σ × List (Status V)) :=
  fun status source =>
    ((lexer status source.1).1, ((lexer status source.1).2, status :: source.2))

/-- The same lexer, which also keeps the lexemes that it hands out, the latest first. -/
def logging : Lexer V ε (σ × List (Lexeme V)) :=
  fun status source =>
    ((lexer status source.1).1,
      ((lexer status source.1).2, (lexer status source.1).1.toOption.toList ++ source.2))

theorem recording_projects : lexer.recording.Projects lexer Prod.fst := fun _ _ => rfl

theorem logging_projects : lexer.logging.Projects lexer Prod.fst := fun _ _ => rfl

end Lexer

/-- A call of a callback, with all that it is shown. -/
inductive Call (V : Type) where
  | action (rule : Nat) (values : List (Option V)) (view : View V)
  | hook (view : View V)

namespace Driver

/-- The same driver, which also keeps the calls of its callbacks, the latest first. -/
def recording (d : Driver V ε γ) : Driver V ε (γ × List (Call V)) where
  hasAction := d.hasAction
  reduce rule values view context :=
    let reply := d.reduce rule values view context.1
    { reply with context := (reply.context, .action rule values view :: context.2) }
  onError view context :=
    let reply := d.onError view context.1
    { reply with context := (reply.context, .hook view :: context.2) }

theorem recording_projects (d : Driver V ε γ) : d.recording.Projects d Prod.fst :=
  ⟨fun _ => rfl, fun _ _ _ _ => rfl, fun _ _ => rfl⟩

theorem Projects.refl (d : Driver V ε γ) : d.Projects d id :=
  ⟨fun _ => rfl, fun _ _ _ _ => rfl, fun _ _ => rfl⟩

end Driver

namespace Parser

/-- With the same flags, parsers record the same. -/
theorem Projects.of_driver {tables : Tables} {d : Driver V ε γ} {d' : Driver V ε κ}
    {context : γ → κ} (driver : d.Projects d' context) (flags : Trace.Flags) :
    Projects ⟨tables, d, flags⟩ ⟨tables, d', flags⟩ context id :=
  ⟨rfl, driver, fun _ _ => rfl, fun _ _ => rfl⟩

end Parser

end ShiftReduce
