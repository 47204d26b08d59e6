import Mathlib
import Interleaving.Session.Execution

/-!
# Runs of programs

A run as the program sees it: one after the other, operations that can run are run, and each request
for a value gets some answer (`Program.Runs`). The log of a run holds what the program has told the
scheduler. Whatever a session does to run an operation is a step of such a run, and the clocks in the
log are those that the race monitor is given (`Execution.tells_of_perform`).
-/

namespace Interleaving

variable {σ : Type} {id : OperationId}

/-- What a program tells the scheduler. -/
inductive Notice where
  /-- A message was sent, and this is the sender's clock after it. -/
  | sent (sender : String) (location : UInt32) (receiver : String) (clock : VectorClock)
  /-- An actor has taken an event from its inbox. -/
  | taken (receiver : String) (event : Event)
  /-- There is a bug. -/
  | bug (message : String)
deriving DecidableEq

namespace Notice

/-- Whether a message was sent to the receiver. -/
def isSentTo (receiver : String) : Notice → Bool
  | sent _ _ r _ => r == receiver
  | _ => false

/-- Whether the receiver has taken an event. -/
def isTakenBy (receiver : String) : Notice → Bool
  | taken r _ => r == receiver
  | _ => false

/-- What the race monitor makes of a notice. -/
def monitored (monitor : RaceMonitor) : Notice → RaceMonitor
  | sent sender location receiver clock => (monitor.onSend sender location receiver clock).2
  | _ => monitor

end Notice

/-- With some answers, an action of the operation `id` comes to its end in a state, and tells the
scheduler of something on the way. -/
inductive Action.Tells (id : OperationId) : Action σ → List Notice → σ → Prop where
  | done {s : σ} :
    Tells id (.done s) [] s
  | chooseBool {maxValue : UInt64} {unanswered s : σ} {next : Bool → Action σ} {b : Bool}
      {notices : List Notice} :
    Tells id (next b) notices s →
    Tells id (.chooseBool maxValue unanswered next) notices s
  | chooseInt {maxValue : UInt64} {unanswered s : σ} {next : UInt64 → Action σ} {n : UInt64}
      {notices : List Notice} :
    Tells id (next n) notices s →
    Tells id (.chooseInt maxValue unanswered next) notices s
  | send {sender receiver : String} {location : UInt32} {clock : VectorClock} {next : Action σ}
      {s : σ} {notices : List Notice} :
    Tells id next notices s →
    Tells id (.send sender location receiver clock next)
      (.sent sender location receiver clock :: notices) s
  | dequeue {receiver : String} {event : Event} {next : Action σ} {s : σ} {notices : List Notice} :
    Tells id next notices s →
    Tells id (.dequeue receiver event next) (.taken receiver event :: notices) s
  | report {message : String} {next : Action σ} {s : σ} {notices : List Notice} :
    Tells id next notices s →
    Tells id (.report message next) (.bug message :: notices) s
  | inspect {races : Nat} {next : OperationId → Nat → Action σ} {s : σ} {notices : List Notice} :
    Tells id (next id races) notices s →
    Tells id (.inspect next) notices s

/-- An operation that was run: whose it was, and what the scheduler was told. -/
structure LoggedStep where
  actor : String
  notices : List Notice

/-- Whatever the answers are, an action comes to its end without an error of its own. -/
def Action.Completes : Action σ → Prop
  | .done _ => True
  | .fail _ _ => False
  | .chooseBool _ _ next => ∀ b, (next b).Completes
  | .chooseInt _ _ next => ∀ n, (next n).Completes
  | .send _ _ _ _ next => next.Completes
  | .dequeue _ _ next => next.Completes
  | .report _ next => next.Completes
  | .inspect next => ∀ id races, (next id races).Completes

/-- The program can run operations with this log, and is then in the state. -/
inductive Program.Runs (program : Program σ) : List LoggedStep → σ → Prop where
  | initial :
    Runs program [] program.initial
  | step {log : List LoggedStep} {s s' : σ} {op : Operation} {notices : List Notice} :
    Runs program log s →
    op ∈ program.operations s →
    op.isEnabled = true →
    (program.execute s op.id).Tells op.id notices s' →
    Runs program (log ++ [⟨op.actor, notices⟩]) s'

/-- As `Action.Tells`, but each number is below its bound, if that is not `0`. -/
inductive Action.TellsInRange (id : OperationId) : Action σ → List Notice → σ → Prop where
  | done {s : σ} :
    TellsInRange id (.done s) [] s
  | chooseBool {maxValue : UInt64} {unanswered s : σ} {next : Bool → Action σ} {b : Bool}
      {notices : List Notice} :
    TellsInRange id (next b) notices s →
    TellsInRange id (.chooseBool maxValue unanswered next) notices s
  | chooseInt {maxValue : UInt64} {unanswered s : σ} {next : UInt64 → Action σ} {n : UInt64}
      {notices : List Notice} :
    maxValue = 0 ∨ n < maxValue →
    TellsInRange id (next n) notices s →
    TellsInRange id (.chooseInt maxValue unanswered next) notices s
  | send {sender receiver : String} {location : UInt32} {clock : VectorClock} {next : Action σ}
      {s : σ} {notices : List Notice} :
    TellsInRange id next notices s →
    TellsInRange id (.send sender location receiver clock next)
      (.sent sender location receiver clock :: notices) s
  | dequeue {receiver : String} {event : Event} {next : Action σ} {s : σ} {notices : List Notice} :
    TellsInRange id next notices s →
    TellsInRange id (.dequeue receiver event next) (.taken receiver event :: notices) s
  | report {message : String} {next : Action σ} {s : σ} {notices : List Notice} :
    TellsInRange id next notices s →
    TellsInRange id (.report message next) (.bug message :: notices) s
  | inspect {races : Nat} {next : OperationId → Nat → Action σ} {s : σ} {notices : List Notice} :
    TellsInRange id (next id races) notices s →
    TellsInRange id (.inspect next) notices s

lemma Action.TellsInRange.tells {a : Action σ} {notices : List Notice} {s : σ}
    (h : a.TellsInRange id notices s) : a.Tells id notices s := by
  induction h with
  | done => exact .done
  | chooseBool _ ih => exact .chooseBool ih
  | chooseInt _ _ ih => exact .chooseInt ih
  | send _ ih => exact .send ih
  | dequeue _ ih => exact .dequeue ih
  | report _ ih => exact .report ih
  | inspect _ ih => exact .inspect ih

/-- As `Program.Runs`, but each number that the program gets is below the bound that it has asked for,
as those are that a strategy picks. -/
inductive Program.RunsInRange (program : Program σ) : List LoggedStep → σ → Prop where
  | initial :
    RunsInRange program [] program.initial
  | step {log : List LoggedStep} {s s' : σ} {op : Operation} {notices : List Notice} :
    RunsInRange program log s →
    op ∈ program.operations s →
    op.isEnabled = true →
    (program.execute s op.id).TellsInRange op.id notices s' →
    RunsInRange program (log ++ [⟨op.actor, notices⟩]) s'

lemma Program.RunsInRange.runs {program : Program σ} {log : List LoggedStep} {s : σ}
    (h : program.RunsInRange log s) : program.Runs log s := by
  induction h with
  | initial => exact .initial
  | step _ mem enabled tells ih => exact .step ih mem enabled tells.tells

/-- Under any scheduler, the race monitor gets the clocks of the sends that are told of. -/
theorem Execution.tells_of_perform {S : Type} [Scheduler S] {e f : Execution σ S} {a : Action σ}
    (h : e.perform id a = (.ok (), f)) :
    ∃ notices, a.Tells id notices f.state ∧
      f.monitor = notices.foldl Notice.monitored e.monitor := by
  induction a generalizing e with
  | done s =>
    cases h
    exact ⟨[], .done, rfl⟩
  | fail s error => cases h
  | chooseBool maxValue unanswered next ih =>
    rw [perform] at h
    split at h
    · obtain ⟨notices, tells, monitor⟩ := ih _ h
      exact ⟨notices, .chooseBool tells, monitor⟩
    · cases h
  | chooseInt maxValue unanswered next ih =>
    rw [perform] at h
    split at h
    · obtain ⟨notices, tells, monitor⟩ := ih _ h
      exact ⟨notices, .chooseInt tells, monitor⟩
    · cases h
  | send sender location receiver clock next ih =>
    obtain ⟨notices, tells, monitor⟩ := ih h
    exact ⟨_, .send tells, monitor⟩
  | dequeue receiver event next ih =>
    obtain ⟨notices, tells, monitor⟩ := ih h
    exact ⟨_, .dequeue tells, monitor⟩
  | report message next ih =>
    obtain ⟨notices, tells, monitor⟩ := ih h
    exact ⟨_, .report tells, monitor⟩
  | inspect next ih =>
    obtain ⟨notices, tells, monitor⟩ := ih _ _ h
    exact ⟨notices, .inspect tells, monitor⟩

/-- What goes wrong in an action that completes is that the scheduler refuses an answer. -/
theorem Execution.refused_of_perform {S : Type} [Scheduler S] {e f : Execution σ S} {a : Action σ}
    {error : StrategyError} (completes : a.Completes) (h : e.perform id a = (.error error, f)) :
    ∃ strategy maxValue, (Scheduler.nextBool strategy maxValue).1 = .error error ∨
      (Scheduler.nextInt (S := S) strategy maxValue).1 = .error error := by
  induction a generalizing e with
  | done s => cases h
  | fail s error => exact completes.elim
  | chooseBool maxValue unanswered next ih =>
    rw [perform] at h
    split at h
    · exact ih _ (completes _) h
    · next refused =>
      cases h
      exact ⟨_, _, .inl (congrArg Prod.fst refused)⟩
  | chooseInt maxValue unanswered next ih =>
    rw [perform] at h
    split at h
    · exact ih _ (completes _) h
    · next refused =>
      cases h
      exact ⟨_, _, .inr (congrArg Prod.fst refused)⟩
  | send sender location receiver clock next ih => exact ih completes h
  | dequeue receiver event next ih => exact ih completes h
  | report message next ih => exact ih completes h
  | inspect next ih => exact ih _ _ (completes _ _) h

end Interleaving
