import FileChecks.Proofs.Log.Shared
import FileChecks.Proofs.Value.Writing
import FileChecks.Script.LogSteps

/-!
Messages in nested blocks. A message carries the pairs of the blocks around it, the outermost first,
and then its own. Once a block is left, nothing shows that it was there.
-/
namespace FileChecks

namespace Context

def lastValue (pairs : Context) (name : String) : Value := (pairs.reverse.lookup name).getD .null

/-- Each name of some pairs where it first occurs, with its last value. -/
def overlay (pairs : Context) : Context :=
  (pairs.map (·.1)).eraseDups.map fun name => (name, pairs.lastValue name)

variable {names : List String} {name : String}

end Context

namespace Registry
variable (r : Registry) (contexts : List Context)

def under : Registry := { r with contexts }

end Registry

namespace Script.LogSteps

def Step.isCall : Step → Bool
  | .push .. | .pop => false
  | _ => true

def Step.isLog : Step → Bool
  | .log .. => true
  | _ => false

abbrev Call := { step : Step // step.isCall = true }

/-- A call that a program made, in which blocks, and what it met and answered. -/
structure Record where
  opened : List Context
  before : State
  step : Step
  reply : Reply

structure Trace where
  final : State
  raised : Bool
  records : List Record

namespace Trace

def andThen (trace : Trace) (next : State → Trace) : Trace :=
  { next trace.final with records := trace.records ++ (next trace.final).records }

end Trace

def unwritten : Except StepFault Value := .error (.failure .unwritable)

/-- Whether a call does not fail because its message cannot be written. -/
def Record.IsWritten (record : Record) : Prop :=
  record.step.isLog = true → record.reply.result ≠ unwritten

namespace State
variable (s : State) (contexts : List Context)

def under : State := { s with registry := s.registry.under contexts }

/-- What a step gives in some blocks, and what it gives: the answer is the same, and so is the state
but for the blocks. -/
def SameUnder (inside outside : Reply × State) : Prop :=
  inside.2 = outside.2.under contexts ∧ inside.1.result = outside.1.result

end State

/-- Programs that end alike, but for the blocks that are open behind them. -/
def Trace.SameUnder (contexts : List Context) (inside outside : Trace) : Prop :=
  inside.final = outside.final.under contexts ∧ inside.raised = outside.raised

/-- Programs that end alike can be followed by others that end alike, if no message fails. -/
theorem Trace.SameUnder.andThen {contexts : List Context} {inside outside : Trace}
    (h : SameUnder contexts inside outside) {next next' : State → Trace}
    (hnext : ∀ s : State, (∀ record ∈ (next (s.under contexts)).records, record.IsWritten) →
      (∀ record ∈ (next' s).records, record.IsWritten) →
        SameUnder contexts (next (s.under contexts)) (next' s))
    (hinside : ∀ record ∈ (inside.andThen next).records, record.IsWritten)
    (houtside : ∀ record ∈ (outside.andThen next').records, record.IsWritten) :
    SameUnder contexts (inside.andThen next) (outside.andThen next') := by
  have hlater := hnext outside.final
  rw [← h.1] at hlater
  exact hlater (fun record hrecord => hinside record (List.mem_append_right _ hrecord))
    fun record hrecord => houtside record (List.mem_append_right _ hrecord)

namespace State
variable (s : State)

def InBlocks (opened : List Context) : Prop :=
  s.registry.contexts.reverse = opened.map (Context.update [])

variable {s} in
theorem InBlocks.push {opened : List Context} (h : s.InBlocks opened) (context : Context) :
    (s.under (Context.update [] context :: s.registry.contexts)).InBlocks
      (opened ++ [context]) := by
  rw [InBlocks, List.map_append, ← h]
  exact List.reverse_cons

end State

/-- The message of a call that logs, if it passes: it carries the pairs of the blocks that are open
and then those of the call, if these can be written. Other calls have none. -/
def Record.message? (record : Record) : Except Failure (Option Message) :=
  match record.step with
  | .log severity id text own =>
    match record.before.loggers.lookup id with
    | some logger =>
      if record.before.registry.passes logger.channel severity.rank then do
        let text ← (Context.overlay (record.opened.flatten ++ own)).render text
        return some ⟨severity, logger.channel, text⟩
      else return none
    | none => return none
  | _ => return none

namespace Program
variable {opened : List Context} {s : State}

end Program
end Script.LogSteps
end FileChecks
