import OpsSentry.Cron.Engine
import OpsSentry.Foundation.Semaphore
import OpsSentry.Ledger.AtOnce

/-! `CronEngine._execute_job_wrapper`: any number of its coroutines in one event loop, each of which
runs up to its next `await` in one step. -/

namespace OpsSentry.Cron.Backpressure

open Foundation Foundation.Programs Foundation.Runs Foundation.Strings Foundation.Values Ledger

section Ledger

variable (job : CronJob)

def skippedMetadata : Dict :=
  [("job_id", .str job.id), ("job_name", .str job.name), ("reason", .str "Backpressure")]

def execMetadata : Dict :=
  [("job_id", .str job.id), ("job_name", .str job.name), ("payload_kind", .str job.payload.kind)]

def recordSkipped : Ledger.Code LedgerEntry := do
  let ledger_entry ← createEntry "cron_job_skipped" none none none (some (skippedMetadata job))
  let _ ← markRunning ledger_entry.id none
  markCompleted ledger_entry.id (some [("status", .str "skipped")])

def recordStarted : Ledger.Code LedgerEntry := do
  let ledger_entry ← createEntry "cron_job_exec" none none none (some (execMetadata job))
  markRunning ledger_entry.id none

/-- What follows a payload that returned a result or raised an exception of some text. -/
def recordOutcome (entry_id : String) : Except String Value → Ledger.Code LedgerEntry
  | .ok result => tryCatch (markCompleted entry_id (some [("result", result)])) fun e =>
      markFailed entry_id e.text none
  | .error e => markFailed entry_id e none

end Ledger

inductive Stage
  | waiting (job : CronJob)
  | running (job : CronJob) (entry_id : String)
  | ended (job : Option CronJob)

/-- A call of the wrapper, with the ids of the ledger entries that it has created. It has ended
without a job if it found none that is enabled. -/
structure Invocation where
  stage : Stage
  entries : List String

def Invocation.running (c : Invocation) : Bool :=
  match c.stage with
  | .running .. => true
  | _ => false

variable {p : Platform}

structure State (p : Platform) where
  semaphore : Semaphore ℕ
  engine : Cron.World p
  ledger : Ledger.World
  invocations : List Invocation

def State.start (max_concurrent_jobs : ℕ) (engine : Cron.World p) (ledger : Ledger.World) : State p :=
  ⟨⟨max_concurrent_jobs, []⟩, engine, ledger, []⟩

/-- The ledger calls of a step succeed; in particular a new id is not taken. -/
def succeed (clock : ℕ → Int64) (uuid : String) (q : Ledger.Code LedgerEntry) (w : Ledger.World) :
    Option (Ledger.World × LedgerEntry) :=
  match q.alone (atOnce clock uuid) 0 w with
  | some (v, .ok e) => some (v, e)
  | _ => none

def invoke (job_id : String) (clock : ℕ → Int64) (uuid : String) (s : State p) : Option (State p) :=
  match (s.engine.jobs.get? job_id).filter (·.enabled) with
  | none => some { s with invocations := s.invocations ++ [⟨.ended none, []⟩] }
  | some job =>
    if s.semaphore.locked && job.priority < 30 then
      (succeed clock uuid (recordSkipped job) s.ledger).map fun r =>
        { s with ledger := r.1, invocations := s.invocations ++ [⟨.ended (some job), [r.2.id]⟩] }
    else if s.semaphore.locked then
      some { s with
        semaphore := s.semaphore.enqueue s.invocations.length
        invocations := s.invocations ++ [⟨.waiting job, []⟩] }
    else
      (succeed clock uuid (recordStarted job) s.ledger).map fun r =>
        { s with
          semaphore := s.semaphore.take
          ledger := r.1
          invocations := s.invocations ++ [⟨.running job r.2.id, [r.2.id]⟩] }

def resume (i : ℕ) (clock : ℕ → Int64) (uuid : String) (s : State p) : Option (State p) :=
  match s.invocations[i]? with
  | some ⟨.waiting job, entries⟩ =>
    if (i, true) ∈ s.semaphore.waiters then
      (succeed clock uuid (recordStarted job) s.ledger).map fun r =>
        { s with
          semaphore := s.semaphore.resume i
          ledger := r.1
          invocations := s.invocations.set i ⟨.running job r.2.id, entries ++ [r.2.id]⟩ }
    else none
  | _ => none

/-- An exception of `remove_job` ends the invocation, but only after the permit is given back. -/
def finish (i : ℕ) (outcome : Except String Value) (clock : ℕ → Int64) (d : Disk) (s : State p) : Option (State p) :=
  match s.invocations[i]? with
  | some ⟨.running job entry_id, entries⟩ =>
    (succeed clock "" (recordOutcome entry_id outcome) s.ledger).map fun r =>
      { semaphore := s.semaphore.release
        engine := if job.deleteAfterRun then (removeJob job.id d s.engine).1 else s.engine
        ledger := r.1
        invocations := s.invocations.set i ⟨.ended (some job), entries⟩ }
  | _ => none

def target : Ledger.Command → Option PyStr
  | .append entry => some entry.id
  | .update entry_id .. | .delete entry_id => some entry_id
  | _ => none

def entries (s : State p) : List String := s.invocations.flatMap Invocation.entries

/-- Anything else: the jobs change in any way, and an entry of the ledger that is none of the
invocations' is written. -/
def elsewhere (engine : Cron.World p) (c : Ledger.Command) (o : Oracle) (s : State p) : Option (State p) :=
  if (target c).any (· ∈ (entries s).map .text) then none
  else (exec 0 o s.ledger c).map fun r => { s with engine, ledger := r.1 }

inductive Label (p : Platform)
  | invoke (job_id : String) (clock : ℕ → Int64) (uuid : String)
  | resume (i : ℕ) (clock : ℕ → Int64) (uuid : String)
  | finish (i : ℕ) (outcome : Except String Value) (clock : ℕ → Int64) (d : Disk)
  | elsewhere (engine : Cron.World p) (c : Ledger.Command) (o : Oracle)

def step (s : State p) : Label p → Option (State p)
  | .invoke job_id clock uuid => invoke job_id clock uuid s
  | .resume i clock uuid => resume i clock uuid s
  | .finish i outcome clock d => finish i outcome clock d s
  | .elsewhere engine c o => elsewhere engine c o s

end OpsSentry.Cron.Backpressure
