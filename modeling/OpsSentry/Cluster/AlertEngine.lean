import OpsSentry.Foundation.Runs
import Mathlib.Data.List.Basic

/-! `cluster/alert_engine.py`: the Redis buffer of the `AlertAggregator` and the batches taken from it. -/

namespace OpsSentry.Cluster.Alerts

/-- `sentry:alerts:buffer`, from the left. -/
abbrev Buffer := List String

def lpush (buffer : Buffer) (raw : String) : Buffer := raw :: buffer

def rpop (buffer : Buffer) : Option String × Buffer := (buffer.getLast?, buffer.dropLast)

def batch_size : ℕ := 1000

/-- A pipeline of `RPOP`s, which the server runs at once. -/
def execute : ℕ → Buffer → List (Option String) × Buffer
  | 0, buffer => ([], buffer)
  | n + 1, buffer => ((rpop buffer).1 :: (execute n (rpop buffer).2).1, (execute n (rpop buffer).2).2)

inductive Outcome
  | found_any (found : Bool)
  | raised

/-- The loop over the results. What stands for an event is the text that `model_validate_json`
made it from. -/
def collect (valid : String → Bool) : List (Option String) → Bool → List String → List String × Outcome
  | [], found, raw_events => (raw_events, .found_any found)
  | none :: results, found, raw_events => collect valid results found raw_events
  | some raw :: results, found, raw_events =>
    if raw = "" then collect valid results found raw_events
    else if valid raw then collect valid results true (raw_events ++ [raw])
    else (raw_events, .raised)

/-- The list in Redis, the `raw_events` of each `_process_batch` that is under way, what has been
passed to `_aggregate` by whom, and all that was ever in the list. -/
structure World (A : Type) where
  buffer : Buffer
  running : List (A × List String)
  passed : List (A × List String)
  pushed : List String

variable {A : Type} [DecidableEq A]

def World.start (buffer : Buffer) : World A := ⟨buffer, [], [], buffer⟩

/-- Nothing is aggregated from an empty list. The dispatch that follows has no part in the buffer. -/
def World.leave (w : World A) (a : A) (raw_events : List String) : World A :=
  { w with passed := if raw_events = [] then w.passed else w.passed ++ [(a, raw_events)] }

inductive Event (A : Type)
  | emit (raw : String)
  | begin (a : A)
  | execute (a : A) (fails : Bool)

/-- One pipeline of `a` and the loop over its results: nobody else sees what lies between them. -/
def fetch (valid : String → Bool) (w : World A) (a : A) (raw_events : List String) : World A :=
  let taken := execute batch_size w.buffer
  let rest : World A := { w with buffer := taken.2, running := w.running.erase (a, raw_events) }
  match collect valid taken.1 false raw_events with
  | (raw_events, .raised) => rest.leave a raw_events
  | (raw_events, .found_any found) =>
    if !found || taken.1.length < batch_size then rest.leave a raw_events
    else { rest with running := (a, raw_events) :: rest.running }

def step (valid : String → Bool) (w : World A) : Event A → Option (World A)
  | .emit raw => some { w with buffer := lpush w.buffer raw, pushed := raw :: w.pushed }
  | .begin a =>
    match w.running.lookup a with
    | some _ => none
    | none => some { w with running := (a, []) :: w.running }
  | .execute a fails =>
    match w.running.lookup a with
    | none => none
    | some raw_events =>
      if fails then some (World.leave { w with running := w.running.erase (a, raw_events) } a raw_events)
      else some (fetch valid w a raw_events)

/-- Every valid event that was ever pushed is in the list or was passed on, and by one aggregator. -/
def Kept (valid : String → Bool) (w : World A) : Prop :=
  (w.pushed.filter valid).Perm (w.buffer.filter valid ++ w.passed.flatMap Prod.snd)

end OpsSentry.Cluster.Alerts
