import OpsSentry.Foundation.Dicts
import OpsSentry.Foundation.Text
import OpsSentry.Foundation.Values

/-! `cron_engine.py` and the PATCH route of `routers/cron.py`: the jobs of the engine, what the
scheduler holds, and `jobs.json`. State that an exception leaves behind is kept. -/

namespace OpsSentry.Cron

open Foundation.Dicts Foundation.Strings Foundation.Values

structure Schedule where
  kind : String
  inMs : Option ℤ := none
  at_ : Option (String ⊕ ℤ) := none
  everyMs : Option ℤ := none
  expr : Option String := none
  tz : Option String := some "Asia/Shanghai"
  jitter : Option ℤ := some 0

structure Payload where
  kind : String
  command : Option String := none
  tool : Option String := none
  args : Option Dict := none
  message : Option String := none

structure CronJob where
  id : String
  name : String
  schedule : Schedule
  payload : Payload
  uid : String
  did : Option String := none
  enabled : Bool := true
  deleteAfterRun : Bool := false
  priority : ℤ := 10
  created_at : ℤ

def optional {α : Type} (f : α → Value) (x : Option α) : Value := x.elim .null f

def Schedule.modelDump (s : Schedule) : Dict :=
  [("kind", .str s.kind), ("inMs", optional .int s.inMs), ("at", optional (Sum.elim .str .int) s.at_),
    ("everyMs", optional .int s.everyMs), ("expr", optional .str s.expr), ("tz", optional .str s.tz),
    ("jitter", optional .int s.jitter)]

def Payload.modelDump (p : Payload) : Dict :=
  [("kind", .str p.kind), ("command", optional .str p.command), ("tool", optional .str p.tool),
    ("args", optional .dict p.args), ("message", optional .str p.message)]

def CronJob.modelDump (j : CronJob) : OrderedDict PyStr Value where
  items := [("id", .str j.id), ("name", .str j.name), ("schedule", .dict j.schedule.modelDump),
    ("payload", .dict j.payload.modelDump), ("uid", .str j.uid), ("did", optional .str j.did),
    ("enabled", .bool j.enabled), ("deleteAfterRun", .bool j.deleteAfterRun),
    ("priority", .int j.priority), ("created_at", .int j.created_at)]
  nodup := by simp

inductive Exc
  | http (status_code : ℕ) (detail : String)
  | raised (message : String)

structure CronFields where
  second : Option String
  minute : String
  hour : String
  day : String
  month : String
  day_of_week : String

/-- The libraries the engine calls: dates, the triggers and the scheduler of APScheduler, and
the validation of pydantic. Of the scheduler the engine relies on this: a job that was added is
held, in place of an older one with its id; a held job can be removed, and is then not held. -/
structure Platform where
  Date : Type
  Trigger : Type
  State : Type
  fromNow : (now milliseconds : ℤ) → Except Exc Date
  fromtimestamp : (milliseconds : ℤ) → Except Exc Date
  fromisoformat : String → Except Exc Date
  dateTrigger : Date → Except Exc Trigger
  intervalTrigger : (milliseconds jitter : ℤ) → Except Exc Trigger
  cronTrigger : CronFields → (timezone : Option String) → (jitter : ℤ) → Except Exc Trigger
  validate : OrderedDict PyStr Value → Except Exc CronJob
  getJob : State → String → Bool
  addJob : (now : ℤ) → Trigger → String → State → Except Exc State
  removeJob : String → State → Except Exc State
  getJob_addJob : ∀ {now t i s s'}, addJob now t i s = .ok s' → ∀ j, getJob s' j = (getJob s j || decide (j = i))
  removeJob_ok : ∀ {i s}, getJob s i = true → ∃ s', removeJob i s = .ok s'
  getJob_removeJob : ∀ {i s s'}, removeJob i s = .ok s' → ∀ j, getJob s' j = (getJob s j && !decide (j = i))

/-- What `jobs.json` holds: the listing of some jobs, or a text that lists none. -/
inductive JobsFile
  | absent
  | listing (jobs : List CronJob)
  | broken (text : String)

def JobsFile.listed : JobsFile → Option (List CronJob)
  | absent => some []
  | listing jobs => some jobs
  | broken _ => none

/-- Whether `open` succeeds, whether the writes do, and what is in the file when they stop early. -/
structure Disk where
  opens : Bool := true
  writes : Bool := true
  spilled : String := ""

abbrev Jobs := OrderedDict String CronJob

def Encodable (jobs : Jobs) : Prop := ∀ j ∈ jobs.values, refusedDict j.modelDump.items = none

instance (jobs : Jobs) : Decidable (Encodable jobs) :=
  inferInstanceAs (Decidable (∀ j ∈ jobs.values, _))

def saveJobs (d : Disk) (file : JobsFile) (jobs : Jobs) : JobsFile :=
  if d.opens then
    if d.writes ∧ Encodable jobs then .listing jobs.values else .broken d.spilled
  else file

variable (p : Platform)

def runDate : Option (String ⊕ ℤ) → Except Exc p.Date
  | some (.inr ms) => p.fromtimestamp ms
  | some (.inl text) => p.fromisoformat text
  | none => .error (.raised "fromisoformat: argument must be str")

def cronFields : List String → Option CronFields
  | [minute, hour, day, month, day_of_week] => some ⟨none, minute, hour, day, month, day_of_week⟩
  | [second, minute, hour, day, month, day_of_week] =>
    some ⟨some second, minute, hour, day, month, day_of_week⟩
  | _ => none

/-- `None` is no error: such a job is simply not scheduled. -/
def makeTrigger (now : ℤ) (s : Schedule) : Except Exc (Option p.Trigger) :=
  let jitter := s.jitter.getD 0
  if s.kind = "in" then do
    let run_date ← p.fromNow now (s.inMs.getD 0)
    some <$> p.dateTrigger run_date
  else if s.kind = "at" then do
    let run_date ← runDate p s.at_
    some <$> p.dateTrigger run_date
  else if s.kind = "every" then some <$> p.intervalTrigger (s.everyMs.getD 0) jitter
  else if s.kind = "cron" then
    match s.expr with
    | none => throw (.raised "'NoneType' object has no attribute 'split'")
    | some expr =>
      match cronFields (Foundation.Text.split expr) with
      | some fields => some <$> p.cronTrigger fields s.tz jitter
      | none => pure none
  else pure none

def scheduleJob (now : ℤ) (job : CronJob) (s : p.State) : Except Exc p.State := do
  match ← makeTrigger p now job.schedule with
  | some trigger => p.addJob now trigger job.id s
  | none => pure s

structure World where
  jobs : Jobs
  scheduler : p.State
  file : JobsFile

variable {p}

def addJob (job : CronJob) (now : ℤ) (d : Disk) (w : World p) : World p × Except Exc CronJob :=
  let jobs := w.jobs.set job.id job
  if job.enabled then
    match scheduleJob p now job w.scheduler with
    | .error e => ({ w with jobs }, .error e)
    | .ok scheduler => (⟨jobs, scheduler, saveJobs d w.file jobs⟩, .ok job)
  else (⟨jobs, w.scheduler, saveJobs d w.file jobs⟩, .ok job)

def removeJob (job_id : String) (d : Disk) (w : World p) : World p × Except Exc Unit :=
  match w.jobs.get? job_id with
  | none => (w, .ok ())
  | some _ =>
    let jobs := w.jobs.erase job_id
    if p.getJob w.scheduler job_id then
      match p.removeJob job_id w.scheduler with
      | .error e => ({ w with jobs }, .error e)
      | .ok scheduler => (⟨jobs, scheduler, saveJobs d w.file jobs⟩, .ok ())
    else (⟨jobs, w.scheduler, saveJobs d w.file jobs⟩, .ok ())

def patched (job_id uid : String) (patch : Option (OrderedDict PyStr Value)) (w : World p) :
    Except Exc CronJob :=
  match (w.jobs.get? job_id).filter (·.uid = uid) with
  | none => throw (.http 404 s!"Job {job_id} not found or access denied")
  | some job => p.validate (((job.modelDump.update (patch.getD .empty)).set "uid" (.str uid)))

/-- PATCH saves twice, once in `remove_job` and once in `add_job`. -/
def updateJob (job_id uid : String) (patch : Option (OrderedDict PyStr Value)) (now : ℤ)
    (removal addition : Disk) (w : World p) : World p × Except Exc CronJob :=
  match patched job_id uid patch w with
  | .error e => (w, .error e)
  | .ok updated =>
    match removeJob job_id removal w with
    | (w, .error e) => (w, .error e)
    | (w, .ok ()) => addJob updated now addition w

end OpsSentry.Cron
