import OpsSentry.Cron.Backpressure
import OpsSentry.Cron.Restart

/-! The lives of one `jobs.json`: jobs are added, the scheduler fires them, and the process is restarted.
When a job of kind `in` is executed at most once. -/

namespace OpsSentry.Cron.Delayed

open Foundation.Dicts Foundation.Runs Foundation.Values Backpressure Routes

variable {p : Platform}

/-- A payload that was started, or an occurrence that was recorded as skipped. -/
structure Event where
  job : CronJob
  executed : Bool

/-- Jobs with a `DateTrigger`, which fires at most once after each `scheduler.add_job`. -/
def Schedule.dated (s : Schedule) : Bool := s.kind = "in" || s.kind = "at"

/-- The engine of the present process, whether its scheduler was started, and which ids have a trigger
that is still to fire, as a `DateTrigger` or not. Of all processes: the jobs that were added, and what
happened to them. -/
structure State (p : Platform) where
  wrapper : Backpressure.State p
  up : Bool
  armed : String → Option Bool
  added : String → Option CronJob
  history : List Event

/-- The first process starts on an empty directory. -/
def State.empty (max_concurrent_jobs : ℕ) (scheduler : p.State) (ledger : Ledger.World) : State p where
  wrapper := .start max_concurrent_jobs ⟨.empty, scheduler, .absent⟩ ledger
  up := true
  armed _ := none
  added _ := none
  history := []

variable (p) in
/-- The job is given to the scheduler. -/
def triggers (now : ℤ) (job : CronJob) : Bool :=
  job.enabled && match makeTrigger p now job.schedule with
    | .ok t => t.isSome
    | .error _ => false

variable (p) in
inductive Label
  | add_job (job : CronJob) (now : ℤ) (d : Disk)
  | fire (job_id : String) (scheduler : p.State) (clock : ℕ → Int64) (uuid : String)
  | resume (i : ℕ) (clock : ℕ → Int64) (uuid : String)
  | finish (i : ℕ) (outcome : Except String Value) (clock : ℕ → Int64) (d : Disk)
  | restart (max_concurrent_jobs : ℕ) (scheduler : p.State) (clock : String → ℤ)
  | ledger (c : Ledger.Command) (o : Ledger.Oracle)

/-- What has become of an invocation after its first step, or when it gets its turn. -/
def event (c : Invocation) : Option Event :=
  match c.stage with
  | .running job _ => some ⟨job, true⟩
  | .ended (some job) => some ⟨job, false⟩
  | _ => none

def recorded (w : Backpressure.State p) (i : ℕ) : List Event := (w.invocations[i]?.bind event).toList

/-- Without an update of a job: no id is added twice. -/
def addJob (job : CronJob) (now : ℤ) (d : Disk) (s : State p) : Option (State p) :=
  if (s.added job.id).isSome then none
  else
    let r := Cron.addJob job now d s.wrapper.engine
    some { s with
      wrapper := { s.wrapper with engine := r.1 }
      armed := if r.2.isOk && triggers p now job then
          Function.update s.armed job.id (some (Schedule.dated job.schedule))
        else s.armed
      added := Function.update s.added job.id (some job) }

def disarm (job_id : String) (armed : String → Option Bool) : String → Option Bool :=
  if armed job_id = some true then Function.update armed job_id none else armed

def fire (job_id : String) (scheduler : p.State) (clock : ℕ → Int64) (uuid : String) (s : State p) :
    Option (State p) :=
  if s.up && (s.armed job_id).isSome then
    (invoke job_id clock uuid s.wrapper).map fun w =>
      { s with
        wrapper := { w with engine := { w.engine with scheduler } }
        armed := disarm job_id s.armed
        history := s.history ++ recorded w s.wrapper.invocations.length }
  else none

/-- A removal by the wrapper takes the trigger away as well. -/
def unarmed (w : Backpressure.State p) (i : ℕ) (armed : String → Option Bool) : String → Option Bool :=
  match w.invocations[i]?.bind executing with
  | some job => if job.deleteAfterRun then Function.update armed job.id none else armed
  | none => armed

/-- The process ends at any moment, and a new one loads the jobs and starts. -/
def restart (max_concurrent_jobs : ℕ) (scheduler : p.State) (clock : String → ℤ) (s : State p) : State p :=
  let file := s.wrapper.engine.file
  let jobs := loadJobs (file.listed.getD [])
  let r := Restart.start clock ⟨jobs, scheduler, file⟩
  { s with
    wrapper := .start max_concurrent_jobs r.1 s.wrapper.ledger
    up := r.2.isOk
    armed := fun id => ((jobs.get? id).filter (triggers p (clock id))).map fun job => Schedule.dated job.schedule }

def step (s : State p) : Label p → Option (State p)
  | .add_job job now d => addJob job now d s
  | .fire job_id scheduler clock uuid => fire job_id scheduler clock uuid s
  | .resume i clock uuid => (resume i clock uuid s.wrapper).map fun w =>
      { s with wrapper := w, history := s.history ++ recorded w i }
  | .finish i outcome clock d => (finish i outcome clock d s.wrapper).map fun w =>
      { s with wrapper := w, armed := unarmed s.wrapper i s.armed }
  | .restart max_concurrent_jobs scheduler clock => some (restart max_concurrent_jobs scheduler clock s)
  | .ledger c o => (elsewhere s.wrapper.engine c o s.wrapper).map fun w => { s with wrapper := w }

/-- No payload of a job of kind `in` starts after anything else has happened to the job. -/
def Once (history : List Event) : Prop :=
  history.Pairwise fun e e' => e'.executed = true → e'.job.schedule.kind = "in" → e.job.id ≠ e'.job.id

def Keeps (s : State p) (a : Label p) : Prop := ∀ s', step s a = some s' → Once s'.history

def Untouched (history : List Event) (job_id : String) : Prop := ∀ e ∈ history, e.job.id ≠ job_id

/-- At a restart, `jobs.json` lists no job of kind `in` to be scheduled that has been started or
skipped before. -/
def Condition (s : State p) : Label p → Prop
  | .restart _ _ clock => ∀ job ∈ s.wrapper.engine.file.listed.getD [], triggers p (clock job.id) job = true →
      job.schedule.kind = "in" → Untouched s.history job.id
  | _ => True

section Stores

variable {w : World p} {job job' : CronJob} {job_id : String} {d : Disk} {now : ℤ}

lemma listed_saveJobs {file : JobsFile} {jobs : Jobs} (h : job ∈ (saveJobs d file jobs).listed.getD []) :
    (∃ id, jobs.get? id = some job) ∨ job ∈ file.listed.getD [] := by
  rw [saveJobs] at h
  split at h
  · split at h
    · obtain ⟨⟨id, job'⟩, hmem, rfl⟩ := List.mem_map.mp h
      exact Or.inl ⟨id, OrderedDict.get?_eq_some_iff.mpr hmem⟩
    · cases h
  · exact Or.inr h

lemma listed_addJob (h : job ∈ (Cron.addJob job' now d w).1.file.listed.getD []) :
    (∃ id, (w.jobs.set job'.id job').get? id = some job) ∨ job ∈ w.file.listed.getD [] := by
  by_cases hr : SchedulingRaises now job' w.scheduler
  · rw [file_addJob.1 hr] at h
    exact Or.inr h
  · rw [file_addJob.2 hr] at h
    exact listed_saveJobs h

lemma listed_removeJob (h : job ∈ (removeJob job_id d w).1.file.listed.getD []) :
    (∃ id, (w.jobs.erase job_id).get? id = some job) ∨ job ∈ w.file.listed.getD [] := by
  by_cases hk : job_id ∈ w.jobs.keys
  · rw [removeJob_of_mem hk] at h
    exact listed_saveJobs h
  · rw [removeJob, OrderedDict.get?_eq_none_iff.mpr hk] at h
    exact Or.inr h

end Stores

lemma update_eq_some {α : Type} {f : String → Option α} {i j : String} {x : Option α} {y : α} :
    Function.update f i x j = some y ↔ j = i ∧ x = some y ∨ j ≠ i ∧ f j = some y := by
  by_cases h : j = i
  · rw [h, Function.update_self]
    simp
  · rw [Function.update_of_ne h]
    simp [h]

section Lives

/-- The job of an invocation that waits for its turn. -/
def queued (c : Invocation) : Option CronJob :=
  match c.stage with
  | .waiting job => some job
  | _ => none

/-- Every job is that which was added under its id. A job of kind `in` with a trigger or in the queue has
not been started or skipped, and is not there twice. -/
structure Inv (s : State p) : Prop where
  once : Once s.history
  ids : ∀ id job, s.added id = some job → job.id = id
  jobs : ∀ id job, s.wrapper.engine.jobs.get? id = some job → s.added id = some job
  listed : ∀ job ∈ s.wrapper.engine.file.listed.getD [], s.added job.id = some job
  queue : ∀ (i : ℕ) job, s.wrapper.invocations[i]?.bind queued = some job → s.added job.id = some job
  past : ∀ e ∈ s.history, s.added e.job.id = some e.job
  armed : ∀ id b, s.armed id = some b → ∃ job, s.added id = some job ∧ b = Schedule.dated job.schedule
  armed_untouched : ∀ id b job, s.armed id = some b → s.added id = some job → job.schedule.kind = "in" →
    Untouched s.history id ∧ ∀ (i : ℕ) job', s.wrapper.invocations[i]?.bind queued = some job' → job'.id ≠ id
  queued_untouched : ∀ (i : ℕ) job, s.wrapper.invocations[i]?.bind queued = some job → job.schedule.kind = "in" →
    Untouched s.history job.id ∧
      ∀ (j : ℕ) job', s.wrapper.invocations[j]?.bind queued = some job' → job'.id = job.id → j = i

variable {s s' : State p}

lemma once_append {history : List Event} {e : Event} (h : Once history)
    (he : e.executed = true → e.job.schedule.kind = "in" → Untouched history e.job.id) : Once (history ++ [e]) := by
  rw [Once, List.pairwise_append]
  refine ⟨h, List.pairwise_singleton _ _, ?_⟩
  intro e₀ he₀ e' he' hexecuted hin
  obtain rfl := List.mem_singleton.mp he'
  exact he hexecuted hin e₀ he₀

lemma untouched_append {history : List Event} {e : Event} {job_id : String} (h : Untouched history job_id)
    (he : e.job.id ≠ job_id) : Untouched (history ++ [e]) job_id := by
  intro e' he'
  rcases List.mem_append.mp he' with hold | hnew
  · exact h e' hold
  · rw [List.mem_singleton.mp hnew]
    exact he

/-- A step without an event: triggers and the queue only lose jobs. -/
lemma Inv.quiet (hi : Inv s) (hhistory : s'.history = s.history) (hadded : s'.added = s.added)
    (hjobs : ∀ id job, s'.wrapper.engine.jobs.get? id = some job → s.added id = some job)
    (hlisted : ∀ job ∈ s'.wrapper.engine.file.listed.getD [], s.added job.id = some job)
    (hqueue : ∀ (i : ℕ) job, s'.wrapper.invocations[i]?.bind queued = some job →
      s.wrapper.invocations[i]?.bind queued = some job)
    (harmed : ∀ id b, s'.armed id = some b → s.armed id = some b) : Inv s' where
  once := hhistory ▸ hi.once
  ids := hadded ▸ hi.ids
  jobs := hadded ▸ hjobs
  listed := hadded ▸ hlisted
  queue i job h := hadded ▸ hi.queue i job (hqueue i job h)
  past := hhistory ▸ hadded ▸ hi.past
  armed id b h := hadded ▸ hi.armed id b (harmed id b h)
  armed_untouched id b job h hjob hin := by
    rw [hadded] at hjob
    obtain ⟨huntouched, hothers⟩ := hi.armed_untouched id b job (harmed id b h) hjob hin
    exact ⟨hhistory ▸ huntouched, fun i job' h' => hothers i job' (hqueue i job' h')⟩
  queued_untouched i job h hin := by
    obtain ⟨huntouched, hothers⟩ := hi.queued_untouched i job (hqueue i job h) hin
    exact ⟨hhistory ▸ huntouched, fun j job' h' => hothers j job' (hqueue j job' h')⟩

/-- Something happens to a job, which has no trigger then and is not in the queue, if it is of kind `in`. -/
lemma Inv.event (hi : Inv s) {e : Event} (he : s.added e.job.id = some e.job)
    (hexecuted : e.executed = true → e.job.schedule.kind = "in" → Untouched s.history e.job.id)
    (harmed : e.job.schedule.kind = "in" → s.armed e.job.id = none)
    (hqueue : e.job.schedule.kind = "in" →
      ∀ (i : ℕ) job, s.wrapper.invocations[i]?.bind queued = some job → job.id ≠ e.job.id) :
    Inv { s with history := s.history ++ [e] } where
  once := once_append hi.once hexecuted
  ids := hi.ids
  jobs := hi.jobs
  listed := hi.listed
  queue := hi.queue
  past := List.forall_mem_append.mpr ⟨hi.past, List.forall_mem_singleton.mpr he⟩
  armed := hi.armed
  armed_untouched id b job h hjob hin := by
    obtain ⟨huntouched, hothers⟩ := hi.armed_untouched id b job h hjob hin
    refine ⟨untouched_append huntouched ?_, hothers⟩
    rintro rfl
    obtain rfl := Option.some.inj (he.symm.trans hjob)
    cases (harmed hin).symm.trans h
  queued_untouched i job h hin := by
    obtain ⟨huntouched, hothers⟩ := hi.queued_untouched i job h hin
    refine ⟨untouched_append huntouched fun hid => ?_, hothers⟩
    have hjob := hi.queue i job h
    rw [← hid, he] at hjob
    obtain rfl := Option.some.inj hjob
    exact hqueue hin i _ h rfl

lemma Inv.enqueue (hi : Inv s) {w : Backpressure.State p} {c : Invocation} {job : CronJob}
    (hl : w.invocations = s.wrapper.invocations ++ [c]) (hengine : w.engine = s.wrapper.engine)
    (hc : queued c = some job) (hjob : s.added job.id = some job)
    (hin : job.schedule.kind = "in" → s.armed job.id = none ∧ Untouched s.history job.id ∧
      ∀ (i : ℕ) job', s.wrapper.invocations[i]?.bind queued = some job' → job'.id ≠ job.id) :
    Inv { s with wrapper := w } := by
  have hget : ∀ i, w.invocations[i]?.bind queued =
      if i = s.wrapper.invocations.length then some job else s.wrapper.invocations[i]?.bind queued := by
    intro i
    rw [hl, ← hc]
    exact bind_replaced replaces_append queued i
  have hsame : ∀ {job'}, s.added job'.id = some job' → job'.id = job.id → job' = job := by
    intro job' hjob' hid
    rw [hid, hjob] at hjob'
    exact (Option.some.inj hjob').symm
  refine ⟨hi.once, hi.ids, hengine ▸ hi.jobs, hengine ▸ hi.listed, ?_, hi.past, hi.armed, ?_, ?_⟩
  · intro i job' h
    rw [hget] at h
    split at h
    · cases h
      exact hjob
    · exact hi.queue i job' h
  · intro id b job' h hjob' hin'
    obtain ⟨huntouched, hothers⟩ := hi.armed_untouched id b job' h hjob' hin'
    refine ⟨huntouched, fun i job'' h' => ?_⟩
    rw [hget] at h'
    split at h'
    · cases h'
      rintro rfl
      obtain rfl := Option.some.inj (hjob.symm.trans hjob')
      cases (hin hin').1.symm.trans h
    · exact hothers i job'' h'
  · intro i job' h hin'
    rw [hget] at h
    split at h
    · rename_i hnew
      cases h
      obtain ⟨-, huntouched, hothers⟩ := hin hin'
      refine ⟨huntouched, fun j job'' h' hid => ?_⟩
      rw [hget] at h'
      split at h'
      · rename_i hj
        rw [hj, hnew]
      · exact absurd hid (hothers j job'' h')
    · obtain ⟨huntouched, hothers⟩ := hi.queued_untouched i job' h hin'
      refine ⟨huntouched, fun j job'' h' hid => ?_⟩
      rw [hget] at h'
      split at h'
      · cases h'
        obtain rfl := hsame (hi.queue i job' h) hid.symm
        exact absurd rfl ((hin hin').2.2 i job' h)
      · exact hothers j job'' h' hid

lemma Inv.addJob (hi : Inv s) {job : CronJob} {now : ℤ} {d : Disk} (h : addJob job now d s = some s') : Inv s' := by
  rw [Delayed.addJob] at h
  split at h
  · cases h
  rename_i hnew
  cases h
  rw [Option.not_isSome_iff_eq_none] at hnew
  -- nothing was heard of the id before
  have hne : ∀ {id job'}, s.added id = some job' → id ≠ job.id := by
    rintro id job' hjob' rfl
    cases hnew.symm.trans hjob'
  have hkeep : ∀ {id job'}, s.added id = some job' →
      Function.update s.added job.id (some job) id = some job' := by
    intro id job' hjob'
    rw [Function.update_of_ne (hne hjob')]
    exact hjob'
  have harmed : ∀ id b, (if ((Cron.addJob job now d s.wrapper.engine).2.isOk && triggers p now job) = true then
      Function.update s.armed job.id (some (Schedule.dated job.schedule)) else s.armed) id = some b →
      id = job.id ∧ b = Schedule.dated job.schedule ∨ s.armed id = some b := by
    intro id b hb
    split at hb
    · rcases update_eq_some.mp hb with ⟨hid, hnew⟩ | ⟨-, hold⟩
      · exact Or.inl ⟨hid, (Option.some.inj hnew).symm⟩
      · exact Or.inr hold
    · exact Or.inr hb
  have hset : ∀ id job', (s.wrapper.engine.jobs.set job.id job).get? id = some job' →
      Function.update s.added job.id (some job) id = some job' := by
    intro id job' hget
    rw [OrderedDict.get?_set] at hget
    split at hget
    · rename_i hid
      rw [hid, Function.update_self]
      exact hget
    · exact hkeep (hi.jobs id job' hget)
  refine ⟨hi.once, ?_, ?_, ?_, fun i job' hq => hkeep (hi.queue i job' hq), fun e he => hkeep (hi.past e he), ?_, ?_,
    hi.queued_untouched⟩
  · intro id job' hjob'
    rcases update_eq_some.mp hjob' with ⟨rfl, hnew⟩ | ⟨-, hold⟩
    · rw [Option.some.inj hnew]
    · exact hi.ids id job' hold
  · intro id job' hget
    dsimp only at hget
    rw [jobs_addJob] at hget
    exact hset id job' hget
  · intro job' hjob'
    rcases listed_addJob hjob' with ⟨id, hget⟩ | hold
    · have hid := keyed_set (fun i j hij => hi.ids i j (hi.jobs i j hij)) job id job' hget
      rw [hid]
      exact hset id job' hget
    · exact hkeep (hi.listed job' hold)
  · intro id b hb
    rcases harmed id b hb with ⟨rfl, rfl⟩ | hold
    · exact ⟨job, Function.update_self _ _ _, rfl⟩
    · obtain ⟨job', hjob', hdated⟩ := hi.armed id b hold
      exact ⟨job', hkeep hjob', hdated⟩
  · intro id b job' hb hjob' hin
    rcases harmed id b hb with ⟨rfl, -⟩ | hold
    · exact ⟨fun e he => hne (hi.past e he), fun i job'' hq => hne (hi.queue i job'' hq)⟩
    · rcases update_eq_some.mp hjob' with ⟨rfl, -⟩ | ⟨-, hadded⟩
      · obtain ⟨old, hjob, -⟩ := hi.armed _ b hold
        exact absurd rfl (hne hjob)
      · exact hi.armed_untouched id b job' hold hadded hin

lemma armed_of_disarm {job_id id : String} {armed : String → Option Bool} {b : Bool}
    (h : disarm job_id armed id = some b) : armed id = some b := by
  rw [disarm] at h
  split at h
  · rcases update_eq_some.mp h with ⟨-, hnone⟩ | ⟨-, hold⟩
    · cases hnone
    · exact hold
  · exact h

lemma disarmed (hi : Inv s) {job : CronJob} {b : Bool} (hb : s.armed job.id = some b)
    (hjob : s.added job.id = some job) (hin : job.schedule.kind = "in") : disarm job.id s.armed job.id = none := by
  obtain ⟨job', hjob', rfl⟩ := hi.armed _ b hb
  obtain rfl := Option.some.inj (hjob.symm.trans hjob')
  rw [disarm, if_pos (by rw [hb, Schedule.dated, decide_eq_true hin, Bool.true_or]), Function.update_self]

lemma Inv.fire (hi : Inv s) {job_id uuid : String} {scheduler : p.State} {clock : ℕ → Int64}
    (h : fire job_id scheduler clock uuid s = some s') : Inv s' := by
  rw [Delayed.fire] at h
  split at h
  swap
  · cases h
  rename_i hup
  rw [Bool.and_eq_true] at hup
  obtain ⟨b, hb⟩ := Option.isSome_iff_exists.mp hup.2
  obtain ⟨w, hw, rfl⟩ := Option.map_eq_some_iff.mp h
  obtain ⟨hengine, c, hl, hc⟩ := invoke_cases hw
  have hevents : recorded w s.wrapper.invocations.length = (Delayed.event c).toList := by
    rw [recorded, hl, bind_replaced replaces_append, if_pos rfl]
  rw [hevents]
  have hold : queued c = none → ∀ (i : ℕ) job, w.invocations[i]?.bind queued = some job →
      s.wrapper.invocations[i]?.bind queued = some job := by
    intro hnone i job hq
    rw [hl, bind_replaced replaces_append, hnone] at hq
    split at hq
    · cases hq
    · exact hq
  have hquiet : queued c = none →
      Inv { s with wrapper := { w with engine := { w.engine with scheduler } }, armed := disarm job_id s.armed } := by
    intro hnone
    exact hi.quiet rfl rfl (by rw [hengine]; exact hi.jobs) (by rw [hengine]; exact hi.listed) (hold hnone)
      fun id b hb => armed_of_disarm hb
  rcases hc with ⟨-, rfl⟩ | ⟨job, hfound, hstage⟩
  · simpa [Delayed.event] using hquiet rfl
  have hget := (Option.filter_eq_some_iff.mp hfound).1
  have hjob := hi.jobs job_id job hget
  obtain rfl := hi.ids job_id job hjob
  have hheard := hi.armed_untouched job.id b job hb hjob
  -- an event of the job, which has left the scheduler
  have hevent : ∀ executed, queued c = none → Inv { s with
      wrapper := { w with engine := { w.engine with scheduler } }, armed := disarm job.id s.armed
      history := s.history ++ [⟨job, executed⟩] } := by
    intro executed hnone
    exact (hquiet hnone).event (e := ⟨job, executed⟩) hjob (fun _ hin => (hheard hin).1) (disarmed hi hb hjob)
      fun hin i job' hq => (hheard hin).2 i job' (hold hnone i job' hq)
  rcases hstage with ⟨-, -, hstage⟩ | ⟨-, -, hstage⟩ | ⟨-, entry_id, hstage⟩
  · rw [Delayed.event, hstage]
    exact hevent false (by rw [queued, hstage])
  · rw [Delayed.event, hstage]
    have hquiet : Inv { s with
        wrapper := { s.wrapper with engine := { s.wrapper.engine with scheduler } }, armed := disarm job.id s.armed } :=
      hi.quiet rfl rfl hi.jobs hi.listed (fun _ _ hq => hq) fun id b hb => armed_of_disarm hb
    have hwaits := hquiet.enqueue (w := { w with engine := { w.engine with scheduler } }) hl
      (by rw [hengine]) (show queued c = some job by rw [queued, hstage]) hjob ?_
    · simpa using hwaits
    · exact fun hin => ⟨disarmed hi hb hjob hin, hheard hin⟩
  · rw [Delayed.event, hstage]
    exact hevent true (by rw [queued, hstage])

lemma Inv.resume (hi : Inv s) {i : ℕ} {uuid : String} {clock : ℕ → Int64} {w : Backpressure.State p}
    (h : resume i clock uuid s.wrapper = some w) :
    Inv { s with wrapper := w, history := s.history ++ recorded w i } := by
  obtain ⟨hengine, job, entry_id, entries, entries', hwaiting, -, hl⟩ := resume_cases h
  have hevents : recorded w i = [⟨job, true⟩] := by
    rw [recorded, hl, bind_replaced (replaces_set hwaiting), if_pos rfl]
    rfl
  have hqueued : s.wrapper.invocations[i]?.bind queued = some job := by
    rw [hwaiting]
    rfl
  have hold : ∀ (j : ℕ) job', w.invocations[j]?.bind queued = some job' →
      j ≠ i ∧ s.wrapper.invocations[j]?.bind queued = some job' := by
    intro j job' hq
    rw [hl, bind_replaced (replaces_set hwaiting)] at hq
    split at hq
    · cases hq
    · rename_i hj
      exact ⟨hj, hq⟩
  have hquiet : Inv { s with wrapper := w } :=
    hi.quiet rfl rfl (hengine ▸ hi.jobs) (hengine ▸ hi.listed) (fun j job' hq => (hold j job' hq).2) fun _ _ hb => hb
  have hjob := hi.queue i job hqueued
  have hheard := hi.queued_untouched i job hqueued
  rw [hevents]
  refine hquiet.event (e := ⟨job, true⟩) hjob (fun _ hin => (hheard hin).1) ?_ ?_
  · intro hin
    rw [Option.eq_none_iff_forall_ne_some]
    intro b hb
    exact (hi.armed_untouched job.id b job hb hjob hin).2 i job hqueued rfl
  · intro hin j job' hq hid
    obtain ⟨hj, hq⟩ := hold j job' hq
    exact hj ((hheard hin).2 j job' hq hid)

lemma armed_of_unarmed {w : Backpressure.State p} {i : ℕ} {armed : String → Option Bool} {id : String}
    {b : Bool}
    (h : unarmed w i armed id = some b) : armed id = some b := by
  rw [unarmed] at h
  cases hjob : w.invocations[i]?.bind executing with
  | none =>
    rw [hjob] at h
    exact h
  | some job =>
    rw [hjob] at h
    dsimp only at h
    split at h
    · rcases update_eq_some.mp h with ⟨-, hnone⟩ | ⟨-, hold⟩
      · cases hnone
      · exact hold
    · exact h

lemma Inv.finish (hi : Inv s) {i : ℕ} {outcome : Except String Value} {clock : ℕ → Int64} {d : Disk}
    {w : Backpressure.State p} (h : finish i outcome clock d s.wrapper = some w) :
    Inv { s with wrapper := w, armed := unarmed s.wrapper i s.armed } := by
  obtain ⟨job, entry_id, entries, hrunning, hl, hengine⟩ := finish_cases h
  have hrest : ∀ id job', (s.wrapper.engine.jobs.erase job.id).get? id = some job' → s.added id = some job' := by
    intro id job' hget
    rw [OrderedDict.get?_erase] at hget
    split at hget
    · cases hget
    · exact hi.jobs id job' hget
  refine hi.quiet rfl rfl ?_ ?_ ?_ fun id b hb => armed_of_unarmed hb
  · intro id job' hget
    dsimp only at hget
    rw [hengine] at hget
    split at hget
    · rw [get?_removeJob] at hget
      split at hget
      · cases hget
      · exact hi.jobs id job' hget
    · exact hi.jobs id job' hget
  · intro job' hjob'
    dsimp only at hjob'
    rw [hengine] at hjob'
    split at hjob'
    · rcases listed_removeJob hjob' with ⟨id, hget⟩ | hold
      · have hadded := hrest id job' hget
        rwa [hi.ids id job' hadded]
      · exact hi.listed job' hold
    · exact hi.listed job' hjob'
  · intro j job' hq
    dsimp only at hq
    rw [hl, bind_replaced (replaces_set hrunning)] at hq
    split at hq
    · cases hq
    · exact hq

lemma Inv.restart (hi : Inv s) {max_concurrent_jobs : ℕ} {scheduler : p.State} {clock : String → ℤ}
    (hc : Condition s (.restart max_concurrent_jobs scheduler clock)) :
    Inv (restart max_concurrent_jobs scheduler clock s) := by
  have hloaded : ∀ id job, (loadJobs (s.wrapper.engine.file.listed.getD [])).get? id = some job →
      job ∈ s.wrapper.engine.file.listed.getD [] ∧ job.id = id := by
    intro id job hget
    have hkeyed : ∀ i job, (.empty : Jobs).get? i = some job → job.id = i := by simp
    have hid := keyed_foldl (s.wrapper.engine.file.listed.getD []) hkeyed id job hget
    rw [← hid] at hget
    obtain ⟨before, after, hsplit, -⟩ := Restart.get?_loadJobs_iff.mp hget
    exact ⟨by rw [hsplit]; simp, hid⟩
  have hadded : ∀ id job, (loadJobs (s.wrapper.engine.file.listed.getD [])).get? id = some job →
      s.added id = some job := by
    intro id job hget
    obtain ⟨hmem, rfl⟩ := hloaded id job hget
    exact hi.listed job hmem
  refine ⟨hi.once, hi.ids, hadded, hi.listed, ?_, hi.past, ?_, ?_, ?_⟩
  · rintro i job ⟨⟩
  · intro id b hb
    obtain ⟨job, hjob, rfl⟩ := Option.map_eq_some_iff.mp hb
    exact ⟨job, hadded id job (Option.filter_eq_some_iff.mp hjob).1, rfl⟩
  · intro id b job hb hjob hin
    refine ⟨?_, by rintro i job' ⟨⟩⟩
    obtain ⟨job', hjob', rfl⟩ := Option.map_eq_some_iff.mp hb
    obtain ⟨hget, htriggers⟩ := Option.filter_eq_some_iff.mp hjob'
    obtain rfl := Option.some.inj ((hadded id job' hget).symm.trans hjob)
    obtain ⟨hmem, rfl⟩ := hloaded id job' hget
    exact hc job' hmem htriggers hin
  · rintro i job ⟨⟩

lemma Inv.step (hi : Inv s) {a : Label p} (hc : Condition s a) (h : step s a = some s') : Inv s' := by
  cases a with
  | add_job job now d => exact hi.addJob h
  | fire job_id scheduler clock uuid => exact hi.fire h
  | resume i clock uuid =>
    obtain ⟨w, hw, rfl⟩ := Option.map_eq_some_iff.mp h
    exact hi.resume hw
  | finish i outcome clock d =>
    obtain ⟨w, hw, rfl⟩ := Option.map_eq_some_iff.mp h
    exact hi.finish hw
  | restart max_concurrent_jobs scheduler clock =>
    cases h
    exact hi.restart hc
  | ledger c o =>
    obtain ⟨w, hw, rfl⟩ := Option.map_eq_some_iff.mp h
    obtain ⟨hengine, hl⟩ := elsewhere_cases hw
    refine hi.quiet rfl rfl (hengine ▸ hi.jobs) (hengine ▸ hi.listed) ?_ fun _ _ hb => hb
    intro i job hq
    dsimp only at hq
    rwa [hl] at hq

lemma Inv.empty (max_concurrent_jobs : ℕ) (scheduler : p.State) (ledger : Ledger.World) :
    Inv (State.empty max_concurrent_jobs scheduler ledger) where
  once := List.Pairwise.nil
  ids := by rintro id job ⟨⟩
  jobs := by rintro id job ⟨⟩
  listed := by rintro job ⟨⟩
  queue := by rintro i job ⟨⟩
  past := by rintro e ⟨⟩
  armed := by rintro id b ⟨⟩
  armed_untouched := by rintro id b job ⟨⟩
  queued_untouched := by rintro i job ⟨⟩

/-- Over all processes, a job of kind `in` is executed at most once, and not after it was skipped, if
every restart meets the condition. -/
theorem in_jobs_once (max_concurrent_jobs : ℕ) (scheduler : p.State) (ledger : Ledger.World)
    (as : List (Label p))
    (h : Along step Condition (State.empty max_concurrent_jobs scheduler ledger) as) :
    Along step Keeps (State.empty max_concurrent_jobs scheduler ledger) as :=
  along_of_invariant (fun hi hc _ hs => (hi.step hc hs).once) (fun hi hc hs => hi.step hc hs)
    (Inv.empty max_concurrent_jobs scheduler ledger) h

end Lives

section Restarted

def later (deleteAfterRun : Bool) : CronJob :=
  { undated with schedule := { kind := "in", inMs := some 600000 }, deleteAfterRun }

/-- The job has been executed, and a restart schedules it anew. -/
def twoLives : List (Label memory) :=
  [.add_job (later false) 0 {}, .fire "a" [] (fun _ => 0) "e-1", .finish 0 (.ok (.int 0)) (fun _ => 1) {},
    .restart 1 [] (fun _ => 2), .fire "a" [] (fun _ => 3) "e-2"]

theorem executed_again :
    ¬ ∀ as : List (Label memory), Along step Keeps (State.empty 1 [] ⟨.empty, []⟩) as := by
  intro h
  have hkeeps := ((((h twoLives).tail rfl).tail rfl).tail rfl).tail rfl
  have honce := hkeeps.head _ rfl
  obtain ⟨hfirst, -⟩ := List.pairwise_cons.mp honce
  exact hfirst _ (List.mem_singleton_self _) rfl rfl rfl

/-- Restarts before the job fires, and after the wrapper has deleted it. -/
def deletedBetween : List (Label memory) :=
  [.add_job (later true) 0 {}, .restart 1 [] (fun _ => 0), .fire "a" [] (fun _ => 0) "e-1",
    .finish 0 (.ok (.int 0)) (fun _ => 1) {}, .restart 1 [] (fun _ => 2)]

theorem executed_once : Along step Keeps (State.empty 1 [] ⟨.empty, []⟩ : State memory) deletedBetween := by
  apply in_jobs_once
  refine along_cons rfl trivial (along_cons rfl ?_ (along_cons rfl trivial (along_cons rfl trivial
    (along_cons rfl ?_ trivial))))
  · rintro job - - - e ⟨⟩
  · rintro job ⟨⟩

end Restarted

end OpsSentry.Cron.Delayed
