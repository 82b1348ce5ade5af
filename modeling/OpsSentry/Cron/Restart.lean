import OpsSentry.Cron.Routes

/-! `CronEngine._load_jobs` and `start`: which of the records in `jobs.json` become jobs, and which jobs
are scheduled. -/

namespace OpsSentry.Cron.Restart

open Foundation.Dicts Foundation.Runs Foundation.Strings Foundation.Values Routes

/-- A record, with the id and the time that `CronJob` takes where the record names none. -/
structure Record where
  job_dict : OrderedDict PyStr Value
  id : String
  created_at : ℤ

def setdefault (k : PyStr) (v : Value) (d : OrderedDict PyStr Value) : OrderedDict PyStr Value :=
  if k ∈ d.keys then d else d.set k v

variable (p : Platform)

def Record.construct (r : Record) : Except Exc CronJob :=
  p.validate (setdefault "created_at" (.int r.created_at) (setdefault "id" (.str r.id) r.job_dict))

/-- One `try` stands around the whole loop: the first record that is no job ends it. -/
def constructed : List Record → List CronJob
  | [] => []
  | r :: records =>
    match r.construct p with
    | .error _ => []
    | .ok job => job :: constructed records

def loadRecords (records : List Record) : Jobs := loadJobs (constructed p records)

variable {p}

/-- The clock gives the time at which a job gets its trigger. -/
def startJobs (clock : String → ℤ) : List CronJob → p.State → p.State × Except Exc Unit
  | [], s => (s, .ok ())
  | job :: jobs, s =>
    if job.enabled then
      match scheduleJob p (clock job.id) job s with
      | .error e => (s, .error e)
      | .ok s => startJobs clock jobs s
    else startJobs clock jobs s

/-- The scheduler itself is started only after the loop. The application goes on when this raises. -/
def start (clock : String → ℤ) (w : World p) : World p × Except Exc Unit :=
  ({ w with scheduler := (startJobs clock w.jobs.values w.scheduler).1 },
    (startJobs clock w.jobs.values w.scheduler).2)

section Start

/-- Whether the scheduler accepts a job depends on the job, not on what the scheduler holds. -/
def Steady (p : Platform) : Prop :=
  ∀ now t i s s', (p.addJob now t i s).isOk = (p.addJob now t i s').isOk

variable {clock : String → ℤ} {now : ℤ} {job : CronJob} {jobs : List CronJob} {s s' : p.State}

lemma scheduleJob_isOk (hp : Steady p) :
    (scheduleJob p now job s).isOk = (scheduleJob p now job s').isOk := by
  rw [scheduleJob, scheduleJob]
  cases makeTrigger p now job.schedule with
  | error e => rfl
  | ok t =>
    cases t with
    | none => rfl
    | some t => exact hp now t job.id s s'

lemma schedulingRaises_congr (hp : Steady p) (s s' : p.State) :
    SchedulingRaises now job s ↔ SchedulingRaises now job s' := by
  rw [schedulingRaises_iff, schedulingRaises_iff, scheduleJob_isOk hp]

lemma startJobs_ok_iff (hp : Steady p) (s₀ : p.State) :
    (startJobs clock jobs s).2 = .ok () ↔ ∀ job ∈ jobs, ¬ SchedulingRaises (clock job.id) job s₀ := by
  induction jobs generalizing s with
  | nil => simp [startJobs]
  | cons job jobs ih =>
    rw [startJobs, List.forall_mem_cons, schedulingRaises_congr hp s₀ s, schedulingRaises_iff]
    by_cases he : job.enabled = true
    · rw [if_pos he]
      cases scheduleJob p (clock job.id) job s with
      | error e => simp [he, Except.isOk, Except.toBool]
      | ok s => simpa [he, Except.isOk, Except.toBool] using ih
    · rw [if_neg he]
      simpa [he] using ih

lemma getJob_startJobs (h : (startJobs clock jobs s).2 = .ok ()) {i : String}
    (hi : p.getJob s i = true ∨ ∃ job ∈ jobs, job.enabled = true ∧ job.schedule.HasTrigger ∧ job.id = i) :
    p.getJob (startJobs clock jobs s).1 i = true := by
  induction jobs generalizing s with
  | nil => simpa [startJobs] using hi
  | cons job jobs ih =>
    rw [startJobs] at h ⊢
    rw [List.exists_mem_cons_iff, ← or_assoc] at hi
    split at h
    · rename_i he
      rw [if_pos he]
      cases hs : scheduleJob p (clock job.id) job s with
      | error e =>
        rw [hs] at h
        cases h
      | ok s' =>
        rw [hs] at h
        refine ih h (hi.imp_left ?_)
        rintro (hi | ⟨-, ht, rfl⟩)
        · exact getJob_scheduleJob_mono hs hi
        · exact (getJob_scheduleJob hs).mpr (Or.inl ht)
    · rename_i he
      rw [if_neg he]
      exact ih h (hi.imp_left fun hi => hi.resolve_right fun hj => he hj.1)

end Start

section Loaded

variable {job : CronJob} {jobs : List CronJob}

/-- The last of these jobs with its id. -/
def LastOf (jobs : List CronJob) (job : CronJob) : Prop :=
  ∃ before after, jobs = before ++ job :: after ∧ ∀ other ∈ after, other.id ≠ job.id

lemma lastOf_concat {last : CronJob} :
    LastOf (jobs ++ [last]) job ↔ job = last ∨ job.id ≠ last.id ∧ LastOf jobs job := by
  constructor
  · rintro ⟨before, after, h, hother⟩
    rcases List.eq_nil_or_concat' after with rfl | ⟨after, other, rfl⟩
    · exact Or.inl (List.singleton_inj.mp (List.append_inj' h rfl).2).symm
    · rw [← List.cons_append, ← List.append_assoc] at h
      obtain ⟨rfl, hlast⟩ := List.append_inj' h rfl
      obtain rfl := List.singleton_inj.mp hlast
      refine Or.inr ⟨(hother last (by simp)).symm, before, after, rfl, ?_⟩
      exact fun other hmem => hother other (List.mem_append_left _ hmem)
  · rintro (rfl | ⟨hne, before, after, rfl, hother⟩)
    · exact ⟨jobs, [], rfl, by simp⟩
    · refine ⟨before, after ++ [last], by simp, ?_⟩
      intro other hmem
      rcases List.mem_append.mp hmem with hmem | hmem
      · exact hother other hmem
      · rw [List.mem_singleton.mp hmem]
        exact hne.symm

lemma get?_loadJobs_iff : (loadJobs jobs).get? job.id = some job ↔ LastOf jobs job := by
  induction jobs using List.reverseRecOn with
  | nil =>
    refine iff_of_false (by simp [loadJobs]) ?_
    rintro ⟨before, after, h, -⟩
    simp at h
  | append_singleton jobs last ih =>
    rw [loadJobs, List.foldl_append, lastOf_concat, ← ih]
    change ((loadJobs jobs).set last.id last).get? job.id = _ ↔ _
    rw [OrderedDict.get?_set]
    by_cases hid : job.id = last.id
    · rw [if_pos hid, Option.some.injEq]
      simp [hid, eq_comm]
    · rw [if_neg hid]
      have hne : job ≠ last := fun h => hid (h ▸ rfl)
      simp [hid, hne]

lemma mem_values_iff {d : Jobs} (hkeyed : ∀ i job, d.get? i = some job → job.id = i) :
    job ∈ d.values ↔ d.get? job.id = some job := by
  rw [OrderedDict.values, List.mem_map]
  constructor
  · rintro ⟨⟨i, j⟩, hmem, rfl⟩
    have hget := OrderedDict.get?_eq_some_iff.mpr hmem
    rwa [hkeyed i j hget]
  · intro hget
    exact ⟨_, OrderedDict.get?_eq_some_iff.mp hget, rfl⟩

end Loaded

end OpsSentry.Cron.Restart
