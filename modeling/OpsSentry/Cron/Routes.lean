import OpsSentry.Cron.Consistency

/-! `routers/cron.py`: who may replace, change or remove a stored job. -/

namespace OpsSentry.Cron.Routes

open Foundation.Dicts Foundation.Runs Foundation.Strings Foundation.Values

/-- A request with its parameters, `x_user_id` being the header `X-User-ID`. The body of a create and
the patch are any JSON objects. -/
inductive Request
  | list_jobs (uid : String) (x_user_id : Option String)
  | create_job (body : OrderedDict PyStr Value) (now : ℤ) (d : Disk)
  | get_job (job_id uid : String) (x_user_id : Option String)
  | update_job (job_id uid : String) (x_user_id : Option String) (patch : Option (OrderedDict PyStr Value))
      (now : ℤ) (removal addition : Disk)
  | delete_job (job_id uid : String) (x_user_id : Option String) (d : Disk)
  /-- The job gets its turn or is dropped, and its last ledger call succeeds or raises. -/
  | run_job_now (job_id uid : String) (x_user_id : Option String) (finished : Bool) (d : Disk)

inductive Response
  | jobs (listed : List CronJob)
  | job (job : CronJob)
  | status (text : String)

def verifyUserId (uid : String) : Option String → Except Exc String
  | none => .error (.http 422 "Field required")
  | some x_user_id => if uid ≠ x_user_id then .error (.http 403 "Access denied: UID mismatch") else .ok uid

/-- The user that `verify_user_id` accepted. -/
def Request.actsFor : Request → Option String
  | list_jobs uid x_user_id | get_job _ uid x_user_id | update_job _ uid x_user_id _ _ _ _
  | delete_job _ uid x_user_id _ | run_job_now _ uid x_user_id _ _ => (verifyUserId uid x_user_id).toOption
  | create_job .. => none

variable {p : Platform} (w : World p)

def owned (job_id uid : String) : Except Exc CronJob :=
  match (w.jobs.get? job_id).filter (·.uid = uid) with
  | none => .error (.http 404 s!"Job {job_id} not found or access denied")
  | some job => .ok job

/-- `_execute_job_wrapper`, as far as the jobs go. -/
def executeJobWrapper (job : CronJob) (finished : Bool) (d : Disk) : World p × Except Exc Unit :=
  if job.enabled && finished && job.deleteAfterRun then removeJob job.id d w else (w, .ok ())

def respond (r : World p × Except Exc CronJob) : World p × Except Exc Response := (r.1, r.2.map .job)

def Request.handle : Request → World p × Except Exc Response
  | list_jobs uid x_user_id =>
    (w, (verifyUserId uid x_user_id).map fun uid => .jobs (w.jobs.values.filter (·.uid = uid)))
  | create_job body now d =>
    match p.validate body with
    | .error e => (w, .error e)
    | .ok job => respond (addJob job now d w)
  | get_job job_id uid x_user_id => (w, (do let uid ← verifyUserId uid x_user_id; owned w job_id uid).map .job)
  | update_job job_id uid x_user_id patch now removal addition =>
    match verifyUserId uid x_user_id with
    | .error e => (w, .error e)
    | .ok uid => respond (updateJob job_id uid patch now removal addition w)
  | delete_job job_id uid x_user_id d =>
    match (do let uid ← verifyUserId uid x_user_id; owned w job_id uid) with
    | .error e => (w, .error e)
    | .ok _ => ((removeJob job_id d w).1, (removeJob job_id d w).2.map fun _ => .status "deleted")
  | run_job_now job_id uid x_user_id finished d =>
    match (do let uid ← verifyUserId uid x_user_id; owned w job_id uid) with
    | .error e => (w, .error e)
    | .ok job =>
      ((executeJobWrapper w job finished d).1,
        (executeJobWrapper w job finished d).2.map fun _ => .status "triggered")

def step (w : World p) (r : Request) : Option (World p) := some (r.handle w).1

/-- Each job that was stored is there as it was, unless the request acts for its owner. -/
def Keeps (w : World p) (r : Request) : Prop :=
  ∀ job_id job, w.jobs.get? job_id = some job →
    (r.handle w).1.jobs.get? job_id = some job ∨ r.actsFor = some job.uid

/-- The id in the body of a create is free, or it is that of this very job. The id that a patched
job gets is free, or its job belongs to the user too. -/
def Condition (w : World p) : Request → Prop
  | .create_job body _ _ => ∀ job, p.validate body = .ok job → ∀ old, w.jobs.get? job.id = some old → old = job
  | .update_job job_id uid x_user_id patch _ _ _ =>
    ∀ job, verifyUserId uid x_user_id = .ok uid → patched job_id uid patch w = .ok job →
      ∀ old, w.jobs.get? job.id = some old → old = job ∨ old.uid = uid
  | _ => True

/-- Every job is stored under its own id. -/
def Keyed (w : World p) : Prop := ∀ job_id job, w.jobs.get? job_id = some job → job.id = job_id

/-- What `_load_jobs` makes of the jobs in `jobs.json`, as far as it gets. -/
def loadJobs (listed : List CronJob) : Jobs := listed.foldl (fun jobs job => jobs.set job.id job) OrderedDict.empty

section Engine

variable {w : World p} {job job' : CronJob} {job_id uid j : String} {now : ℤ} {d : Disk}

lemma get?_addJob :
    (addJob job now d w).1.jobs.get? j = if j = job.id then some job else w.jobs.get? j := by
  rw [addJob]
  split
  · split <;> exact OrderedDict.get?_set
  · exact OrderedDict.get?_set

lemma get?_removeJob :
    (removeJob job_id d w).1.jobs.get? j = if j = job_id then none else w.jobs.get? j := by
  rw [removeJob]
  cases hget : w.jobs.get? job_id with
  | none =>
    by_cases hj : j = job_id
    · rw [if_pos hj, hj]
      exact hget
    · rw [if_neg hj]
  | some job =>
    dsimp only
    split
    · split <;> exact OrderedDict.get?_erase
    · exact OrderedDict.get?_erase

lemma removeJob_ok : (removeJob job_id d w).2 = .ok () := by
  rw [removeJob]
  cases w.jobs.get? job_id with
  | none => rfl
  | some job =>
    dsimp only
    split
    · rename_i hheld
      obtain ⟨s, hs⟩ := p.removeJob_ok hheld
      rw [hs]
    · rfl

lemma owned_ok (h : owned w job_id uid = .ok job) : w.jobs.get? job_id = some job ∧ job.uid = uid := by
  rw [owned] at h
  split at h
  · cases h
  · rename_i hjob
    cases h
    simpa using Option.filter_eq_some_iff.mp hjob

lemma patched_owned {patch : Option (OrderedDict PyStr Value)} (h : patched job_id uid patch w = .ok job) :
    ∃ old, w.jobs.get? job_id = some old ∧ old.uid = uid := by
  rw [patched] at h
  split at h
  · cases h
  · rename_i old hold
    exact ⟨old, by simpa using Option.filter_eq_some_iff.mp hold⟩

lemma get?_updateJob {patch : Option (OrderedDict PyStr Value)} {removal addition : Disk}
    (h : patched job_id uid patch w = .ok job) :
    (updateJob job_id uid patch now removal addition w).1.jobs.get? j =
      if j = job.id then some job else if j = job_id then none else w.jobs.get? j := by
  have hok : (removeJob job_id removal w).2 = .ok () := removeJob_ok
  have hget : (removeJob job_id removal w).1.jobs.get? j = _ := get?_removeJob
  rw [updateJob, h]
  dsimp only
  cases hr : removeJob job_id removal w with
  | mk v r =>
    rw [hr] at hok hget
    cases hok
    dsimp only at hget ⊢
    rw [get?_addJob, hget]

lemma verifyUserId_ok {x_user_id : Option String} {user : String}
    (h : verifyUserId uid x_user_id = .ok user) :
    user = uid := by
  cases x_user_id with
  | none => cases h
  | some x =>
    rw [verifyUserId] at h
    split at h
    · cases h
    · cases h
      rfl

lemma keyed_set {jobs : Jobs} (h : ∀ i j, jobs.get? i = some j → j.id = i) (job : CronJob) :
    ∀ i j, (jobs.set job.id job).get? i = some j → j.id = i := by
  intro i j hij
  rw [OrderedDict.get?_set] at hij
  split at hij
  · cases hij
    exact (‹i = job.id›).symm
  · exact h i j hij

lemma keyed_erase {jobs : Jobs} (h : ∀ i j, jobs.get? i = some j → j.id = i) (job_id : String) :
    ∀ i j, (jobs.erase job_id).get? i = some j → j.id = i := by
  intro i j hij
  rw [OrderedDict.get?_erase] at hij
  split at hij
  · cases hij
  · exact h i j hij

lemma keyed_foldl (listed : List CronJob) {jobs : Jobs} (h : ∀ i j, jobs.get? i = some j → j.id = i) :
    ∀ i j, (listed.foldl (fun jobs job => jobs.set job.id job) jobs).get? i = some j → j.id = i := by
  induction listed generalizing jobs with
  | nil => exact h
  | cons job listed ih => exact ih (keyed_set h job)

end Engine

section Ownership

variable {w : World p} {r : Request} {job : CronJob}

lemma owned_of_verified {job_id uid : String} {x_user_id : Option String}
    (h : (do let uid ← verifyUserId uid x_user_id; owned w job_id uid) = .ok job) :
    w.jobs.get? job_id = some job ∧ (verifyUserId uid x_user_id).toOption = some job.uid := by
  cases hv : verifyUserId uid x_user_id with
  | error e =>
    rw [hv] at h
    cases h
  | ok user =>
    rw [hv] at h
    obtain ⟨hjob, rfl⟩ := owned_ok h
    exact ⟨hjob, rfl⟩

lemma keeps_refl (h : (r.handle w).1 = w) : Keeps w r := by
  intro job_id job hjob
  rw [h]
  exact Or.inl hjob

lemma keeps_removeJob {job_id : String} {d : Disk} (hjob : w.jobs.get? job_id = some job)
    (hacts : r.actsFor = some job.uid) (h : (r.handle w).1 = (removeJob job_id d w).1) : Keeps w r := by
  intro i old hold
  by_cases hi : i = job_id
  · subst hi
    cases hjob.symm.trans hold
    exact Or.inr hacts
  · rw [h, get?_removeJob, if_neg hi]
    exact Or.inl hold

lemma get?_create {body : OrderedDict PyStr Value} {now : ℤ} {d : Disk} (hv : p.validate body = .ok job)
    (i : String) : ((Request.create_job body now d).handle w).1.jobs.get? i =
      if i = job.id then some job else w.jobs.get? i := by
  simp only [Request.handle, hv]
  exact get?_addJob

lemma get?_update {job_id uid : String} {x_user_id : Option String}
    {patch : Option (OrderedDict PyStr Value)}
    {now : ℤ} {removal addition : Disk} (hv : verifyUserId uid x_user_id = .ok uid)
    (hp : patched job_id uid patch w = .ok job) (i : String) :
    ((Request.update_job job_id uid x_user_id patch now removal addition).handle w).1.jobs.get? i =
      if i = job.id then some job else if i = job_id then none else w.jobs.get? i := by
  simp only [Request.handle, hv]
  exact get?_updateJob hp

lemma keeps_create_iff {body : OrderedDict PyStr Value} {now : ℤ} {d : Disk} :
    Keeps w (.create_job body now d) ↔ Condition w (.create_job body now d) := by
  cases hv : p.validate body with
  | error e =>
    refine ⟨fun _ job hjob => absurd (hv.symm.trans hjob) (by simp), fun _ => keeps_refl ?_⟩
    simp only [Request.handle, hv]
  | ok job =>
    constructor
    · intro h job' hjob' old hold
      cases hv.symm.trans hjob'
      rcases h job.id old hold with hsame | hacts
      · rw [get?_create hv, if_pos rfl] at hsame
        exact (Option.some.inj hsame).symm
      · cases hacts
    · intro h i old hold
      rw [get?_create hv]
      split
      · rename_i hi
        rw [hi] at hold
        rw [h job hv old hold]
        exact Or.inl rfl
      · exact Or.inl hold

lemma keeps_update_iff {job_id uid : String} {x_user_id : Option String}
    {patch : Option (OrderedDict PyStr Value)} {now : ℤ} {removal addition : Disk} :
    Keeps w (.update_job job_id uid x_user_id patch now removal addition) ↔
      Condition w (.update_job job_id uid x_user_id patch now removal addition) := by
  cases hv : verifyUserId uid x_user_id with
  | error e =>
    refine ⟨fun _ job hok => absurd (hv.symm.trans hok) (by simp), fun _ => keeps_refl ?_⟩
    simp only [Request.handle, hv]
  | ok user =>
    obtain rfl := verifyUserId_ok hv
    cases hp : patched job_id user patch w with
    | error e =>
      refine ⟨fun _ job _ hok => absurd (hp.symm.trans hok) (by simp), fun _ => keeps_refl ?_⟩
      simp only [Request.handle, hv, respond, updateJob, hp]
    | ok job =>
      have hacts : (Request.update_job job_id user x_user_id patch now removal addition).actsFor = some user := by
        simp only [Request.actsFor, hv]
        rfl
      obtain ⟨mine, hmine, hmine_uid⟩ := patched_owned hp
      constructor
      · intro h job' _ hjob' old hold
        cases hp.symm.trans hjob'
        rcases h job.id old hold with hsame | hown
        · rw [get?_update hv hp, if_pos rfl] at hsame
          exact Or.inl (Option.some.inj hsame).symm
        · rw [hacts] at hown
          exact Or.inr (Option.some.inj hown).symm
      · intro h i old hold
        rw [get?_update hv hp]
        by_cases hi : i = job.id
        · rw [hi] at hold
          rcases h job hv hp old hold with hsame | hown
          · rw [hsame, if_pos hi]
            exact Or.inl rfl
          · rw [hacts, hown]
            exact Or.inr rfl
        · rw [if_neg hi]
          by_cases hi' : i = job_id
          · rw [hi', hmine] at hold
            cases hold
            rw [hacts, hmine_uid]
            exact Or.inr rfl
          · rw [if_neg hi']
            exact Or.inl hold

lemma keeps_delete {job_id uid : String} {x_user_id : Option String} {d : Disk} :
    Keeps w (.delete_job job_id uid x_user_id d) := by
  cases h : (do let uid ← verifyUserId uid x_user_id; owned w job_id uid) with
  | error e =>
    refine keeps_refl ?_
    simp only [Request.handle, h]
  | ok job =>
    obtain ⟨hjob, hacts⟩ := owned_of_verified h
    refine keeps_removeJob (d := d) hjob hacts ?_
    simp only [Request.handle, h]

lemma keeps_run (hk : Keyed w) {job_id uid : String} {x_user_id : Option String} {finished : Bool}
    {d : Disk} :
    Keeps w (.run_job_now job_id uid x_user_id finished d) := by
  cases h : (do let uid ← verifyUserId uid x_user_id; owned w job_id uid) with
  | error e =>
    refine keeps_refl ?_
    simp only [Request.handle, h]
  | ok job =>
    obtain ⟨hjob, hacts⟩ := owned_of_verified h
    have hhandle : ((Request.run_job_now job_id uid x_user_id finished d).handle w).1 =
        (executeJobWrapper w job finished d).1 := by
      simp only [Request.handle, h]
    by_cases hremoves : (job.enabled && finished && job.deleteAfterRun) = true
    · refine keeps_removeJob (d := d) hjob hacts ?_
      rw [hhandle, executeJobWrapper, if_pos hremoves, hk job_id job hjob]
    · refine keeps_refl ?_
      rw [hhandle, executeJobWrapper, if_neg hremoves]

lemma keeps_iff (hk : Keyed w) : Keeps w r ↔ Condition w r := by
  cases r with
  | list_jobs uid x_user_id => exact iff_of_true (keeps_refl rfl) trivial
  | create_job body now d => exact keeps_create_iff
  | get_job job_id uid x_user_id => exact iff_of_true (keeps_refl rfl) trivial
  | update_job job_id uid x_user_id patch now removal addition => exact keeps_update_iff
  | delete_job job_id uid x_user_id d => exact iff_of_true keeps_delete trivial
  | run_job_now job_id uid x_user_id finished d => exact iff_of_true (keeps_run hk) trivial

lemma Keyed.removeJob (hk : Keyed w) (job_id : String) (d : Disk) : Keyed (removeJob job_id d w).1 := by
  intro i j hij
  rw [get?_removeJob] at hij
  split at hij
  · cases hij
  · exact hk i j hij

lemma Keyed.addJob (hk : Keyed w) (job : CronJob) (now : ℤ) (d : Disk) : Keyed (addJob job now d w).1 := by
  rw [Keyed, jobs_addJob]
  exact keyed_set hk job

lemma Keyed.updateJob (hk : Keyed w) (job_id uid : String) (patch : Option (OrderedDict PyStr Value))
    (now : ℤ)
    (removal addition : Disk) : Keyed (updateJob job_id uid patch now removal addition w).1 := by
  rw [Cron.updateJob]
  split
  · exact hk
  · have hremoved := hk.removeJob job_id removal
    split
    · rename_i hr
      rwa [hr] at hremoved
    · rename_i hr
      rw [hr] at hremoved
      exact hremoved.addJob _ now addition

lemma Keyed.result (hk : Keyed w) (c : Call p) : Keyed (c.result w).1 := by
  cases c with
  | addJob job now d => exact hk.addJob job now d
  | removeJob job_id d => exact hk.removeJob job_id d
  | updateJob job_id uid patch now removal addition => exact hk.updateJob job_id uid patch now removal addition
  | scheduler s => exact hk

lemma Keyed.handle (hk : Keyed w) : Keyed (r.handle w).1 := by
  cases r with
  | list_jobs uid x_user_id => exact hk
  | get_job job_id uid x_user_id => exact hk
  | create_job body now d =>
    simp only [Request.handle]
    split
    · exact hk
    · exact hk.addJob _ now d
  | update_job job_id uid x_user_id patch now removal addition =>
    simp only [Request.handle]
    split
    · exact hk
    · exact hk.updateJob job_id _ patch now removal addition
  | delete_job job_id uid x_user_id d =>
    simp only [Request.handle]
    split
    · exact hk
    · exact hk.removeJob job_id d
  | run_job_now job_id uid x_user_id finished d =>
    simp only [Request.handle]
    split
    · exact hk
    · rename_i job hjob
      rw [executeJobWrapper]
      split
      · exact hk.removeJob job.id d
      · exact hk

/-- From any jobs that `_load_jobs` loaded, every request leaves the jobs of all users it does not act
for as they are, exactly when every create and every patch meets its condition. -/
theorem ownership_iff (listed : List CronJob) (scheduler : p.State) (file : JobsFile) (rs : List Request) :
    Along step Keeps (⟨loadJobs listed, scheduler, file⟩ : World p) rs ↔
      Along step Condition (⟨loadJobs listed, scheduler, file⟩ : World p) rs := by
  refine along_iff keeps_iff ?_ ?_
  · intro w r w' hk _ hw'
    cases hw'
    exact hk.handle
  · exact keyed_foldl listed (by simp)

end Ownership

section Collision

/-- The model of a job whose body gives an interval and a command, all other fields being defaults. -/
def validateInterval (body : OrderedDict PyStr Value) : Except Exc CronJob :=
  match body.items with
  | [("id", .str id), ("name", .str name), ("schedule", .dict [("kind", .str kind), ("everyMs", .int everyMs)]),
      ("payload", .dict [("kind", .str payload_kind), ("command", .str command)]), ("uid", .str uid)] =>
    .ok { id, name, schedule := { kind, everyMs := some everyMs },
          payload := { kind := payload_kind, command := some command }, uid, created_at := 0 }
  | _ => .error (.http 422 "validation error")

def library : Platform := { memory with validate := validateInterval }

def body (uid command : String) : OrderedDict PyStr Value where
  items := [("id", .str "backup"), ("name", .str "backup"),
    ("schedule", .dict [("kind", .str "every"), ("everyMs", .int 60000)]),
    ("payload", .dict [("kind", .str "command"), ("command", .str command)]), ("uid", .str uid)]
  nodup := by simp

/-- Anyone can put a job of their own in the place of another user's. -/
theorem foreign_create_replaces :
    ¬ ∀ rs, Along step Keeps (⟨loadJobs [], [], .absent⟩ : World library) rs := by
  intro h
  have hkeeps := ((h [.create_job (body "u1" "uptime") 0 {}, .create_job (body "u2" "true") 0 {}]).tail rfl).head
  have hsame := keeps_create_iff.mp hkeeps _ rfl _ rfl
  have huid : "u1" = "u2" := congrArg CronJob.uid hsame
  exact absurd huid (by decide)

end Collision

end OpsSentry.Cron.Routes
