import OpsSentry.Cron.Restart

/-! When a restart schedules every good job, and the saves after it keep every record. -/

namespace OpsSentry.Cron.Restart

open Foundation.Dicts Foundation.Runs Foundation.Strings Foundation.Values Routes

variable {p : Platform}

section Restored

variable (p) (records : List Record) (clock : String → ℤ) (scheduler : p.State) (text : String)

/-- The jobs that the records describe. -/
def valid : List CronJob := records.filterMap fun r => (r.construct p).toOption

/-- A fresh engine, started. Its file is the text that the records were read from. -/
def restarted : World p × Except Exc Unit := start clock ⟨loadRecords p records, scheduler, .broken text⟩

variable {p}

def Accepted (now : ℤ) (job : CronJob) (s : p.State) : Prop :=
  ∃ t s', makeTrigger p now job.schedule = .ok (some t) ∧ p.addJob now t job.id s = .ok s'

structure Restores : Prop where
  completes : (restarted p records clock scheduler text).2 = .ok ()
  scheduled : ∀ job ∈ valid p records, job.enabled = true → Accepted (clock job.id) job scheduler →
    (restarted p records clock scheduler text).1.jobs.get? job.id = some job ∧
      p.getJob (restarted p records clock scheduler text).1.scheduler job.id = true

variable (p) in
/-- No record before that of the job is invalid, and no valid one after it has its id. -/
def Intact (job : CronJob) : Prop := LastOf (constructed p records) job

structure Restorable : Prop where
  schedulable : ∀ job, Intact p records job → ¬ SchedulingRaises (clock job.id) job scheduler
  intact : ∀ job ∈ valid p records, job.enabled = true → Accepted (clock job.id) job scheduler →
    Intact p records job

variable {records clock scheduler text} {job : CronJob}

lemma get?_loadRecords_iff : (loadRecords p records).get? job.id = some job ↔ Intact p records job :=
  get?_loadJobs_iff

lemma keyed_loadRecords : ∀ i job, (loadRecords p records).get? i = some job → job.id = i :=
  keyed_foldl _ (by simp)

lemma mem_loadRecords_iff : job ∈ (loadRecords p records).values ↔ Intact p records job :=
  (mem_values_iff keyed_loadRecords).trans get?_loadRecords_iff

lemma hasTrigger_of_accepted {now : ℤ} (h : Accepted now job scheduler) : job.schedule.HasTrigger := by
  obtain ⟨t, -, ht, -⟩ := h
  exact (makeTrigger_isSome ht).mp rfl

lemma restores_iff (hp : Steady p) :
    Restores records clock scheduler text ↔ Restorable records clock scheduler := by
  have hcompletes : (restarted p records clock scheduler text).2 = .ok () ↔
      ∀ job, Intact p records job → ¬ SchedulingRaises (clock job.id) job scheduler := by
    simp only [← mem_loadRecords_iff]
    exact startJobs_ok_iff hp scheduler
  constructor
  · rintro ⟨hok, hscheduled⟩
    refine ⟨hcompletes.mp hok, ?_⟩
    intro job hjob he hacc
    exact get?_loadRecords_iff.mp (hscheduled job hjob he hacc).1
  · rintro ⟨hraises, hintact⟩
    have hok := hcompletes.mpr hraises
    refine ⟨hok, ?_⟩
    intro job hjob he hacc
    have hloaded := hintact job hjob he hacc
    refine ⟨get?_loadRecords_iff.mpr hloaded, getJob_startJobs hok (Or.inr ?_)⟩
    exact ⟨job, mem_loadRecords_iff.mpr hloaded, he, hasTrigger_of_accepted hacc, rfl⟩

end Restored

section Kept

/-- The engine after its start, with the ids that were removed or given to another job since then. -/
structure Lifetime (p : Platform) where
  world : World p
  gone : List String

variable (p) in
inductive Change
  | add_job (job : CronJob) (now : ℤ) (d : Disk)
  | remove_job (job_id : String) (d : Disk)
  /-- The scheduler itself moves on. -/
  | scheduler (s : p.State)

def step (l : Lifetime p) : Change p → Option (Lifetime p)
  | .add_job job now d => some ⟨(addJob job now d l.world).1, job.id :: l.gone⟩
  | .remove_job job_id d => some ⟨(removeJob job_id d l.world).1, job_id :: l.gone⟩
  | .scheduler s => some { l with world := { l.world with scheduler := s } }

/-- The file is as it was read, or a listing with the job. -/
def Contains (text : String) (file : JobsFile) (job : CronJob) : Prop :=
  file = .broken text ∨ ∃ jobs, file = .listing jobs ∧ job ∈ jobs

variable (p) (records : List Record) (text : String)

def Complete (file : JobsFile) (gone : List String) : Prop :=
  ∀ job ∈ valid p records, job.id ∉ gone → Contains text file job

variable {p}

def KeepsRecords (l : Lifetime p) (c : Change p) : Prop :=
  ∀ l', step l c = some l' → Complete p records text l'.world.file l'.gone

variable (p) in
/-- A save that opens the file goes through, and the jobs were all loaded; or it stops with the same
text in the file. -/
def SavesRecords (d : Disk) (jobs : Jobs) (gone : List String) : Prop :=
  d.opens = true → (∃ job ∈ valid p records, job.id ∉ gone) →
    if d.writes = true ∧ Encodable jobs then ∀ job ∈ valid p records, job.id ∉ gone → Intact p records job
    else d.spilled = text

def RecordsCondition (l : Lifetime p) : Change p → Prop
  | .add_job job now d => ¬ SchedulingRaises now job l.world.scheduler →
      SavesRecords p records text d (l.world.jobs.set job.id job) (job.id :: l.gone)
  | .remove_job job_id d => job_id ∈ l.world.jobs.keys →
      SavesRecords p records text d (l.world.jobs.erase job_id) (job_id :: l.gone)
  | .scheduler _ => True

/-- The jobs that are neither removed nor replaced are those that were loaded. -/
structure Loaded (jobs : Jobs) (gone : List String) : Prop where
  keyed : ∀ i job, jobs.get? i = some job → job.id = i
  same : ∀ i ∉ gone, jobs.get? i = (loadRecords p records).get? i

structure Lasting (l : Lifetime p) : Prop where
  loaded : Loaded (p := p) records l.world.jobs l.gone
  complete : Complete p records text l.world.file l.gone

variable {records text} {jobs : Jobs} {gone : List String} {file : JobsFile} {d : Disk} {job : CronJob}

lemma Loaded.set (h : Loaded (p := p) records jobs gone) :
    Loaded (p := p) records (jobs.set job.id job) (job.id :: gone) where
  keyed := keyed_set h.keyed job
  same i hi := by
    rw [List.mem_cons, not_or] at hi
    rw [OrderedDict.get?_set, if_neg hi.1]
    exact h.same i hi.2

lemma Loaded.erase (h : Loaded (p := p) records jobs gone) (job_id : String) :
    Loaded (p := p) records (jobs.erase job_id) (job_id :: gone) where
  keyed := keyed_erase h.keyed job_id
  same i hi := by
    rw [List.mem_cons, not_or] at hi
    rw [OrderedDict.get?_erase, if_neg hi.1]
    exact h.same i hi.2

lemma Complete.cons (h : Complete p records text file gone) (i : String) :
    Complete p records text file (i :: gone) :=
  fun job hjob hgone => h job hjob fun hmem => hgone (List.mem_cons_of_mem i hmem)

lemma complete_saveJobs_iff (hl : Loaded (p := p) records jobs gone)
    (hc : Complete p records text file gone) :
    Complete p records text (saveJobs d file jobs) gone ↔ SavesRecords p records text d jobs gone := by
  rw [saveJobs, SavesRecords]
  by_cases ho : d.opens = true
  · rw [if_pos ho]
    by_cases hw : d.writes = true ∧ Encodable jobs
    · rw [if_pos hw, if_pos hw]
      have hlisted : ∀ job, job.id ∉ gone →
          (Contains text (.listing jobs.values) job ↔ Intact p records job) := by
        intro job hgone
        rw [← get?_loadRecords_iff, ← hl.same _ hgone, ← mem_values_iff hl.keyed]
        simp [Contains]
      constructor
      · intro h _ _ job hjob hgone
        exact (hlisted job hgone).mp (h job hjob hgone)
      · intro h job hjob hgone
        exact (hlisted job hgone).mpr (h ho ⟨job, hjob, hgone⟩ job hjob hgone)
    · rw [if_neg hw, if_neg hw]
      constructor
      · rintro h _ ⟨job, hjob, hgone⟩
        simpa [Contains] using h job hjob hgone
      · intro h job hjob hgone
        exact Or.inl (congrArg JobsFile.broken (h ho ⟨job, hjob, hgone⟩))
  · rw [if_neg ho]
    exact iff_of_true hc fun h => absurd h ho

lemma keepsRecords_iff {l : Lifetime p} {c : Change p} (hl : Lasting records text l) :
    KeepsRecords records text l c ↔ RecordsCondition records text l c := by
  cases c with
  | add_job job now d =>
    have hkeeps : KeepsRecords records text l (.add_job job now d) ↔
        Complete p records text (addJob job now d l.world).1.file (job.id :: l.gone) := by
      simp [KeepsRecords, step]
    rw [hkeeps, RecordsCondition]
    by_cases hr : SchedulingRaises now job l.world.scheduler
    · rw [file_addJob.1 hr]
      exact iff_of_true (hl.complete.cons job.id) fun h => absurd hr h
    · rw [file_addJob.2 hr, complete_saveJobs_iff hl.loaded.set (hl.complete.cons job.id)]
      exact ⟨fun h _ => h, fun h => h hr⟩
  | remove_job job_id d =>
    have hkeeps : KeepsRecords records text l (.remove_job job_id d) ↔
        Complete p records text (removeJob job_id d l.world).1.file (job_id :: l.gone) := by
      simp [KeepsRecords, step]
    rw [hkeeps, RecordsCondition]
    by_cases hk : job_id ∈ l.world.jobs.keys
    · rw [removeJob_of_mem hk]
      change Complete p records text (saveJobs d _ _) _ ↔ _
      rw [complete_saveJobs_iff (hl.loaded.erase job_id) (hl.complete.cons job_id)]
      exact ⟨fun h _ => h, fun h => h hk⟩
    · rw [removeJob, OrderedDict.get?_eq_none_iff.mpr hk]
      exact iff_of_true (hl.complete.cons job_id) fun h => absurd h hk
  | scheduler s =>
    refine iff_of_true ?_ trivial
    rintro l' ⟨⟩
    exact hl.complete

lemma Lasting.step {l l' : Lifetime p} {c : Change p} (hl : Lasting records text l)
    (hk : KeepsRecords records text l c) (h : step l c = some l') : Lasting records text l' := by
  refine ⟨?_, hk l' h⟩
  cases c with
  | add_job job now d =>
    cases h
    rw [jobs_addJob]
    exact hl.loaded.set
  | remove_job job_id d =>
    cases h
    by_cases hj : job_id ∈ l.world.jobs.keys
    · rw [removeJob_of_mem hj]
      exact hl.loaded.erase job_id
    · rw [removeJob, OrderedDict.get?_eq_none_iff.mpr hj]
      refine ⟨hl.loaded.keyed, ?_⟩
      intro i hi
      exact hl.loaded.same i fun hmem => hi (List.mem_cons_of_mem job_id hmem)
  | scheduler s =>
    cases h
    exact hl.loaded

end Kept

section Claim

variable (records : List Record) (clock : String → ℤ) (scheduler : p.State) (text : String)

/-- The start completes with every good job scheduled, and no later call loses a record. -/
def Survives (cs : List (Change p)) : Prop :=
  Restores records clock scheduler text ∧
    Along step (KeepsRecords records text) ⟨(restarted p records clock scheduler text).1, []⟩ cs

lemma lasting_restarted : Lasting records text ⟨(restarted p records clock scheduler text).1, []⟩ where
  loaded := ⟨keyed_loadRecords, fun _ _ => rfl⟩
  complete _ _ _ := Or.inl rfl

theorem survives_iff (hp : Steady p) (cs : List (Change p)) :
    Survives records clock scheduler text cs ↔
      Restorable records clock scheduler ∧
        Along step (RecordsCondition records text) ⟨(restarted p records clock scheduler text).1, []⟩ cs := by
  rw [Survives, restores_iff hp]
  refine and_congr_right fun _ => along_iff keepsRecords_iff ?_ (lasting_restarted records clock scheduler text)
  intro l c l' hl hc h
  exact hl.step ((keepsRecords_iff hl).mpr hc) h

end Claim

section Records

/-- The model of a job with an interval and a command. -/
def validateFields (record : OrderedDict PyStr Value) : Except Exc CronJob :=
  match record.get? "id", record.get? "name", record.get? "schedule", record.get? "payload", record.get? "uid",
    record.get? "created_at" with
  | some (.str id), some (.str name), some (.dict [("kind", .str kind), ("everyMs", .int everyMs)]),
      some (.dict [("kind", .str payload_kind), ("command", .str command)]), some (.str uid),
      some (.int created_at) =>
    .ok { id, name, schedule := { kind, everyMs := some everyMs },
          payload := { kind := payload_kind, command := some command }, uid, created_at }
  | _, _, _, _, _, _ => .error (.raised "validation error")

def fields : Platform := { memory with validate := validateFields }

def record (id : String) : Record := ⟨(body "u1" "uptime").set "id" (.str id), "e-1", 0⟩

def recordJob (id : String) : CronJob :=
  { undated with id, name := "backup", schedule := { kind := "every", everyMs := some 60000 },
                 payload := { kind := "command", command := some "uptime" }, uid := "u1" }

lemma accepted_record (id : String) : Accepted (p := fields) 0 (recordJob id) [] := ⟨(), [id], rfl, rfl⟩

lemma schedulable_record (id : String) : ¬ SchedulingRaises (p := fields) 0 (recordJob id) [] := by
  rintro ⟨-, e, h⟩
  cases h

/-- The first record is an empty object, and the job after it is lost. -/
theorem empty_record_loses : ¬ ∀ (records : List Record) (text : String) (cs : List (Change fields)),
    Survives (p := fields) records (fun _ => 0) [] text cs := by
  intro h
  obtain ⟨⟨-, hscheduled⟩, -⟩ := h [⟨.empty, "e-1", 0⟩, record "a"] "" []
  have hvalid : recordJob "a" ∈ valid fields [⟨.empty, "e-1", 0⟩, record "a"] := List.mem_singleton_self _
  obtain ⟨hget, -⟩ := hscheduled _ hvalid rfl (accepted_record "a")
  cases hget

theorem records_survive : Survives (p := fields) [record "a", record "b"] (fun _ => 0) [] ""
    [.remove_job "a" {}] := by
  have hloaded : constructed fields [record "a", record "b"] = [recordJob "a", recordJob "b"] := rfl
  have hvalid : valid fields [record "a", record "b"] = [recordJob "a", recordJob "b"] := rfl
  have hintact : ∀ job ∈ valid fields [record "a", record "b"], Intact fields [record "a", record "b"] job := by
    rw [hvalid, List.forall_mem_cons, List.forall_mem_singleton, Intact, hloaded]
    refine ⟨⟨[], [recordJob "b"], rfl, ?_⟩, ⟨[recordJob "a"], [], rfl, by simp⟩⟩
    rw [List.forall_mem_singleton]
    decide
  refine (survives_iff _ _ _ _ (fun _ _ _ _ _ => rfl) _).mpr ⟨⟨?_, fun job hjob _ _ => hintact job hjob⟩, ?_, ?_⟩
  · rintro job ⟨before, after, h, -⟩
    have hmem : job ∈ [recordJob "a", recordJob "b"] := by
      rw [← hloaded, h]
      simp
    rcases List.mem_pair.mp hmem with rfl | rfl
    · exact schedulable_record "a"
    · exact schedulable_record "b"
  · intro _ _ _
    rw [if_pos (by decide +kernel)]
    exact fun job hjob _ => hintact job hjob
  · exact fun _ _ => trivial

end Records

end OpsSentry.Cron.Restart
