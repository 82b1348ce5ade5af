import OpsSentry.Cron.Backpressure
import OpsSentry.Cron.Routes

/-! The versions of jobs that accepted requests store, while payloads of earlier versions run: when a
version is lost that nobody deleted or replaced. -/

namespace OpsSentry.Cron.StoredVersions

open Foundation.Dicts Foundation.Runs Foundation.Strings Foundation.Values Backpressure Routes

variable (p : Platform)

inductive Label
  | invoke (job_id : String) (clock : ℕ → Int64) (uuid : String)
  | resume (i : ℕ) (clock : ℕ → Int64) (uuid : String)
  | finish (i : ℕ) (outcome : Except String Value) (clock : ℕ → Int64) (d : Disk)
  | create_job (job : CronJob) (now : ℤ) (d : Disk)
  | update_job (job_id uid : String) (patch : Option (OrderedDict PyStr Value)) (now : ℤ)
      (removal addition : Disk)
  | delete_job (job_id uid : String) (d : Disk)
  /-- The scheduler itself moves on, for example when a job has had its last run. -/
  | scheduler (s : p.State)
  | ledger (c : Ledger.Command) (o : Ledger.Oracle)

variable {p}

def perform (s : Backpressure.State p) : Label p → Option (Backpressure.State p)
  | .invoke job_id clock uuid => invoke job_id clock uuid s
  | .resume i clock uuid => resume i clock uuid s
  | .finish i outcome clock d => finish i outcome clock d s
  | .create_job job now d => some { s with engine := (addJob job now d s.engine).1 }
  | .update_job job_id uid patch now removal addition =>
    some { s with engine := (updateJob job_id uid patch now removal addition s.engine).1 }
  | .delete_job job_id uid d =>
    match owned s.engine job_id uid with
    | .error _ => some s
    | .ok _ => some { s with engine := (removeJob job_id d s.engine).1 }
  | .scheduler sch => some { s with engine := { s.engine with scheduler := sch } }
  | .ledger c o => elsewhere s.engine c o s

/-- The wrapper, with the version that is stored under each id, by a number of its own, and the number
of the version that each invocation found. -/
structure State (p : Platform) where
  wrapper : Backpressure.State p
  stored : String → Option (ℕ × CronJob)
  started : List (Option ℕ)
  next : ℕ

/-- The version that an accepted request stores. -/
def stores (s : State p) : Label p → Option CronJob
  | .create_job job now d => (addJob job now d s.wrapper.engine).2.toOption
  | .update_job job_id uid patch now removal addition =>
    (updateJob job_id uid patch now removal addition s.wrapper.engine).2.toOption
  | _ => none

/-- The end of a run of the version that is stored under the id, which is to be deleted then. -/
def endsRun (s : State p) (i : ℕ) (job_id : String) : Bool :=
  match s.stored job_id, s.started[i]?, s.wrapper.invocations[i]?.bind executing with
  | some (n, version), some (some m), some job => m = n && job.id = job_id && version.deleteAfterRun
  | _, _, _ => false

/-- What may end the version that is stored under an id. -/
def ends (s : State p) (a : Label p) (id : String) : Bool :=
  match a with
  | .delete_job job_id uid _ => id = job_id && (owned s.wrapper.engine job_id uid).isOk
  | .update_job job_id .. => id = job_id && (stores s a).isSome
  | .finish i .. => endsRun s i id
  | _ => false

def started (s : State p) : Label p → List (Option ℕ)
  | .invoke job_id .. => s.started ++ [(s.stored job_id).map Prod.fst]
  | _ => s.started

def stored (s : State p) (a : Label p) (id : String) : Option (ℕ × CronJob) :=
  match (stores s a).filter (·.id = id) with
  | some job => some (s.next, job)
  | none => if ends s a id then none else s.stored id

def step (s : State p) (a : Label p) : Option (State p) :=
  (perform s.wrapper a).map fun w => ⟨w, stored s a, started s a, s.next + 1⟩

/-- The jobs that were loaded count as the first versions. -/
def State.start (max_concurrent_jobs : ℕ) (engine : World p) (ledger : Ledger.World) : State p where
  wrapper := .start max_concurrent_jobs engine ledger
  stored job_id := (engine.jobs.get? job_id).map fun job => (0, job)
  started := []
  next := 1

def Label.ofScheduler : Label p → Bool
  | .scheduler _ => true
  | _ => false

/-- A stored version that nothing may end stays in each store that has it. What the scheduler drops
by itself does not count. -/
def Keeps (s : State p) (a : Label p) : Prop :=
  ∀ s', step s a = some s' → ∀ id n job, s.stored id = some (n, job) → ends s a id = false →
    (s.wrapper.engine.jobs.get? id = some job → s'.wrapper.engine.jobs.get? id = some job) ∧
      (a.ofScheduler = false → p.getJob s.wrapper.engine.scheduler id = true →
        p.getJob s'.wrapper.engine.scheduler id = true) ∧
      (job ∈ s.wrapper.engine.file.listed.getD [] → job ∈ s'.wrapper.engine.file.listed.getD [])

def GoesThrough (d : Disk) (jobs : Jobs) : Prop := d.opens = true → d.writes = true ∧ Encodable jobs

def Condition (s : State p) : Label p → Prop
  | .finish i _ _ d => ∀ job, s.wrapper.invocations[i]?.bind executing = some job → job.deleteAfterRun = true →
      (∀ n version, s.stored job.id = some (n, version) → s.started[i]? = some (some n)) ∧
        (job.id ∈ s.wrapper.engine.jobs.keys → GoesThrough d (s.wrapper.engine.jobs.erase job.id))
  | .create_job job now d => s.stored job.id = none ∧ (¬ SchedulingRaises now job s.wrapper.engine.scheduler →
      GoesThrough d (s.wrapper.engine.jobs.set job.id job))
  | .update_job job_id uid patch now removal addition =>
    ∀ job, patched job_id uid patch s.wrapper.engine = .ok job →
      ¬ SchedulingRaises now job (dropped s.wrapper.engine.scheduler job_id) ∧
        (job.id = job_id ∨ s.stored job.id = none) ∧
        GoesThrough removal (s.wrapper.engine.jobs.erase job_id) ∧
        GoesThrough addition ((s.wrapper.engine.jobs.erase job_id).set job.id job)
  | .delete_job job_id uid d => (owned s.wrapper.engine job_id uid).isOk = true →
      GoesThrough d (s.wrapper.engine.jobs.erase job_id)
  | _ => True

section Engine

variable {w : World p} {job job' : CronJob} {id job_id : String} {d : Disk} {now : ℤ}

structure Remains (w w' : World p) (id : String) (job : CronJob) : Prop where
  jobs : w'.jobs.get? id = some job
  held : p.getJob w.scheduler id = true → p.getJob w'.scheduler id = true
  listed : job ∈ w.file.listed.getD [] → job ∈ w'.file.listed.getD []

lemma Remains.refl (h : w.jobs.get? id = some job) : Remains w w id job := ⟨h, fun hs => hs, fun hf => hf⟩

lemma Remains.trans {w' w'' : World p} (h : Remains w w' id job) (h' : Remains w' w'' id job) :
    Remains w w'' id job :=
  ⟨h'.jobs, fun hs => h'.held (h.held hs), fun hf => h'.listed (h.listed hf)⟩

lemma listed_saveJobs {file : JobsFile} {jobs : Jobs} (hd : GoesThrough d jobs)
    (hget : jobs.get? id = some job)
    (h : job ∈ file.listed.getD []) : job ∈ (saveJobs d file jobs).listed.getD [] := by
  rw [saveJobs]
  split
  · rename_i ho
    rw [if_pos (hd ho)]
    exact List.mem_map_of_mem (OrderedDict.get?_eq_some_iff.mp hget)
  · exact h

lemma Remains.addJob (hget : w.jobs.get? id = some job) (hne : id ≠ job'.id)
    (hd : ¬ SchedulingRaises now job' w.scheduler → GoesThrough d (w.jobs.set job'.id job')) :
    Remains w (addJob job' now d w).1 id job where
  jobs := by
    rw [get?_addJob, if_neg hne]
    exact hget
  held := getJob_addJob_mono
  listed h := by
    by_cases hr : SchedulingRaises now job' w.scheduler
    · rwa [file_addJob.1 hr]
    · have hrest : (w.jobs.set job'.id job').get? id = some job := by
        rw [OrderedDict.get?_set, if_neg hne]
        exact hget
      rw [file_addJob.2 hr]
      exact listed_saveJobs (hd hr) hrest h

lemma Remains.without (hget : w.jobs.get? id = some job) (hne : id ≠ job_id)
    (hd : GoesThrough d (w.jobs.erase job_id)) : Remains w (without w job_id d) id job := by
  have hrest : (w.jobs.erase job_id).get? id = some job := by
    rw [OrderedDict.get?_erase, if_neg hne]
    exact hget
  refine ⟨hrest, ?_, listed_saveJobs hd hrest⟩
  intro hs
  change p.getJob (dropped w.scheduler job_id) id = true
  rw [getJob_dropped, hs, decide_eq_false hne]
  rfl

lemma Remains.removeJob (hget : w.jobs.get? id = some job) (hne : id ≠ job_id)
    (hd : job_id ∈ w.jobs.keys → GoesThrough d (w.jobs.erase job_id)) :
    Remains w (removeJob job_id d w).1 id job := by
  by_cases hk : job_id ∈ w.jobs.keys
  · rw [removeJob_of_mem hk]
    exact Remains.without hget hne (hd hk)
  · rw [Cron.removeJob, OrderedDict.get?_eq_none_iff.mpr hk]
    exact Remains.refl hget

end Engine

section Versions

variable {s s' : State p}

/-- The stored version is the job of its id; and an invocation that started with it still has it. -/
structure Inv (s : State p) : Prop where
  keyed : Keyed s.wrapper.engine
  present : ∀ id n job, s.stored id = some (n, job) → s.wrapper.engine.jobs.get? id = some job
  older : ∀ id n job, s.stored id = some (n, job) → n < s.next
  aligned : s.started.length = s.wrapper.invocations.length
  earlier : ∀ (i : ℕ) n, s.started[i]? = some (some n) → n < s.next
  version : ∀ (i : ℕ) job n stored, s.wrapper.invocations[i]?.bind inFlight = some job →
    s.started[i]? = some (some n) → s.stored job.id = some (n, stored) → stored = job

lemma isOk_of_updated {job_id uid : String} {patch : Option (OrderedDict PyStr Value)} {job : CronJob}
    {now : ℤ}
    {removal addition : Disk} {w : World p} (hp : patched job_id uid patch w = .ok job)
    (hr : ¬ SchedulingRaises now job (dropped w.scheduler job_id)) :
    (updateJob job_id uid patch now removal addition w).2.toOption = some job := by
  rw [updateJob_of_patched hp]
  exact addJob_accepted.2 hr

/-- One step leaves a stored version in place that it does not end. -/
lemma remains_of_condition (hi : Inv s) {a : Label p} (hc : Condition s a) {w : Backpressure.State p}
    (h : perform s.wrapper a = some w) {id : String} {n : ℕ} {job : CronJob} (hstored : s.stored id = some (n, job))
    (hends : ends s a id = false) : a.ofScheduler = true ∨ Remains s.wrapper.engine w.engine id job := by
  have hget := hi.present id n job hstored
  cases a with
  | invoke job_id clock uuid =>
    rw [(invoke_cases h).1]
    exact Or.inr (Remains.refl hget)
  | resume i clock uuid =>
    rw [(resume_cases h).1]
    exact Or.inr (Remains.refl hget)
  | finish i outcome clock d =>
    right
    obtain ⟨run, entry_id, entries, hrunning, -, hengine⟩ := finish_cases h
    have hrun : s.wrapper.invocations[i]?.bind executing = some run := by
      rw [hrunning]
      rfl
    rw [hengine]
    split
    · rename_i hdelete
      obtain ⟨hsame, hd⟩ := hc run hrun hdelete
      refine Remains.removeJob hget ?_ hd
      rintro rfl
      -- it would be the end of a run of this very version
      have hstarted := hsame n job hstored
      obtain rfl := hi.version i run n job (bind_inFlight_of_executing hrun) hstarted hstored
      simp [ends, endsRun, hstored, hstarted, hrun, hdelete] at hends
    · exact Remains.refl hget
  | create_job job' now d =>
    cases h
    refine Or.inr (Remains.addJob hget ?_ hc.2)
    rintro rfl
    rw [hc.1] at hstored
    cases hstored
  | update_job job_id uid patch now removal addition =>
    right
    cases h
    cases hp : patched job_id uid patch s.wrapper.engine with
    | error e =>
      simp only [updateJob, hp]
      exact Remains.refl hget
    | ok updated =>
      obtain ⟨hraises, hfree, hremoval, haddition⟩ := hc updated hp
      have hne : id ≠ job_id := by
        rintro rfl
        simp [ends, stores, isOk_of_updated hp hraises] at hends
      have hne' : id ≠ updated.id := by
        rintro rfl
        rcases hfree with hsame | hnone
        · exact hne hsame
        · rw [hnone] at hstored
          cases hstored
      have hrest := Remains.without hget hne hremoval
      dsimp only
      rw [updateJob_of_patched hp]
      exact hrest.trans (Remains.addJob hrest.jobs hne' fun _ => haddition)
  | delete_job job_id uid d =>
    right
    simp only [perform] at h
    split at h
    · cases h
      exact Remains.refl hget
    · rename_i hok
      cases h
      have hne : id ≠ job_id := by
        rintro rfl
        simp [ends, hok, Except.isOk, Except.toBool] at hends
      exact Remains.removeJob hget hne fun _ => hc (by rw [hok]; rfl)
  | scheduler sch => exact Or.inl rfl
  | ledger c o =>
    rw [(elsewhere_cases h).1]
    exact Or.inr (Remains.refl hget)

lemma keeps_of_condition (hi : Inv s) {a : Label p} (hc : Condition s a) : Keeps s a := by
  intro s' h id n job hstored hends
  obtain ⟨w, hw, rfl⟩ := Option.map_eq_some_iff.mp h
  rcases remains_of_condition hi hc hw hstored hends with hscheduler | hremains
  · cases a with
    | scheduler sch =>
      cases hw
      exact ⟨fun hjob => hjob, fun hno => absurd hno (by simp [Label.ofScheduler]), fun hlisted => hlisted⟩
    | _ => cases hscheduler
  · exact ⟨fun _ => hremains.jobs, fun _ => hremains.held, hremains.listed⟩

lemma keyed_perform {u w : Backpressure.State p} {a : Label p} (hk : Keyed u.engine)
    (h : perform u a = some w) :
    Keyed w.engine := by
  cases a with
  | invoke job_id clock uuid =>
    rw [(invoke_cases h).1]
    exact hk
  | resume i clock uuid =>
    rw [(resume_cases h).1]
    exact hk
  | finish i outcome clock d =>
    obtain ⟨job, entry_id, entries, -, -, hengine⟩ := finish_cases h
    rw [hengine]
    split
    · exact hk.removeJob job.id d
    · exact hk
  | create_job job now d =>
    cases h
    exact hk.addJob job now d
  | update_job job_id uid patch now removal addition =>
    cases h
    exact hk.updateJob job_id uid patch now removal addition
  | delete_job job_id uid d =>
    simp only [perform] at h
    split at h <;> cases h
    · exact hk
    · exact hk.removeJob job_id d
  | scheduler sch =>
    cases h
    exact hk
  | ledger c o =>
    rw [(elsewhere_cases h).1]
    exact hk

lemma get?_of_stores {a : Label p} {w : Backpressure.State p} {job : CronJob}
    (h : perform s.wrapper a = some w)
    (hjob : stores s a = some job) : w.engine.jobs.get? job.id = some job := by
  cases a with
  | create_job job' now d =>
    cases h
    by_cases hr : SchedulingRaises now job' s.wrapper.engine.scheduler
    · rw [stores, addJob_accepted.1 hr] at hjob
      cases hjob
    · rw [stores, addJob_accepted.2 hr] at hjob
      cases hjob
      rw [get?_addJob, if_pos rfl]
  | update_job job_id uid patch now removal addition =>
    cases h
    cases hp : patched job_id uid patch s.wrapper.engine with
    | error e =>
      simp [stores, updateJob, hp, Except.toOption] at hjob
    | ok updated =>
      rw [stores, updateJob_of_patched hp] at hjob
      dsimp only
      rw [updateJob_of_patched hp]
      by_cases hr : SchedulingRaises now updated (without s.wrapper.engine job_id removal).scheduler
      · rw [addJob_accepted.1 hr] at hjob
        cases hjob
      · rw [addJob_accepted.2 hr] at hjob
        cases hjob
        rw [get?_addJob, if_pos rfl]
  | _ => cases hjob

lemma flight_of_set {l : List Invocation} {i : ℕ} {c c₀ : Invocation} (hc : l[i]? = some c₀)
    (hmoved : ∀ job, inFlight c = some job → inFlight c₀ = some job) (j : ℕ) (job : CronJob)
    (h : (l.set i c)[j]?.bind inFlight = some job) : l[j]?.bind inFlight = some job := by
  rw [bind_replaced (replaces_set hc)] at h
  split at h
  · rename_i hj
    rw [hj, hc]
    exact hmoved job h
  · exact h

lemma inFlight_perform {a : Label p} {w : Backpressure.State p} (h : perform s.wrapper a = some w) :
    (∃ job_id clock uuid, a = .invoke job_id clock uuid) ∨
      started s a = s.started ∧ w.invocations.length = s.wrapper.invocations.length ∧
        ∀ (i : ℕ) job, w.invocations[i]?.bind inFlight = some job →
          s.wrapper.invocations[i]?.bind inFlight = some job := by
  cases a with
  | invoke job_id clock uuid => exact Or.inl ⟨job_id, clock, uuid, rfl⟩
  | resume i clock uuid =>
    obtain ⟨-, job, entry_id, entries, entries', hwaiting, -, hl⟩ := resume_cases h
    rw [hl, List.length_set]
    exact Or.inr ⟨rfl, rfl, flight_of_set hwaiting fun job' hjob' => hjob'⟩
  | finish i outcome clock d =>
    obtain ⟨job, entry_id, entries, hrunning, hl, -⟩ := finish_cases h
    rw [hl, List.length_set]
    exact Or.inr ⟨rfl, rfl, flight_of_set hrunning (by rintro job' ⟨⟩)⟩
  | delete_job job_id uid d =>
    simp only [perform] at h
    split at h <;> cases h <;> exact Or.inr ⟨rfl, rfl, fun _ _ hjob => hjob⟩
  | ledger c o =>
    rw [(elsewhere_cases h).2]
    exact Or.inr ⟨rfl, rfl, fun _ _ hjob => hjob⟩
  | _ =>
    cases h
    exact Or.inr ⟨rfl, rfl, fun _ _ hjob => hjob⟩

lemma stored_cases {a : Label p} {id : String} {n : ℕ} {job : CronJob} (h : stored s a id = some (n, job)) :
    stores s a = some job ∧ job.id = id ∧ n = s.next ∨ ends s a id = false ∧ s.stored id = some (n, job) := by
  rw [stored] at h
  split at h
  · rename_i hnew
    cases h
    obtain ⟨hjob, hid⟩ := Option.filter_eq_some_iff.mp hnew
    exact Or.inl ⟨hjob, by simpa using hid, rfl⟩
  · split at h
    · cases h
    · rename_i hends
      exact Or.inr ⟨Bool.eq_false_iff.mpr hends, h⟩

lemma Inv.step (hi : Inv s) {a : Label p} (hk : Keeps s a) (h : step s a = some s') : Inv s' := by
  have hremains := hk s' h
  obtain ⟨w, hw, rfl⟩ := Option.map_eq_some_iff.mp h
  have hpresent : ∀ id n job, stored s a id = some (n, job) → w.engine.jobs.get? id = some job := by
    intro id n job hstored
    rcases stored_cases hstored with ⟨hjob, rfl, -⟩ | ⟨hends, hold⟩
    · exact get?_of_stores hw hjob
    · exact (hremains id n job hold hends).1 (hi.present id n job hold)
  have holder : ∀ id n job, stored s a id = some (n, job) → n < s.next + 1 := by
    intro id n job hstored
    rcases stored_cases hstored with ⟨-, -, rfl⟩ | ⟨-, hold⟩
    · exact Nat.lt_succ_self _
    · exact (hi.older id n job hold).trans (Nat.lt_succ_self _)
  rcases inFlight_perform hw with ⟨job_id, clock, uuid, rfl⟩ | ⟨hstarted, hlength, hflight⟩
  · obtain ⟨-, c, hl, hc⟩ := inFlight_invoked hw
    refine ⟨keyed_perform hi.keyed hw, hpresent, holder, ?_, ?_, ?_⟩
    · rw [hl, List.length_append, ← hi.aligned]
      exact List.length_append
    · intro i n hn
      rw [started, getElem?_concat] at hn
      split at hn
      · obtain ⟨⟨m, job⟩, hold, rfl⟩ := Option.map_eq_some_iff.mp (Option.some.inj hn)
        exact (hi.older job_id m job hold).trans (Nat.lt_succ_self _)
      · exact (hi.earlier i n hn).trans (Nat.lt_succ_self _)
    · intro i job n version hjob hn hstored
      rw [started, getElem?_concat, hi.aligned] at hn
      rw [hl, getElem?_concat] at hjob
      split at hn
      · rename_i hnew
        rw [if_pos hnew] at hjob
        have hget := (Option.filter_eq_some_iff.mp (hc job hjob)).1
        exact Option.some.inj ((hi.present job.id n version hstored).symm.trans (hi.keyed job_id job hget ▸ hget))
      · rename_i hold
        rw [if_neg hold] at hjob
        exact hi.version i job n version hjob hn hstored
  · have hearlier : ∀ (i : ℕ) n, (started s a)[i]? = some (some n) → n < s.next := by
      rw [hstarted]
      exact hi.earlier
    refine ⟨keyed_perform hi.keyed hw, hpresent, holder, ?_, ?_, ?_⟩
    · exact (congrArg List.length hstarted).trans (hi.aligned.trans hlength.symm)
    · exact fun i n hn => (hearlier i n hn).trans (Nat.lt_succ_self _)
    · intro i job n version hjob hn hstored
      have hstarted_n : (started s a)[i]? = some (some n) := hn
      rcases stored_cases hstored with ⟨-, -, rfl⟩ | ⟨-, hold⟩
      · exact absurd (hearlier i _ hstarted_n) (lt_irrefl _)
      · rw [hstarted] at hstarted_n
        exact hi.version i job n version (hflight i job hjob) hstarted_n hold

lemma Inv.start (max_concurrent_jobs : ℕ) (listed : List CronJob) (scheduler : p.State) (file : JobsFile)
    (ledger : Ledger.World) : Inv (State.start max_concurrent_jobs ⟨loadJobs listed, scheduler, file⟩ ledger) := by
  have hloaded : ∀ id n job, (State.start max_concurrent_jobs ⟨loadJobs listed, scheduler, file⟩ ledger).stored id =
      some (n, job) → (loadJobs listed).get? id = some job ∧ n = 0 := by
    intro id n job h
    obtain ⟨job', hjob', heq⟩ := Option.map_eq_some_iff.mp h
    cases heq
    exact ⟨hjob', rfl⟩
  refine ⟨keyed_foldl listed (by simp), fun id n job h => (hloaded id n job h).1, ?_, rfl, ?_, ?_⟩
  · intro id n job h
    rw [(hloaded id n job h).2]
    exact Nat.zero_lt_one
  · rintro i n ⟨⟩
  · rintro i job n version ⟨⟩

/-- In every run from any loaded jobs whose steps all meet the condition, no version of a job is lost
that no accepted request and no end of a run of its own has ended. -/
theorem versions_survive (max_concurrent_jobs : ℕ) (listed : List CronJob) (scheduler : p.State)
    (file : JobsFile)
    (ledger : Ledger.World) (as : List (Label p))
    (h : Along step Condition (State.start max_concurrent_jobs ⟨loadJobs listed, scheduler, file⟩ ledger) as) :
    Along step Keeps (State.start max_concurrent_jobs ⟨loadJobs listed, scheduler, file⟩ ledger) as := by
  refine along_of_invariant (fun hi hc => keeps_of_condition hi hc) ?_
    (Inv.start max_concurrent_jobs listed scheduler file ledger) h
  exact fun hi hc hs => hi.step (keeps_of_condition hi hc) hs

end Versions

section Patched

/-- The model of a job with an interval and a command, as `model_dump` gives it. -/
def validateDump (record : OrderedDict PyStr Value) : Except Exc CronJob :=
  match record.get? "id", record.get? "name", record.get? "schedule", record.get? "payload", record.get? "uid",
    record.get? "deleteAfterRun", record.get? "priority" with
  | some (.str id), some (.str name),
      some (.dict [("kind", .str kind), ("inMs", .null), ("at", .null), ("everyMs", .int everyMs), ("expr", .null),
        ("tz", .str tz), ("jitter", .int jitter)]),
      some (.dict [("kind", .str payload_kind), ("command", .str command), ("tool", .null), ("args", .null),
        ("message", .null)]),
      some (.str uid), some (.bool deleteAfterRun), some (.int priority) =>
    .ok { id, name, schedule := { kind, everyMs := some everyMs, tz := some tz, jitter := some jitter },
          payload := { kind := payload_kind, command := some command }, uid, deleteAfterRun, priority,
          created_at := 0 }
  | _, _, _, _, _, _, _ => .error (.raised "validation error")

def dumps : Platform := { memory with validate := validateDump }

def onceJob (id : String) : CronJob :=
  { id, name := id, schedule := { kind := "every", everyMs := some 60000 },
    payload := { kind := "command", command := some "uptime" }, uid := "u", deleteAfterRun := true, created_at := 0 }

/-- The owner keeps the job by a PATCH while it runs, and the end of that run deletes it. -/
def patchedWhileRunning : List (Label dumps) :=
  [.invoke "a" (fun _ => 0) "e-1",
    .update_job "a" "u" (some (OrderedDict.empty.set "deleteAfterRun" (.bool false))) 0 {} {},
    .finish 0 (.ok (.int 0)) (fun _ => 1) {}]

theorem patched_job_lost : ¬ ∀ as : List (Label dumps),
    Along step Keeps (State.start 1 ⟨loadJobs [onceJob "a"], ["a"], .listing [onceJob "a"]⟩ ⟨.empty, []⟩) as := by
  intro h
  have hkeeps := (((h patchedWhileRunning).tail rfl).tail rfl).head _ rfl "a" _ _ rfl rfl
  cases hkeeps.1 rfl

/-- While the job runs another is created, and the end of the run deletes the version that ran. -/
def createdWhileRunning : List (Label dumps) :=
  [.invoke "a" (fun _ => 0) "e-1", .create_job (onceJob "b") 0 {}, .finish 0 (.ok (.int 0)) (fun _ => 1) {}]

theorem versions_survive_create : Along step Keeps
    (State.start 1 ⟨loadJobs [onceJob "a"], ["a"], .listing [onceJob "a"]⟩ ⟨.empty, []⟩ : State dumps)
    createdWhileRunning := by
  refine versions_survive 1 [onceJob "a"] _ _ _ _ (along_cons rfl trivial (along_cons rfl ⟨rfl, ?_⟩
    (along_cons rfl ?_ trivial)))
  · exact fun _ _ => ⟨rfl, by decide +kernel⟩
  · rintro job ⟨⟩ -
    refine ⟨?_, fun _ _ => ⟨rfl, by decide +kernel⟩⟩
    rintro n version ⟨⟩
    rfl

end Patched

end OpsSentry.Cron.StoredVersions
