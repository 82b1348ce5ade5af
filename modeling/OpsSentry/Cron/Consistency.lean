import OpsSentry.Cron.Engine
import OpsSentry.Foundation.Runs

/-! When the three stores of the engine agree after a call, and when a call that raises leaves
them alone. -/

namespace OpsSentry.Cron

open Foundation.Dicts Foundation.Runs Foundation.Strings Foundation.Values

variable (p : Platform)

inductive Call
  | addJob (job : CronJob) (now : ℤ) (d : Disk)
  | removeJob (job_id : String) (d : Disk)
  | updateJob (job_id uid : String) (patch : Option (OrderedDict PyStr Value)) (now : ℤ)
      (removal addition : Disk)
  /-- The scheduler itself moves on, for example when a job has had its last run. -/
  | scheduler (s : p.State)

variable {p}

def Call.result (w : World p) : Call p → World p × Except Exc (Option CronJob)
  | addJob job now d => (Cron.addJob job now d w).map id (Except.map some)
  | removeJob job_id d => (Cron.removeJob job_id d w).map id (Except.map fun _ => none)
  | updateJob job_id uid patch now removal addition =>
    (Cron.updateJob job_id uid patch now removal addition w).map id (Except.map some)
  | scheduler s => ({ w with scheduler := s }, .ok none)

def step (w : World p) (c : Call p) : Option (World p) := some (c.result w).1

def Unchanged (w w' : World p) : Prop :=
  w'.jobs = w.jobs ∧ (∀ i, p.getJob w'.scheduler i = p.getJob w.scheduler i) ∧ w'.file = w.file

/-- `jobs.json` lists exactly the jobs of the engine. -/
def Listed (w : World p) : Prop := w.file.listed = some w.jobs.values

def Kept (w : World p) : World p × Except Exc (Option CronJob) → Prop
  | (w', .error _) => Unchanged w w'
  | (w', .ok added) => Listed w' ∧ ∀ job, added = some job → p.getJob w'.scheduler job.id = job.enabled

/-- What consistency and atomicity ask of one call. -/
def Keeps (w : World p) : Call p → Prop
  | .scheduler _ => True
  | c => Kept w (c.result w)

/-- The kind is known, and a cron expression has five or six fields. -/
def Schedule.HasTrigger (s : Schedule) : Prop :=
  s.kind = "in" ∨ s.kind = "at" ∨ s.kind = "every" ∨
    s.kind = "cron" ∧ ∃ expr, s.expr = some expr ∧
      ((Foundation.Text.split expr).length = 5 ∨ (Foundation.Text.split expr).length = 6)

/-- The save goes through, or cannot start and the file lists these jobs already. -/
def Saves (d : Disk) (file : JobsFile) (jobs : Jobs) : Prop :=
  if d.opens then d.writes = true ∧ Encodable jobs else file.listed = some jobs.values

/-- The trigger of an enabled job cannot be built, or the scheduler refuses it. -/
def SchedulingRaises (now : ℤ) (job : CronJob) (s : p.State) : Prop :=
  job.enabled = true ∧ ∃ e, scheduleJob p now job s = .error e

/-- An enabled job gets a trigger or its id is held already; that of a disabled one is not. -/
def HoldsRight (job : CronJob) (held : String → Bool) : Prop :=
  if job.enabled then job.schedule.HasTrigger ∨ held job.id = true else held job.id = false

def AddCondition (w : World p) (job : CronJob) (now : ℤ) (d : Disk) : Prop :=
  (SchedulingRaises now job w.scheduler → w.jobs.get? job.id = some job) ∧
    (¬ SchedulingRaises now job w.scheduler →
      Saves d w.file (w.jobs.set job.id job) ∧ HoldsRight job (p.getJob w.scheduler))

def RemoveCondition (w : World p) (job_id : String) (d : Disk) : Prop :=
  if job_id ∈ w.jobs.keys then Saves d w.file (w.jobs.erase job_id) else Listed w

lemma saveJobs_listed {d : Disk} {file : JobsFile} {jobs : Jobs} :
    (saveJobs d file jobs).listed = some jobs.values ↔ Saves d file jobs := by
  rw [saveJobs, Saves]
  split
  · split
    · rename_i h
      exact ⟨fun _ => h, fun _ => rfl⟩
    · rename_i h
      constructor
      · intro hb
        cases hb
      · intro hs
        exact absurd hs h
  · rfl

lemma isSome_of_map {α : Type} {x : Except Exc α} {t : Option α} (h : some <$> x = .ok t) :
    t.isSome = true := by
  cases x with
  | error e => cases h
  | ok v =>
    cases h
    rfl

lemma isSome_of_bind {α β : Type} {x : Except Exc β} {f : β → Except Exc α} {t : Option α}
    (h : (x >>= fun b => some <$> f b) = .ok t) : t.isSome = true := by
  cases x with
  | error e => cases h
  | ok b => exact isSome_of_map h

lemma cronFields_isSome {parts : List String} :
    (cronFields parts).isSome = true ↔ parts.length = 5 ∨ parts.length = 6 := by
  rcases parts with _ | ⟨a, _ | ⟨b, _ | ⟨c, _ | ⟨d, _ | ⟨e, _ | ⟨f, _ | ⟨g, parts⟩⟩⟩⟩⟩⟩⟩ <;>
    simp [cronFields]

lemma makeTrigger_isSome {now : ℤ} {s : Schedule} {t : Option p.Trigger} (h : makeTrigger p now s = .ok t) :
    t.isSome = true ↔ s.HasTrigger := by
  rw [makeTrigger] at h
  rw [Schedule.HasTrigger]
  split at h
  · rename_i hk
    exact iff_of_true (isSome_of_bind h) (Or.inl hk)
  split at h
  · rename_i hk
    exact iff_of_true (isSome_of_bind h) (Or.inr (Or.inl hk))
  split at h
  · rename_i hk
    exact iff_of_true (isSome_of_map h) (Or.inr (Or.inr (Or.inl hk)))
  rename_i hin hat hevery
  split at h
  · rename_i hcron
    cases hx : s.expr with
    | none => rw [hx] at h; cases h
    | some expr =>
      rw [hx] at h
      cases hf : cronFields (Foundation.Text.split expr) with
      | some fields =>
        simp only [hf] at h
        have hlen := cronFields_isSome.mp (Option.isSome_of_eq_some hf)
        exact iff_of_true (isSome_of_map h) (Or.inr (Or.inr (Or.inr ⟨hcron, expr, rfl, hlen⟩)))
      | none =>
        simp only [hf] at h
        cases h
        apply iff_of_false (by simp)
        rintro (hk | hk | hk | ⟨-, _, ⟨⟩, hlen⟩)
        · exact hin hk
        · exact hat hk
        · exact hevery hk
        · have hsome := cronFields_isSome.mpr hlen
          rw [hf] at hsome
          cases hsome
  · rename_i hcron
    cases h
    apply iff_of_false (by simp)
    rintro (hk | hk | hk | ⟨hk, -⟩)
    · exact hin hk
    · exact hat hk
    · exact hevery hk
    · exact hcron hk

lemma getJob_scheduleJob {now : ℤ} {job : CronJob} {s s' : p.State} (h : scheduleJob p now job s = .ok s') :
    p.getJob s' job.id = true ↔ job.schedule.HasTrigger ∨ p.getJob s job.id = true := by
  rw [scheduleJob] at h
  cases ht : makeTrigger p now job.schedule with
  | error e => rw [ht] at h; cases h
  | ok t =>
    have hsome := makeTrigger_isSome ht
    rw [ht] at h
    cases t with
    | none =>
      cases h
      simp [← hsome]
    | some t =>
      rw [p.getJob_addJob h]
      simp [← hsome]

lemma getJob_scheduleJob_mono {now : ℤ} {job : CronJob} {s s' : p.State}
    (h : scheduleJob p now job s = .ok s') {i : String}
    (hi : p.getJob s i = true) : p.getJob s' i = true := by
  rw [scheduleJob] at h
  cases ht : makeTrigger p now job.schedule with
  | error e =>
    rw [ht] at h
    cases h
  | ok t =>
    rw [ht] at h
    cases t with
    | none =>
      cases h
      exact hi
    | some t =>
      rw [p.getJob_addJob h, hi]
      rfl

lemma schedulingRaises_iff {now : ℤ} {job : CronJob} {s : p.State} :
    SchedulingRaises now job s ↔ job.enabled = true ∧ (scheduleJob p now job s).isOk = false := by
  rw [SchedulingRaises]
  cases scheduleJob p now job s with
  | error e => simp [Except.isOk, Except.toBool]
  | ok s => simp [Except.isOk, Except.toBool]

lemma jobs_addJob {w : World p} {job : CronJob} {now : ℤ} {d : Disk} :
    (addJob job now d w).1.jobs = w.jobs.set job.id job := by
  rw [addJob]
  split
  · split <;> rfl
  · rfl

lemma file_addJob {w : World p} {job : CronJob} {now : ℤ} {d : Disk} :
    (SchedulingRaises now job w.scheduler → (addJob job now d w).1.file = w.file) ∧
      (¬ SchedulingRaises now job w.scheduler →
        (addJob job now d w).1.file = saveJobs d w.file (w.jobs.set job.id job)) := by
  rw [schedulingRaises_iff, addJob]
  by_cases he : job.enabled = true
  · rw [if_pos he]
    cases scheduleJob p now job w.scheduler <;> simp [he, Except.isOk, Except.toBool]
  · rw [if_neg he]
    simp [he]

lemma addJob_accepted {w : World p} {job : CronJob} {now : ℤ} {d : Disk} :
    (SchedulingRaises now job w.scheduler → (addJob job now d w).2.toOption = none) ∧
      (¬ SchedulingRaises now job w.scheduler → (addJob job now d w).2.toOption = some job) := by
  rw [schedulingRaises_iff, addJob]
  by_cases he : job.enabled = true
  · rw [if_pos he]
    cases scheduleJob p now job w.scheduler <;> simp [he, Except.isOk, Except.toBool, Except.toOption]
  · rw [if_neg he]
    simp [he, Except.toOption]

lemma getJob_addJob_mono {w : World p} {job : CronJob} {now : ℤ} {d : Disk} {i : String}
    (hi : p.getJob w.scheduler i = true) : p.getJob (addJob job now d w).1.scheduler i = true := by
  rw [addJob]
  split
  · split
    · exact hi
    · rename_i hs
      exact getJob_scheduleJob_mono hs hi
  · exact hi

/-- What `add_job` does in `w`, seen from a call that began in `w₀`. -/
lemma kept_addJob_from {w₀ w : World p} {job : CronJob} {now : ℤ} {d : Disk} :
    Kept w₀ ((Call.addJob job now d).result w) ↔
      (SchedulingRaises now job w.scheduler → Unchanged w₀ { w with jobs := w.jobs.set job.id job }) ∧
      (¬ SchedulingRaises now job w.scheduler →
        Saves d w.file (w.jobs.set job.id job) ∧ HoldsRight job (p.getJob w.scheduler)) := by
  by_cases he : job.enabled = true
  · cases hs : scheduleJob p now job w.scheduler with
    | error e =>
      have hr : SchedulingRaises now job w.scheduler := ⟨he, e, hs⟩
      simp [Call.result, addJob, he, hs, hr, Kept, Except.map]
    | ok s =>
      have hr : ¬ SchedulingRaises now job w.scheduler := by
        rintro ⟨-, e, h⟩
        rw [hs] at h
        cases h
      have hheld := getJob_scheduleJob hs
      simp [Call.result, addJob, he, hs, hr, Kept, Listed, Except.map, saveJobs_listed, HoldsRight, hheld]
  · have hr : ¬ SchedulingRaises now job w.scheduler := fun h => he h.1
    simp [Call.result, addJob, he, hr, Kept, Listed, Except.map, saveJobs_listed, HoldsRight]

lemma kept_addJob_iff {w : World p} {job : CronJob} {now : ℤ} {d : Disk} :
    Kept w ((Call.addJob job now d).result w) ↔ AddCondition w job now d := by
  rw [kept_addJob_from, AddCondition]
  simp [Unchanged, OrderedDict.set_eq_self_iff]

def dropped (s : p.State) (job_id : String) : p.State :=
  if p.getJob s job_id then (p.removeJob job_id s).toOption.getD s else s

def without (w : World p) (job_id : String) (d : Disk) : World p :=
  ⟨w.jobs.erase job_id, dropped w.scheduler job_id, saveJobs d w.file (w.jobs.erase job_id)⟩

lemma removeJob_of_mem {w : World p} {job_id : String} {d : Disk} (h : job_id ∈ w.jobs.keys) :
    removeJob job_id d w = (without w job_id d, .ok ()) := by
  obtain ⟨job, hjob⟩ := OrderedDict.mem_keys_iff.mp h
  rw [removeJob, hjob, without, dropped]
  dsimp only
  by_cases hheld : p.getJob w.scheduler job_id = true
  · obtain ⟨s, hs⟩ := p.removeJob_ok hheld
    rw [if_pos hheld, if_pos hheld, hs]
    rfl
  · rw [if_neg hheld, if_neg hheld]

lemma getJob_dropped {s : p.State} {job_id j : String} :
    p.getJob (dropped s job_id) j = (p.getJob s j && !decide (j = job_id)) := by
  rw [dropped]
  by_cases hheld : p.getJob s job_id = true
  · obtain ⟨s', hs⟩ := p.removeJob_ok hheld
    rw [if_pos hheld, hs]
    exact p.getJob_removeJob hs j
  · rw [if_neg hheld]
    by_cases hj : j = job_id
    · subst j
      simpa using hheld
    · simp [hj]

lemma kept_removeJob_iff {w : World p} {job_id : String} {d : Disk} :
    Kept w ((Call.removeJob job_id d).result w) ↔ RemoveCondition w job_id d := by
  rw [RemoveCondition]
  by_cases hk : job_id ∈ w.jobs.keys
  · rw [if_pos hk, Call.result, removeJob_of_mem hk, ← saveJobs_listed]
    simp [Kept, Listed, without, Except.map]
  · have hnone := OrderedDict.get?_eq_none_iff.mpr hk
    simp [Call.result, removeJob, hnone, hk, Kept, Except.map]

/-- The same for a PATCH, which first takes the old job out. -/
def PatchCondition (w : World p) (job_id uid : String) (patch : Option (OrderedDict PyStr Value))
    (now : ℤ) (removal addition : Disk) : Prop :=
  ∀ updated, patched job_id uid patch w = .ok updated →
    let rest := w.jobs.erase job_id
    let file := saveJobs removal w.file rest
    (SchedulingRaises now updated (dropped w.scheduler job_id) →
      rest.set updated.id updated = w.jobs ∧ p.getJob w.scheduler job_id = false ∧ file = w.file) ∧
    (¬ SchedulingRaises now updated (dropped w.scheduler job_id) →
      Saves addition file (rest.set updated.id updated) ∧
        HoldsRight updated fun i => p.getJob w.scheduler i && !decide (i = job_id))

lemma mem_keys_of_patched {w : World p} {job_id uid : String}
    {patch : Option (OrderedDict PyStr Value)} {updated : CronJob}
    (h : patched job_id uid patch w = .ok updated) : job_id ∈ w.jobs.keys := by
  rw [patched] at h
  split at h
  · cases h
  · rename_i job hjob
    exact OrderedDict.mem_keys_iff.mpr ⟨job, (Option.filter_eq_some_iff.mp hjob).1⟩

lemma updateJob_of_patched {w : World p} {job_id uid : String} {patch : Option (OrderedDict PyStr Value)}
    {updated : CronJob} {now : ℤ} {removal addition : Disk} (h : patched job_id uid patch w = .ok updated) :
    updateJob job_id uid patch now removal addition w = addJob updated now addition (without w job_id removal) := by
  have hremove := removeJob_of_mem (d := removal) (mem_keys_of_patched h)
  simp only [updateJob, h, hremove]

lemma unchanged_without {w : World p} {job_id : String} {d : Disk} {jobs : Jobs} :
    Unchanged w { without w job_id d with jobs } ↔
      jobs = w.jobs ∧ p.getJob w.scheduler job_id = false ∧ saveJobs d w.file (w.jobs.erase job_id) = w.file := by
  have hheld : (∀ i, p.getJob (dropped w.scheduler job_id) i = p.getJob w.scheduler i) ↔
      p.getJob w.scheduler job_id = false := by
    constructor
    · intro h
      have hid := h job_id
      rw [getJob_dropped] at hid
      simpa using hid.symm
    · intro h i
      rw [getJob_dropped]
      by_cases hi : i = job_id
      · simp [hi, h]
      · simp [hi]
  exact and_congr_right fun _ => and_congr_left fun _ => hheld

lemma kept_updateJob_iff {w : World p} {job_id uid : String}
    {patch : Option (OrderedDict PyStr Value)} {now : ℤ} {removal addition : Disk} :
    Kept w ((Call.updateJob job_id uid patch now removal addition).result w) ↔
      PatchCondition w job_id uid patch now removal addition := by
  rw [PatchCondition]
  cases hp : patched job_id uid patch w with
  | error e => simp [Call.result, updateJob, hp, Kept, Unchanged, Except.map]
  | ok updated =>
    have hresult : (Call.updateJob job_id uid patch now removal addition).result w =
        (Call.addJob updated now addition).result (without w job_id removal) := by
      simp only [Call.result, updateJob_of_patched hp]
    have hfree : p.getJob (dropped w.scheduler job_id) =
        fun i => p.getJob w.scheduler i && !decide (i = job_id) := by
      funext i
      exact getJob_dropped
    rw [hresult, kept_addJob_from, unchanged_without]
    simp only [without, hfree, Except.ok.injEq, forall_eq']

/-- When one call keeps the stores consistent, and is atomic if it raises. -/
def Condition (w : World p) : Call p → Prop
  | .addJob job now d => AddCondition w job now d
  | .removeJob job_id d => RemoveCondition w job_id d
  | .updateJob job_id uid patch now removal addition =>
    PatchCondition w job_id uid patch now removal addition
  | .scheduler _ => True

lemma keeps_iff {w : World p} {c : Call p} : Keeps w c ↔ Condition w c := by
  cases c with
  | addJob job now d => exact kept_addJob_iff
  | removeJob job_id d => exact kept_removeJob_iff
  | updateJob job_id uid patch now removal addition => exact kept_updateJob_iff
  | scheduler s => exact Iff.rfl

/-- A run of calls, from any state of the stores, is consistent and atomic at every call exactly
when every call meets its condition. -/
theorem run_keeps_iff (w : World p) (cs : List (Call p)) :
    Along step Keeps w cs ↔ Along step Condition w cs := by
  constructor
  · exact Along.mono fun _ _ => keeps_iff.mp
  · exact Along.mono fun _ _ => keeps_iff.mpr

/-- In such a run, `jobs.json` lists the jobs of the engine all along. -/
lemma listed_of_condition {w w' : World p} {cs : List (Call p)} (hw : Listed w)
    (hc : Along step Condition w cs) (hr : run step w cs = some w') : Listed w' := by
  refine run_invariant ?_ hw hc hr
  intro w c w' hw hc hs
  cases hs
  have hkept := keeps_iff.mpr hc
  cases c with
  | scheduler s => exact hw
  | _ =>
    change Kept w (Call.result w _) at hkept
    generalize Call.result w _ = x at hkept
    obtain ⟨w', e | added⟩ := x
    · obtain ⟨hjobs, -, hfile⟩ := hkept
      rwa [Listed, hjobs, hfile]
    · exact hkept.1

section Rejected

/-- A scheduler that keeps the ids of its jobs in memory. -/
def memory : Platform where
  Date := ℤ
  Trigger := Unit
  State := List String
  fromNow now milliseconds := .ok (now + milliseconds)
  fromtimestamp milliseconds := .ok milliseconds
  fromisoformat s := .error (.raised s!"Invalid isoformat string: {s}")
  dateTrigger _ := .ok ()
  intervalTrigger _ _ := .ok ()
  cronTrigger _ _ _ := .ok ()
  validate _ := .error (.raised "validation error")
  getJob s i := decide (i ∈ s)
  addJob _ _ i s := .ok (s.erase i ++ [i])
  removeJob i s := if i ∈ s then .ok (s.filter (· ≠ i)) else .error (.raised i)
  getJob_addJob := by
    rintro now t i s s' ⟨⟩ j
    by_cases hj : j = i
    · simp [hj]
    · simp [hj, List.mem_erase_of_ne]
  removeJob_ok := by
    intro i s h
    exact ⟨_, if_pos (of_decide_eq_true h)⟩
  getJob_removeJob := by
    intro i s s' h j
    split at h <;> cases h
    simp

def fresh : World memory := ⟨OrderedDict.empty, [], .absent⟩

def undated : CronJob :=
  { id := "a", name := "report", schedule := { kind := "at" }, payload := { kind := "command" },
    uid := "u", created_at := 0 }

/-- The call raises, and the job is in the engine. -/
theorem undated_job_stays : ¬ ∀ cs : List (Call memory), Along step Keeps fresh cs := by
  intro h
  have hadd : AddCondition fresh undated 0 {} := keeps_iff.mp (h [.addJob undated 0 {}]).1
  have hraises : SchedulingRaises (p := memory) 0 undated [] := ⟨rfl, _, rfl⟩
  have hstored := hadd.1 hraises
  simp [fresh] at hstored

end Rejected

end OpsSentry.Cron
