import OpsSentry.Cron.Backpressure
import OpsSentry.Cron.Routes

/-! The two ways into the wrapper, the scheduler's and that of `run_job_now`: when payloads of one job
are in progress together. -/

namespace OpsSentry.Cron.Overlap

open Foundation.Dicts Foundation.Runs Foundation.Values Backpressure Routes

/-- The engine, with the invocations that the scheduler fired. -/
structure State (p : Platform) where
  wrapper : Backpressure.State p
  fired : List ℕ

variable {p : Platform}

def State.start (max_concurrent_jobs : ℕ) (engine : World p) (ledger : Ledger.World) : State p :=
  ⟨.start max_concurrent_jobs engine ledger, []⟩

/-- `max_instances=1`. -/
def instanceFree (job_id : String) (s : State p) : Bool :=
  s.fired.all fun i => (s.wrapper.invocations[i]?.bind inFlight).all (·.id ≠ job_id)

variable (p) in
inductive Label
  | fire (job_id : String) (clock : ℕ → Int64) (uuid : String)
  | run_job_now (job_id uid : String) (x_user_id : Option String) (clock : ℕ → Int64) (uuid : String)
  | resume (i : ℕ) (clock : ℕ → Int64) (uuid : String)
  | finish (i : ℕ) (outcome : Except String Value) (clock : ℕ → Int64) (d : Disk)
  | request (c : Call p)
  | ledger (c : Ledger.Command) (o : Ledger.Oracle)

def step (s : State p) : Label p → Option (State p)
  | .fire job_id clock uuid =>
    if instanceFree job_id s then
      (invoke job_id clock uuid s.wrapper).map fun w => ⟨w, s.wrapper.invocations.length :: s.fired⟩
    else none
  | .run_job_now job_id uid x_user_id clock uuid =>
    match (do let uid ← verifyUserId uid x_user_id; owned s.wrapper.engine job_id uid) with
    | .error _ => some s
    | .ok _ => (invoke job_id clock uuid s.wrapper).map fun w => { s with wrapper := w }
  | .resume i clock uuid => (resume i clock uuid s.wrapper).map fun w => { s with wrapper := w }
  | .finish i outcome clock d => (finish i outcome clock d s.wrapper).map fun w => { s with wrapper := w }
  | .request c => some { s with wrapper := { s.wrapper with engine := (c.result s.wrapper.engine).1 } }
  | .ledger c o => (elsewhere s.wrapper.engine c o s.wrapper).map fun w => { s with wrapper := w }

/-- At most one payload of a job id is in progress. -/
def Exclusive (l : List Invocation) : Prop :=
  ∀ (i j : ℕ) job job', l[i]?.bind executing = some job → l[j]?.bind executing = some job' →
    job.id = job'.id → i = j

def Keeps (s : State p) (a : Label p) : Prop := ∀ s', step s a = some s' → Exclusive s'.wrapper.invocations

/-- Of the payloads of this job, all are the scheduler's. -/
def Scheduled (s : State p) (job_id : String) : Prop :=
  ∀ i job, s.wrapper.invocations[i]?.bind executing = some job → job.id = job_id → i ∈ s.fired

def Quiet (s : State p) (job_id : String) : Prop :=
  ∀ (i : ℕ) job, s.wrapper.invocations[i]?.bind executing = some job → job.id ≠ job_id

/-- A payload that the scheduler fired starts only while no other way in has one of the job in
progress, and any other payload only while there is none. -/
def Condition (s : State p) (a : Label p) : Prop :=
  (step s a).isSome = true →
    match a with
    | .fire job_id _ _ => ∀ job, found s.wrapper job_id = some job → s.wrapper.semaphore.locked = false →
        Scheduled s job_id
    | .run_job_now job_id uid x_user_id _ _ =>
      (do let uid ← verifyUserId uid x_user_id; owned s.wrapper.engine job_id uid).isOk = true →
        ∀ job, found s.wrapper job_id = some job → s.wrapper.semaphore.locked = false → Quiet s job_id
    | .resume i _ _ => ∀ job, s.wrapper.invocations[i]?.bind inFlight = some job →
        if i ∈ s.fired then Scheduled s job.id else Quiet s job.id
    | _ => True

section Replaced

variable {l l' : List Invocation} {i : ℕ} {c : Invocation}

lemma exclusive_replaced (hr : Replaces l i c l') (hl : Exclusive l) :
    Exclusive l' ↔ ∀ job, executing c = some job → ∀ j ≠ i, ∀ job', l[j]?.bind executing = some job' →
      job'.id ≠ job.id := by
  constructor
  · intro h job hjob j hj job' hjob' hid
    refine hj (h j i job' job ?_ ?_ hid)
    · rw [bind_replaced hr, if_neg hj]
      exact hjob'
    · rw [bind_replaced hr, if_pos rfl]
      exact hjob
  · intro h j k job job' hj hk hid
    rw [bind_replaced hr] at hj hk
    by_cases hji : j = i
    · by_cases hki : k = i
      · rw [hji, hki]
      · rw [if_pos hji] at hj
        rw [if_neg hki] at hk
        exact absurd hid.symm (h job hj k hki job' hk)
    · rw [if_neg hji] at hj
      by_cases hki : k = i
      · rw [if_pos hki] at hk
        exact absurd hid (h job' hk j hji job hj)
      · rw [if_neg hki] at hk
        exact hl j k job job' hj hk hid

lemma exclusive_of_quiet (hr : Replaces l i c l') (hl : Exclusive l) (hc : executing c = none) :
    Exclusive l' := by
  rw [exclusive_replaced hr hl, hc]
  rintro job ⟨⟩

end Replaced

section Once

variable {s : State p}

/-- Of the invocations that the scheduler fired, no two in flight are of one job. -/
structure Inv (s : State p) : Prop where
  keyed : Keyed s.wrapper.engine
  recent : ∀ i ∈ s.fired, i < s.wrapper.invocations.length
  once : ∀ i ∈ s.fired, ∀ j ∈ s.fired, ∀ job job', s.wrapper.invocations[i]?.bind inFlight = some job →
    s.wrapper.invocations[j]?.bind inFlight = some job' → job.id = job'.id → i = j
  exclusive : Exclusive s.wrapper.invocations

lemma found_id (hi : Inv s) {job_id : String} {job : CronJob} (h : found s.wrapper job_id = some job) :
    job.id = job_id :=
  hi.keyed job_id job (Option.filter_eq_some_iff.mp h).1

lemma instanceFree_iff {job_id : String} : instanceFree job_id s = true ↔
    ∀ i ∈ s.fired, ∀ job, s.wrapper.invocations[i]?.bind inFlight = some job → job.id ≠ job_id := by
  rw [instanceFree, List.all_eq_true]
  refine forall₂_congr fun i _ => ?_
  cases s.wrapper.invocations[i]?.bind inFlight <;> simp

lemma scheduled_iff_quiet {job_id : String} (hfree : instanceFree job_id s = true) :
    Scheduled s job_id ↔ Quiet s job_id := by
  rw [instanceFree_iff] at hfree
  constructor
  · intro h i job hjob hid
    exact hfree i (h i job hjob hid) job (bind_inFlight_of_executing hjob) hid
  · intro h i job hjob hid
    exact absurd hid (h i job hjob)

lemma exclusive_invoke (hi : Inv s) {job_id uuid : String} {clock : ℕ → Int64} {w : Backpressure.State p}
    (h : invoke job_id clock uuid s.wrapper = some w) :
    Exclusive w.invocations ↔
      ∀ job, found s.wrapper job_id = some job → s.wrapper.semaphore.locked = false → Quiet s job_id := by
  obtain ⟨-, c, hl, hc⟩ := invoke_cases h
  rw [hl, exclusive_replaced replaces_append hi.exclusive]
  rcases hc with ⟨hnone, rfl⟩ | ⟨job, hjob, hstage⟩
  · rw [hnone]
    exact iff_of_true (by rintro job ⟨⟩) (by rintro job ⟨⟩)
  rw [hjob]
  have hid := found_id hi hjob
  rcases hstage with ⟨hlocked, -, hstage⟩ | ⟨hlocked, -, hstage⟩ | ⟨hunlocked, entry_id, hstage⟩
  · rw [executing, hstage, hlocked]
    exact iff_of_true (by rintro job ⟨⟩) (by rintro job - ⟨⟩)
  · rw [executing, hstage, hlocked]
    exact iff_of_true (by rintro job ⟨⟩) (by rintro job - ⟨⟩)
  · rw [executing, hstage]
    simp only [Option.some.injEq, forall_eq', hunlocked, forall_const, hid]
    constructor
    · intro hothers j job' hjob'
      refine hothers j ?_ job' hjob'
      rintro rfl
      rw [List.getElem?_eq_none le_rfl] at hjob'
      cases hjob'
    · exact fun hquiet j _ => hquiet j

lemma exclusive_resume (hi : Inv s) {i : ℕ} {uuid : String} {clock : ℕ → Int64} {w : Backpressure.State p}
    (h : resume i clock uuid s.wrapper = some w) :
    Exclusive w.invocations ↔ ∀ job, s.wrapper.invocations[i]?.bind inFlight = some job →
      if i ∈ s.fired then Scheduled s job.id else Quiet s job.id := by
  obtain ⟨-, job, entry_id, entries, entries', hwaiting, -, hl⟩ := resume_cases h
  have hflight : s.wrapper.invocations[i]?.bind inFlight = some job := by
    rw [hwaiting]
    rfl
  have hidle : s.wrapper.invocations[i]?.bind executing = none := by
    rw [hwaiting]
    rfl
  rw [hl, exclusive_replaced (replaces_set hwaiting) hi.exclusive, hflight]
  simp only [executing, Option.some.injEq, forall_eq']
  constructor
  · intro hothers
    have hquiet : Quiet s job.id := by
      intro j job' hjob'
      refine hothers j ?_ job' hjob'
      rintro rfl
      rw [hidle] at hjob'
      cases hjob'
    split
    · exact fun j job' hjob' hid => absurd hid (hquiet j job' hjob')
    · exact hquiet
  · intro hcond j hj job' hjob' hid
    split at hcond
    · rename_i hfired
      -- both are the scheduler's, which fires one at a time
      have hflight' := bind_inFlight_of_executing hjob'
      exact hj (hi.once j (hcond j job' hjob' hid) i hfired job' job hflight' hflight hid)
    · exact hcond j job' hjob' hid

lemma keeps_of_map {a : Label p} {x : Option (Backpressure.State p)} {f : Backpressure.State p → State p}
    (hstep : step s a = x.map f) (hf : ∀ w, (f w).wrapper = w) {C : Prop}
    (hx : ∀ w, x = some w → (Exclusive w.invocations ↔ C)) :
    Keeps s a ↔ ((step s a).isSome = true → C) := by
  rw [Keeps, hstep]
  cases x with
  | none => simp
  | some w => simp [hf, hx]

lemma keeps_iff (hi : Inv s) {a : Label p} : Keeps s a ↔ Condition s a := by
  cases a with
  | fire job_id clock uuid =>
    rw [Condition]
    by_cases hfree : instanceFree job_id s = true
    · have hstep : step s (.fire job_id clock uuid) = (invoke job_id clock uuid s.wrapper).map fun w =>
          ⟨w, s.wrapper.invocations.length :: s.fired⟩ := if_pos hfree
      refine keeps_of_map hstep (fun w => rfl) fun w hw => ?_
      rw [exclusive_invoke hi hw]
      simp only [scheduled_iff_quiet hfree]
    · have hnone : step s (.fire job_id clock uuid) = none := if_neg hfree
      simp [Keeps, hnone]
  | run_job_now job_id uid x_user_id clock uuid =>
    rw [Condition]
    cases ho : (do let uid ← verifyUserId uid x_user_id; owned s.wrapper.engine job_id uid) with
    | error e =>
      have hsame : step s (.run_job_now job_id uid x_user_id clock uuid) = some s := by
        simp only [step, ho]
      simpa [Keeps, hsame, Except.isOk, Except.toBool] using hi.exclusive
    | ok job =>
      have hstep : step s (.run_job_now job_id uid x_user_id clock uuid) =
          (invoke job_id clock uuid s.wrapper).map fun w => { s with wrapper := w } := by
        simp only [step, ho]
      refine keeps_of_map hstep (fun w => rfl) fun w hw => ?_
      rw [exclusive_invoke hi hw]
      exact ⟨fun h _ => h, fun h => h rfl⟩
  | resume i clock uuid => exact keeps_of_map rfl (fun w => rfl) fun w hw => exclusive_resume hi hw
  | finish i outcome clock d =>
    refine keeps_of_map rfl (fun w => rfl) fun w hw => iff_of_true ?_ trivial
    obtain ⟨job, entry_id, entries, hrunning, hl, -⟩ := finish_cases hw
    rw [hl]
    exact exclusive_of_quiet (replaces_set hrunning) hi.exclusive rfl
  | request c =>
    refine iff_of_true ?_ fun _ => trivial
    rintro s' ⟨⟩
    exact hi.exclusive
  | ledger c o =>
    refine keeps_of_map rfl (fun w => rfl) fun w hw => iff_of_true ?_ trivial
    rw [(elsewhere_cases hw).2]
    exact hi.exclusive

/-- What a step without a new fired invocation keeps: the invocation that moves stays with its job. -/
lemma Inv.moved {w : Backpressure.State p} {i : ℕ} {c : Invocation} (hi : Inv s)
    (hr : Replaces s.wrapper.invocations i c w.invocations)
    (hlength : s.wrapper.invocations.length ≤ w.invocations.length)
    (hkeyed : Keyed w.engine) (hexclusive : Exclusive w.invocations)
    (hc : i ∈ s.fired → ∀ job, inFlight c = some job → s.wrapper.invocations[i]?.bind inFlight = some job) :
    Inv { s with wrapper := w } where
  keyed := hkeyed
  recent j hj := (hi.recent j hj).trans_le hlength
  once j hj k hk job job' hjob hjob' hid := by
    have hold : ∀ l ∈ s.fired, ∀ job, w.invocations[l]?.bind inFlight = some job →
        s.wrapper.invocations[l]?.bind inFlight = some job := by
      intro l hl job hjob
      rw [bind_replaced hr] at hjob
      split at hjob
      · rename_i hli
        rw [hli] at hl ⊢
        exact hc hl job hjob
      · exact hjob
    exact hi.once j hj k hk job job' (hold j hj job hjob) (hold k hk job' hjob') hid
  exclusive := hexclusive

lemma Inv.fire {job_id uuid : String} {clock : ℕ → Int64} {w : Backpressure.State p} (hi : Inv s)
    (hfree : instanceFree job_id s = true) (h : invoke job_id clock uuid s.wrapper = some w)
    (hexclusive : Exclusive w.invocations) : Inv ⟨w, s.wrapper.invocations.length :: s.fired⟩ := by
  obtain ⟨hengine, c, hl, hc⟩ := inFlight_invoked h
  have hr : Replaces s.wrapper.invocations s.wrapper.invocations.length c w.invocations := hl ▸ replaces_append
  have hne : ∀ j ∈ s.fired, j ≠ s.wrapper.invocations.length := fun j hj => (hi.recent j hj).ne
  rw [instanceFree_iff] at hfree
  refine ⟨hengine ▸ hi.keyed, ?_, ?_, hexclusive⟩
  · intro j hj
    rw [hl, List.length_append, List.length_singleton]
    rcases List.mem_cons.mp hj with rfl | hj
    · exact Nat.lt_succ_self _
    · exact (hi.recent j hj).trans (Nat.lt_succ_self _)
  · intro j hj k hk job job' hjob hjob' hid
    rw [bind_replaced hr] at hjob hjob'
    rcases List.mem_cons.mp hj with rfl | hj <;> rcases List.mem_cons.mp hk with rfl | hk
    · rfl
    · rw [if_pos rfl] at hjob
      rw [if_neg (hne k hk)] at hjob'
      exact absurd (hid.symm.trans (found_id hi (hc job hjob))) (hfree k hk job' hjob')
    · rw [if_neg (hne j hj)] at hjob
      rw [if_pos rfl] at hjob'
      exact absurd (hid.trans (found_id hi (hc job' hjob'))) (hfree j hj job hjob)
    · rw [if_neg (hne j hj)] at hjob
      rw [if_neg (hne k hk)] at hjob'
      exact hi.once j hj k hk job job' hjob hjob' hid

lemma Inv.step {s' : State p} {a : Label p} (hi : Inv s) (hk : Keeps s a) (h : step s a = some s') : Inv s' := by
  have hexclusive := hk s' h
  cases a with
  | fire job_id clock uuid =>
    simp only [Overlap.step] at h
    split at h
    · rename_i hfree
      obtain ⟨w, hw, rfl⟩ := Option.map_eq_some_iff.mp h
      exact hi.fire hfree hw hexclusive
    · cases h
  | run_job_now job_id uid x_user_id clock uuid =>
    simp only [Overlap.step] at h
    split at h
    · cases h
      exact hi
    · obtain ⟨w, hw, rfl⟩ := Option.map_eq_some_iff.mp h
      obtain ⟨hengine, c, hl, -⟩ := inFlight_invoked hw
      refine hi.moved (c := c) (hl ▸ replaces_append) (by simp [hl]) (hengine ▸ hi.keyed) hexclusive ?_
      intro hfired
      exact absurd (hi.recent _ hfired) (lt_irrefl _)
  | resume i clock uuid =>
    obtain ⟨w, hw, rfl⟩ := Option.map_eq_some_iff.mp h
    obtain ⟨hengine, job, entry_id, entries, entries', hwaiting, -, hl⟩ := resume_cases hw
    refine hi.moved (hl ▸ replaces_set hwaiting) (by simp [hl]) (hengine ▸ hi.keyed) hexclusive ?_
    rintro - job' ⟨⟩
    rw [hwaiting]
    rfl
  | finish i outcome clock d =>
    obtain ⟨w, hw, rfl⟩ := Option.map_eq_some_iff.mp h
    obtain ⟨job, entry_id, entries, hrunning, hl, hengine⟩ := finish_cases hw
    refine hi.moved (hl ▸ replaces_set hrunning) (by simp [hl]) ?_ hexclusive ?_
    · rw [hengine]
      split
      · exact hi.keyed.removeJob job.id d
      · exact hi.keyed
    · rintro - job' ⟨⟩
  | request c =>
    cases h
    exact ⟨hi.keyed.result c, hi.recent, hi.once, hexclusive⟩
  | ledger c o =>
    obtain ⟨w, hw, rfl⟩ := Option.map_eq_some_iff.mp h
    obtain ⟨hengine, hl⟩ := elsewhere_cases hw
    refine ⟨hengine ▸ hi.keyed, ?_, ?_, hexclusive⟩
    · rw [hl]
      exact hi.recent
    · rw [hl]
      exact hi.once

lemma Inv.start (max_concurrent_jobs : ℕ) (listed : List CronJob) (scheduler : p.State) (file : JobsFile)
    (ledger : Ledger.World) : Inv (State.start max_concurrent_jobs ⟨loadJobs listed, scheduler, file⟩ ledger) where
  keyed := keyed_foldl listed (by simp)
  recent i hi := by cases hi
  once i hi := by cases hi
  exclusive i j job job' h := by cases h

/-- In every run from any loaded jobs, no two payloads of one job are in progress, exactly as long as
each payload that starts meets the condition. -/
theorem exclusive_iff (max_concurrent_jobs : ℕ) (listed : List CronJob) (scheduler : p.State)
    (file : JobsFile)
    (ledger : Ledger.World) (as : List (Label p)) :
    Along step Keeps (State.start max_concurrent_jobs ⟨loadJobs listed, scheduler, file⟩ ledger) as ↔
      Along step Condition (State.start max_concurrent_jobs ⟨loadJobs listed, scheduler, file⟩ ledger) as := by
  refine along_iff (fun hi => keeps_iff hi) ?_ (Inv.start max_concurrent_jobs listed scheduler file ledger)
  intro s a s' hi hc h
  exact hi.step ((keeps_iff hi).mpr hc) h

end Once

section TwoWays

/-- The scheduler fires the job, and its owner runs it meanwhile. -/
def twice : List (Label memory) :=
  [.fire "heavy" (fun _ => 0) "e-1", .run_job_now "heavy" "u" (some "u") (fun _ => 1) "e-2"]

theorem two_payloads : ¬ ∀ as : List (Label memory),
    Along step Keeps (State.start 2 ⟨loadJobs [stormJob "heavy" 100], ["heavy"], .absent⟩ ⟨.empty, []⟩) as := by
  intro h
  have hexclusive := ((h twice).tail rfl).head _ rfl
  have hsame : (0 : ℕ) = 1 := hexclusive 0 1 _ _ rfl rfl rfl
  exact absurd hsame (by decide)

end TwoWays

end OpsSentry.Cron.Overlap
