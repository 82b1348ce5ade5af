import OpsSentry.Cron.Consistency
import OpsSentry.Cron.JobWrapper

/-! No permit of the wrapper's semaphore is lost or held twice, and every invocation has an entry of
its own in the ledger. -/

namespace OpsSentry.Cron.Backpressure

open Foundation Foundation.Programs Foundation.Runs Foundation.Strings Foundation.Values Ledger

variable {p : Platform}

section Records

variable {clock : ℕ → Int64} {uuid : String} {w v : Ledger.World} {q : Ledger.Code LedgerEntry}
  {e : LedgerEntry}
  {Q : Except Ledger.Exc LedgerEntry → Ledger.World → Prop}

lemma of_succeed (hq : Finishes clock uuid Q q w) (h : succeed clock uuid q w = some (v, e)) :
    Q (.ok e) v := by
  obtain ⟨t, x, ht, -, hQ⟩ := hq.alone 0
  rw [succeed, ht] at h
  cases x with
  | error => cases h
  | ok e' =>
    cases h
    exact hQ

lemma exists_succeed (clock : ℕ → Int64) (uuid : String) (w : Ledger.World) (hq : Finishes clock uuid Q q w)
    (hok : ∀ e v, ¬ Q (.error e) v) :
    ∃ v e, succeed clock uuid q w = some (v, e) := by
  obtain ⟨t, x, ht, -, hQ⟩ := hq.alone 0
  rw [succeed, ht]
  cases x with
  | error e => exact absurd hQ (hok e t)
  | ok e => exact ⟨t, e, rfl⟩

/-- `row` is new in `v`, under an id that `w` does not have. -/
structure Entered (w v : Ledger.World) (uuid action : String) (metadata : Dict) (status : Status)
    (row : LedgerEntry) : Prop where
  fresh : w.table.find? uuid = none
  id : row.id = uuid
  action : row.action = action
  metadata : row.metadata = metadata
  status : row.status = status
  wrote : Wrote w v row

lemma Entered.moved {u : Ledger.World} {action : String} {metadata : Dict} {old new : Status}
    {row row' : LedgerEntry}
    (h : Entered w v uuid action metadata old row) (hm : Moved row new row') (hw : Wrote v u row') :
    Entered w u uuid action metadata new row' where
  fresh := h.fresh
  id := hm.same.1.trans h.id
  action := hm.same.2.1.trans h.action
  metadata := hm.same.2.2.2.2.trans h.metadata
  status := hm.status_eq
  wrote := h.wrote.trans hw hm.same.1

lemma Entered.find {action : String} {metadata : Dict} {status : Status} {row : LedgerEntry}
    (h : Entered w v uuid action metadata status row) : v.table.find? row.id = some row := by
  rw [h.wrote, if_pos rfl]

/-- The entry that a program returns is new, unless the id is taken. -/
def Creates (w : Ledger.World) (uuid action : String) (metadata : Dict) (status : Status) :
    Except Ledger.Exc LedgerEntry → Ledger.World → Prop
  | .ok e, v => e.id = uuid ∧ ∃ row, Entered w v uuid action metadata status row
  | .error _, _ => w.table.find? uuid ≠ none

lemma create_finishes {action : String} {metadata : Dict} {f : LedgerEntry → Ledger.Code LedgerEntry}
    (hmeta : refusedDict metadata = none)
    (h : ∀ row v, Entered w v uuid action metadata .pending row → Finishes clock uuid Q (f (Table.rowToEntry row)) v)
    (htaken : w.table.find? uuid ≠ none → ∀ e, Q (.error e) w) :
    Finishes clock uuid Q (createEntry action none none none (some metadata) >>= f) w := by
  apply Crashes.Ends.bind
  apply createEntry_finishes hmeta
  · intro row v hfree hid haction hmetadata hpending hwrote
    exact h row v ⟨hfree, hid, haction, hmetadata, hpending, hwrote⟩
  · exact htaken

lemma recordStarted_finishes (job : CronJob) : Finishes clock uuid
    (Creates w uuid "cron_job_exec" (execMetadata job) .running) (recordStarted job) w := by
  apply create_finishes rfl
  · intro row v hrow
    apply markRunning_finishes hrow.find hrow.status
    intro row' v' hmoved hwrote
    exact ⟨hmoved.same.1.trans hrow.id, row', hrow.moved hmoved hwrote⟩
  · exact fun htaken e => htaken

lemma recordSkipped_finishes (job : CronJob) : Finishes clock uuid
    (Creates w uuid "cron_job_skipped" (skippedMetadata job) .completed) (recordSkipped job) w := by
  apply create_finishes rfl
  · intro row v hrow
    apply Crashes.Ends.bind
    apply markRunning_finishes hrow.find hrow.status
    intro row₁ v₁ hmoved₁ hwrote₁
    have hrow₁ := hrow.moved hmoved₁ hwrote₁
    change Finishes _ _ _ (markCompleted row.id _) v₁
    rw [← hmoved₁.same.1]
    apply markCompleted_finishes hrow₁.find hrow₁.status
    · intro row₂ v₂ hmoved₂ hwrote₂
      exact ⟨hmoved₂.same.1.trans hrow₁.id, row₂, hrow₁.moved hmoved₂ hwrote₂⟩
    · intro class_name hrefused
      cases hrefused
  · exact fun htaken e => htaken

/-- The entry has ended, one way or the other. -/
def Concludes (w : Ledger.World) (row : LedgerEntry) : Except Ledger.Exc LedgerEntry → Ledger.World → Prop
  | .ok _, v => ∃ status row', (status = .completed ∨ status = .failed) ∧ Moved row status row' ∧ Wrote w v row'
  | .error _, _ => False

lemma recordOutcome_finishes {row : LedgerEntry} (hrow : w.table.find? row.id = some row)
    (hrunning : row.status = .running) (outcome : Except String Value) :
    Finishes clock uuid (Concludes w row) (recordOutcome row.id outcome) w := by
  have hfailed : ∀ error : String, Finishes clock uuid (Concludes w row) (markFailed row.id error none) w := by
    intro error
    apply markFailed_finishes hrow hrunning
    intro row' v hmoved hwrote
    exact ⟨.failed, row', Or.inr rfl, hmoved, hwrote⟩
  cases outcome with
  | error error => exact hfailed error
  | ok result =>
    apply Crashes.Ends.handle
    apply markCompleted_finishes hrow hrunning
    · intro row' v hmoved hwrote
      exact ⟨.completed, row', Or.inl rfl, hmoved, hwrote⟩
    · intro class_name _
      exact hfailed _

end Records

section Invocations

/-- Only the invocation at `i` is new, or has moved on. -/
structure Replaces (l : List Invocation) (i : ℕ) (c : Invocation) (l' : List Invocation) : Prop where
  get : ∀ j, l'[j]? = if j = i then some c else l[j]?
  count : l'.countP Invocation.running + l[i]?.toList.countP Invocation.running =
    l.countP Invocation.running + [c].countP Invocation.running

variable {l : List Invocation} {i : ℕ} {c c₀ : Invocation}

lemma getElem?_concat {α : Type} (l : List α) (a : α) (j : ℕ) :
    (l ++ [a])[j]? = if j = l.length then some a else l[j]? := by
  rw [List.getElem?_append]
  split
  · rw [if_neg (by omega)]
  · by_cases hj : j = l.length
    · simp [hj]
    · rw [if_neg hj, List.getElem?_singleton, if_neg (by omega), List.getElem?_eq_none (by omega)]

lemma replaces_append : Replaces l l.length c (l ++ [c]) where
  get := getElem?_concat l c
  count := by simp [List.countP_append]

lemma replaces_set (h : l[i]? = some c₀) : Replaces l i c (l.set i c) where
  get j := by
    obtain ⟨hi, -⟩ := List.getElem?_eq_some_iff.mp h
    rw [List.getElem?_set]
    by_cases hj : j = i
    · rw [if_pos hj.symm, if_pos hj, if_pos hi]
    · rw [if_neg (Ne.symm hj), if_neg hj]
  count := by
    obtain ⟨hi, rfl⟩ := List.getElem?_eq_some_iff.mp h
    have hperm : l.Perm (l[i] :: l.eraseIdx i) := (List.getElem_cons_eraseIdx_perm hi).symm
    have hperm' : (l.set i c).Perm (c :: l.eraseIdx i) := List.set_perm_cons_eraseIdx hi c
    rw [hperm.countP_eq, hperm'.countP_eq, h]
    simp only [Option.toList_some, List.countP_cons, List.countP_nil]
    omega

end Invocations

section Permits

variable {max_concurrent_jobs : ℕ} {s : State p} {sem : Semaphore ℕ} {l : List Invocation} {i : ℕ}
  {c c₀ : Invocation}

def Invocation.Waits (c : Invocation) : Prop := ∃ job, c.stage = .waiting job

/-- Every permit is free or with a running payload, and the queue holds who waits. -/
structure Permits (max_concurrent_jobs : ℕ) (sem : Semaphore ℕ) (l : List Invocation) : Prop where
  permits : sem.free + l.countP Invocation.running = max_concurrent_jobs
  live : sem.Live
  nodup : sem.queue.Nodup
  queue : ∀ i, i ∈ sem.queue ↔ ∃ c, l[i]? = some c ∧ c.Waits
  urgent : ∀ (i : ℕ) c job, l[i]? = some c → c.stage = .waiting job → 30 ≤ job.priority

lemma permits_start : Permits max_concurrent_jobs ⟨max_concurrent_jobs, []⟩ [] where
  permits := by simp [Semaphore.free]
  live _ _ h := by cases h
  nodup := List.nodup_nil
  queue i := by simp [Semaphore.queue]
  urgent := by simp

lemma Permits.replaces {sem' : Semaphore ℕ} {l' : List Invocation} (h : Permits max_concurrent_jobs sem l)
    (hr : Replaces l i c l')
    (hfree : sem'.free + [c].countP Invocation.running = sem.free + l[i]?.toList.countP Invocation.running)
    (hlive : sem'.Live) (hnodup : sem'.queue.Nodup) (hothers : ∀ j, j ≠ i → (j ∈ sem'.queue ↔ j ∈ sem.queue))
    (hi : i ∈ sem'.queue ↔ c.Waits) (hurgent : ∀ job, c.stage = .waiting job → 30 ≤ job.priority) :
    Permits max_concurrent_jobs sem' l' where
  permits := by
    have := h.permits
    have := hr.count
    omega
  live := hlive
  nodup := hnodup
  queue j := by
    rw [hr.get]
    by_cases hj : j = i
    · subst hj
      simpa using hi
    · rw [if_neg hj, hothers j hj]
      exact h.queue j
  urgent j d job hd hjob := by
    rw [hr.get] at hd
    split at hd
    · cases hd
      exact hurgent job hjob
    · exact h.urgent j d job hd hjob

lemma Permits.length_notMem (h : Permits max_concurrent_jobs sem l) : l.length ∉ sem.queue := by
  intro hmem
  obtain ⟨c, hc, -⟩ := (h.queue _).mp hmem
  rw [List.getElem?_eq_none le_rfl] at hc
  cases hc

lemma Permits.ends (h : Permits max_concurrent_jobs sem l) {job : Option CronJob} {entries : List String} :
    Permits max_concurrent_jobs sem (l ++ [⟨.ended job, entries⟩]) := by
  refine h.replaces replaces_append (by simp [Invocation.running]) h.live h.nodup (fun _ _ => Iff.rfl) ?_ ?_
  · exact iff_of_false h.length_notMem (by simp [Invocation.Waits])
  · rintro job ⟨⟩

lemma Permits.waits (h : Permits max_concurrent_jobs sem l) (hlocked : sem.locked = true) {job : CronJob}
    (hurgent : 30 ≤ job.priority) {entries : List String} :
    Permits max_concurrent_jobs (sem.enqueue l.length) (l ++ [⟨.waiting job, entries⟩]) := by
  refine h.replaces replaces_append ?_ (Semaphore.live_enqueue hlocked h.live) ?_ ?_ ?_ ?_
  · simp [Semaphore.free_enqueue, Invocation.running]
  · rw [Semaphore.queue_enqueue, List.nodup_append_comm, List.singleton_append, List.nodup_cons]
    exact ⟨h.length_notMem, h.nodup⟩
  · intro j hj
    simp [Semaphore.queue_enqueue, hj]
  · simp [Semaphore.queue_enqueue, Invocation.Waits]
  · rintro job' ⟨⟩
    exact hurgent

lemma Permits.starts (h : Permits max_concurrent_jobs sem l) (hlocked : sem.locked = false) {job : CronJob}
    {entry_id : String} {entries : List String} :
    Permits max_concurrent_jobs sem.take (l ++ [⟨.running job entry_id, entries⟩]) := by
  refine h.replaces replaces_append ?_ (Semaphore.live_take hlocked) h.nodup (fun _ _ => Iff.rfl) ?_ ?_
  · have := Semaphore.free_take hlocked
    simpa [Invocation.running] using this
  · exact iff_of_false h.length_notMem (by simp [Invocation.Waits])
  · rintro job' ⟨⟩

lemma Permits.resumes (h : Permits max_concurrent_jobs sem l) (hwoken : (i, true) ∈ sem.waiters)
    {job job' : CronJob}
    {entry_id : String} {entries entries' : List String} (hi : l[i]? = some ⟨.waiting job, entries⟩) :
    Permits max_concurrent_jobs (sem.resume i) (l.set i ⟨.running job' entry_id, entries'⟩) := by
  obtain ⟨hqueue, hfree, hlive⟩ := Semaphore.resume_spec hwoken
  have hnodup := hqueue.nodup_iff.mp h.nodup
  rw [List.nodup_cons] at hnodup
  refine h.replaces (replaces_set hi) ?_ hlive hnodup.2 ?_ ?_ ?_
  · simpa [hi, Invocation.running] using hfree
  · intro j hj
    rw [hqueue.mem_iff, List.mem_cons, or_iff_right hj]
  · exact iff_of_false hnodup.1 (by simp [Invocation.Waits])
  · rintro job'' ⟨⟩

lemma Permits.finishes (h : Permits max_concurrent_jobs sem l) {job : CronJob} {job' : Option CronJob}
    {entry_id : String} {entries entries' : List String} (hi : l[i]? = some ⟨.running job entry_id, entries⟩) :
    Permits max_concurrent_jobs sem.release (l.set i ⟨.ended job', entries'⟩) := by
  obtain ⟨hqueue, hfree, hlive⟩ := Semaphore.release_spec (s := sem)
  refine h.replaces (replaces_set hi) ?_ hlive (hqueue ▸ h.nodup) (fun j _ => by rw [hqueue]) ?_ ?_
  · simpa [hi, Invocation.running] using hfree
  · rw [hqueue, h.queue]
    simp [hi, Invocation.Waits]
  · rintro job'' ⟨⟩

end Permits

section Entries

variable {l : List Invocation} {i : ℕ} {c : Invocation} {t u : Table}

/-- The two kinds of entries the wrapper creates for a job. -/
def About (job : CronJob) (row : LedgerEntry) : Prop :=
  row.action = "cron_job_skipped" ∧ row.metadata = skippedMetadata job ∨
    row.action = "cron_job_exec" ∧ row.metadata = execMetadata job

/-- One entry of its own, in the ledger, in a status that meets `P`. -/
def Recorded (t : Table) (job : CronJob) (entries : List String) (P : Status → Prop) : Prop :=
  ∃ row, entries = [row.id] ∧ t.find? row.id = some row ∧ About job row ∧ P row.status

def Settled (status : Status) : Prop := status = .completed ∨ status = .failed

def Invocation.Sound (t : Table) (c : Invocation) : Prop :=
  match c.stage with
  | .waiting _ | .ended none => c.entries = []
  | .running job entry_id => c.entries = [entry_id] ∧ Recorded t job c.entries (· = .running)
  | .ended (some job) => Recorded t job c.entries Settled

lemma Invocation.Sound.frame (h : c.Sound t) (hsame : ∀ id ∈ c.entries, u.find? id = t.find? id) : c.Sound u := by
  have hrecorded : ∀ {job P}, Recorded t job c.entries P → Recorded u job c.entries P := by
    rintro job P ⟨row, hentries, hrow, hrest⟩
    exact ⟨row, hentries, by rw [hsame _ (by simp [hentries]), hrow], hrest⟩
  obtain ⟨stage, entries⟩ := c
  match stage with
  | .waiting _ | .ended none => exact h
  | .running job entry_id => exact ⟨h.1, hrecorded h.2⟩
  | .ended (some job) => exact hrecorded h

lemma Invocation.Sound.find (h : c.Sound t) {id : String} (hid : id ∈ c.entries) : t.find? id ≠ none := by
  have hrecorded : ∀ {job P}, Recorded t job c.entries P → t.find? id ≠ none := by
    rintro job P ⟨row, hentries, hrow, -⟩
    rw [hentries, List.mem_singleton] at hid
    rw [hid, hrow]
    exact Option.some_ne_none row
  obtain ⟨stage, entries⟩ := c
  match stage with
  | .waiting _ | .ended none => exact absurd hid (by rw [show entries = [] from h]; exact List.not_mem_nil)
  | .running job entry_id => exact hrecorded h.2
  | .ended (some job) => exact hrecorded h

structure Records (t : Table) (l : List Invocation) : Prop where
  sound : ∀ (i : ℕ) c, l[i]? = some c → c.Sound t
  own : ∀ (i j : ℕ) c d id, l[i]? = some c → l[j]? = some d → id ∈ c.entries → id ∈ d.entries → i = j

lemma Records.replaces {l' : List Invocation} (h : Records t l) (hr : Replaces l i c l') (hc : c.Sound u)
    (hothers : ∀ (j : ℕ) d, j ≠ i → l[j]? = some d → ∀ id ∈ d.entries, id ∉ c.entries ∧ u.find? id = t.find? id) :
    Records u l' where
  sound j d hd := by
    rw [hr.get] at hd
    split at hd
    · cases hd
      exact hc
    · rename_i hj
      exact (h.sound j d hd).frame fun id hid => (hothers j d hj hd id hid).2
  own j k d e id hd he hjd hke := by
    rw [hr.get] at hd he
    split at hd <;> split at he
    · rename_i hj hk
      rw [hj, hk]
    · rename_i hj hk
      cases hd
      exact absurd hjd (hothers k e hk he id hke).1
    · rename_i hj hk
      cases he
      exact absurd hke (hothers j d hj hd id hjd).1
    · exact h.own j k d e id hd he hjd hke

variable {w v : Ledger.World} {uuid action : String} {metadata : Dict} {status : Status} {row : LedgerEntry}

lemma Records.enters {l' : List Invocation} {stage : Stage} (h : Records w.table l)
    (hentered : Entered w v uuid action metadata status row) (hr : Replaces l i ⟨stage, [uuid]⟩ l')
    (hc : Invocation.Sound v.table ⟨stage, [uuid]⟩) : Records v.table l' := by
  refine h.replaces hr hc fun j d _ hd id hid => ?_
  have hne : id ≠ uuid := by
    rintro rfl
    exact (h.sound j d hd).find hid hentered.fresh
  refine ⟨by simpa using hne, ?_⟩
  rw [hentered.wrote, hentered.id, if_neg hne]

lemma Entered.recorded {job : CronJob} (h : Entered w v uuid action metadata status row)
    (habout : action = "cron_job_skipped" ∧ metadata = skippedMetadata job ∨
      action = "cron_job_exec" ∧ metadata = execMetadata job) {P : Status → Prop} (hP : P status) :
    Recorded v.table job [uuid] P := by
  refine ⟨row, by rw [h.id], h.find, ?_, h.status ▸ hP⟩
  rw [About, h.action, h.metadata]
  exact habout

lemma Records.concludes (h : Records w.table l) {job : CronJob} {entry_id : String} {entries : List String}
    (hi : l[i]? = some ⟨.running job entry_id, entries⟩) {outcome : Except String Value} {clock : ℕ → Int64}
    {e : LedgerEntry} (hv : succeed clock "" (recordOutcome entry_id outcome) w = some (v, e)) :
    Records v.table (l.set i ⟨.ended (some job), entries⟩) := by
  obtain ⟨hentries, row, hrow_id, hrow, habout, hrunning⟩ := h.sound i _ hi
  obtain rfl : entries = [row.id] := hrow_id
  obtain rfl : entry_id = row.id := (List.singleton_inj.mp hentries).symm
  obtain ⟨status, row', hstatus, hmoved, hwrote⟩ := of_succeed (recordOutcome_finishes hrow hrunning outcome) hv
  have hid := hmoved.same.1
  refine h.replaces (replaces_set hi) ⟨row', by rw [hid], by rw [hwrote, if_pos rfl], ?_, ?_⟩ ?_
  · rw [About, hmoved.same.2.1, hmoved.same.2.2.2.2]
    exact habout
  · rw [Settled, hmoved.status_eq]
    exact hstatus
  · intro j d hj hd id hjd
    have hne : id ≠ row.id := by
      rintro rfl
      exact hj (h.own j i d _ _ hd hi hjd (List.mem_singleton_self _))
    exact ⟨by simpa using hne, by rw [hwrote, hid, if_neg hne]⟩

end Entries

section Cases

/-- The job of an invocation that has not ended. -/
def inFlight (c : Invocation) : Option CronJob :=
  match c.stage with
  | .waiting job | .running job _ => some job
  | .ended _ => none

/-- The job whose payload is in progress. -/
def executing (c : Invocation) : Option CronJob :=
  match c.stage with
  | .running job _ => some job
  | _ => none

lemma inFlight_of_executing {c : Invocation} {job : CronJob} (h : executing c = some job) :
    inFlight c = some job := by
  rw [executing] at h
  split at h
  · rename_i hstage
    cases h
    rw [inFlight, hstage]
  · cases h

lemma bind_inFlight_of_executing {l : List Invocation} {i : ℕ} {job : CronJob}
    (h : l[i]?.bind executing = some job) : l[i]?.bind inFlight = some job := by
  obtain ⟨c, hc, hjob⟩ := Option.bind_eq_some_iff.mp h
  rw [hc]
  exact inFlight_of_executing hjob

lemma bind_replaced {β : Type} {l l' : List Invocation} {i : ℕ} {c : Invocation} (hr : Replaces l i c l')
    (f : Invocation → Option β) (j : ℕ) : l'[j]?.bind f = if j = i then f c else l[j]?.bind f := by
  rw [hr.get]
  split <;> rfl

variable {s s' : State p} {clock : ℕ → Int64} {uuid : String}

/-- The enabled job that an invocation finds. -/
def found (s : State p) (job_id : String) : Option CronJob :=
  (s.engine.jobs.get? job_id).filter (·.enabled)

lemma invoke_cases {job_id : String} (h : invoke job_id clock uuid s = some s') :
    s'.engine = s.engine ∧ ∃ c, s'.invocations = s.invocations ++ [c] ∧
      (found s job_id = none ∧ c = ⟨.ended none, []⟩ ∨
        ∃ job, found s job_id = some job ∧
          (s.semaphore.locked = true ∧ job.priority < 30 ∧ c.stage = .ended (some job) ∨
            s.semaphore.locked = true ∧ 30 ≤ job.priority ∧ c.stage = .waiting job ∨
            s.semaphore.locked = false ∧ ∃ entry_id, c.stage = .running job entry_id)) := by
  rw [invoke] at h
  split at h
  · rename_i hnone
    cases h
    exact ⟨rfl, _, rfl, Or.inl ⟨hnone, rfl⟩⟩
  · rename_i job hjob
    split at h
    · rename_i hdrop
      obtain ⟨r, -, rfl⟩ := Option.map_eq_some_iff.mp h
      rw [Bool.and_eq_true, decide_eq_true_eq] at hdrop
      exact ⟨rfl, _, rfl, Or.inr ⟨job, hjob, Or.inl ⟨hdrop.1, hdrop.2, rfl⟩⟩⟩
    · rename_i hkept
      split at h
      · rename_i hlocked
        cases h
        refine ⟨rfl, _, rfl, Or.inr ⟨job, hjob, Or.inr (Or.inl ⟨hlocked, ?_, rfl⟩)⟩⟩
        simpa [hlocked] using hkept
      · rename_i hunlocked
        obtain ⟨r, -, rfl⟩ := Option.map_eq_some_iff.mp h
        exact ⟨rfl, _, rfl, Or.inr ⟨job, hjob, Or.inr (Or.inr ⟨Bool.eq_false_iff.mpr hunlocked, _, rfl⟩)⟩⟩

lemma inFlight_invoked {job_id : String} (h : invoke job_id clock uuid s = some s') : s'.engine = s.engine ∧
    ∃ c, s'.invocations = s.invocations ++ [c] ∧ ∀ job, inFlight c = some job → found s job_id = some job := by
  obtain ⟨hengine, c, hl, hc⟩ := invoke_cases h
  refine ⟨hengine, c, hl, ?_⟩
  rcases hc with ⟨-, rfl⟩ | ⟨job, hjob, ⟨-, -, hstage⟩ | ⟨-, -, hstage⟩ | ⟨-, entry_id, hstage⟩⟩
  · rintro job ⟨⟩
  · rw [inFlight, hstage]
    rintro job' ⟨⟩
  · rw [inFlight, hstage]
    rintro job' ⟨⟩
    exact hjob
  · rw [inFlight, hstage]
    rintro job' ⟨⟩
    exact hjob

lemma resume_cases {i : ℕ} (h : resume i clock uuid s = some s') :
    s'.engine = s.engine ∧ ∃ job entry_id entries entries', s.invocations[i]? = some ⟨.waiting job, entries⟩ ∧
      (i, true) ∈ s.semaphore.waiters ∧
      s'.invocations = s.invocations.set i ⟨.running job entry_id, entries'⟩ := by
  rw [resume] at h
  split at h
  · rename_i job entries hc
    split at h
    · rename_i hwoken
      obtain ⟨r, -, rfl⟩ := Option.map_eq_some_iff.mp h
      exact ⟨rfl, job, _, entries, _, hc, hwoken, rfl⟩
    · cases h
  · cases h

lemma finish_cases {i : ℕ} {outcome : Except String Value} {d : Disk}
    (h : finish i outcome clock d s = some s') :
    ∃ job entry_id entries, s.invocations[i]? = some ⟨.running job entry_id, entries⟩ ∧
      s'.invocations = s.invocations.set i ⟨.ended (some job), entries⟩ ∧
      s'.engine = if job.deleteAfterRun then (removeJob job.id d s.engine).1 else s.engine := by
  rw [finish] at h
  split at h
  · rename_i job entry_id entries hc
    obtain ⟨r, -, rfl⟩ := Option.map_eq_some_iff.mp h
    exact ⟨job, entry_id, entries, hc, rfl, rfl⟩
  · cases h

lemma elsewhere_cases {engine : Cron.World p} {c : Ledger.Command} {o : Oracle}
    (h : elsewhere engine c o s = some s') : s'.engine = engine ∧ s'.invocations = s.invocations := by
  rw [elsewhere] at h
  split at h
  · cases h
  · obtain ⟨r, -, rfl⟩ := Option.map_eq_some_iff.mp h
    exact ⟨rfl, rfl⟩

end Cases

section Steps

variable {max_concurrent_jobs : ℕ} {s s' : State p}

structure Inv (max_concurrent_jobs : ℕ) (s : State p) : Prop where
  permits : Permits max_concurrent_jobs s.semaphore s.invocations
  records : Records s.ledger.table s.invocations

lemma Records.frame {l : List Invocation} {t u : Table} (h : Records t l)
    (hsame : ∀ id ∈ l.flatMap Invocation.entries, u.find? id = t.find? id) : Records u l where
  sound i c hc := (h.sound i c hc).frame fun id hid =>
    hsame id (List.mem_flatMap.mpr ⟨c, List.mem_of_getElem? hc, hid⟩)
  own := h.own

lemma exec_other {n : ℕ} {o : Oracle} {w v : Ledger.World} {c : Ledger.Command} {y : Ledger.Reply c}
    (h : exec n o w c = some (v, y)) {id : String} (hid : PyStr.text id ∉ target c) : v.table.find? id = w.table.find? id := by
  cases c with
  | utcMs => cases h; rfl
  | uuid4 => cases h; rfl
  | get entry_id => cases h; rfl
  | append entry =>
    simp only [exec] at h
    split at h <;> cases h
    · rfl
    · obtain ⟨row, rfl, -, hinsert⟩ := Table.append_eq_ok.mp ‹_›
      have hne : id ≠ row.id := fun he => hid (he ▸ rfl)
      exact ((Table.insert_ok hinsert).2 id).trans (if_neg hne)
  | update entry_id updates expected =>
    simp only [exec] at h
    split at h <;> cases h
    · rfl
    · rename_i t b ht
      rcases Table.update_eq_ok.mp ht with ⟨-, hsame⟩ | ⟨i, fields, rfl, -, hset⟩
      · cases hsame
        rfl
      · have hne : id ≠ i := fun he => hid (he ▸ rfl)
        obtain rfl : t = (w.table.set i fields expected).1 := congrArg Prod.fst hset
        exact Table.set_other hne
  | delete entry_id =>
    simp only [exec] at h
    split at h <;> cases h
    · rfl
    · rename_i t ht
      obtain ⟨i, hi, ht⟩ := Foundation.Programs.bind_eq_ok ht
      obtain rfl := bindText_eq_ok.mp hi
      cases ht
      have hne : id ≠ i := fun he => hid (he ▸ rfl)
      exact (Table.find?_remove ..).trans (if_neg hne)

lemma invoke_inv (hi : Inv max_concurrent_jobs s) {job_id uuid : String} {clock : ℕ → Int64}
    (h : invoke job_id clock uuid s = some s') : Inv max_concurrent_jobs s' := by
  rw [invoke] at h
  split at h
  · cases h
    refine ⟨hi.permits.ends, hi.records.replaces replaces_append rfl ?_⟩
    exact fun j d _ _ id _ => ⟨List.not_mem_nil, rfl⟩
  · rename_i job hjob
    split at h
    · -- skipped
      obtain ⟨⟨v, e⟩, hv, rfl⟩ := Option.map_eq_some_iff.mp h
      obtain ⟨hid, row, hentered⟩ := of_succeed (recordSkipped_finishes job) hv
      refine ⟨hi.permits.ends, ?_⟩
      rw [hid]
      exact hi.records.enters hentered replaces_append (hentered.recorded (Or.inl ⟨rfl, rfl⟩) (Or.inl rfl))
    · rename_i hkept
      split at h
      · rename_i hlocked
        have hurgent : 30 ≤ job.priority := by
          simpa [hlocked] using hkept
        cases h
        refine ⟨hi.permits.waits hlocked hurgent, hi.records.replaces replaces_append rfl ?_⟩
        exact fun j d _ _ id _ => ⟨List.not_mem_nil, rfl⟩
      · rename_i hunlocked
        obtain ⟨⟨v, e⟩, hv, rfl⟩ := Option.map_eq_some_iff.mp h
        obtain ⟨hid, row, hentered⟩ := of_succeed (recordStarted_finishes job) hv
        refine ⟨hi.permits.starts (Bool.eq_false_iff.mpr hunlocked), ?_⟩
        rw [hid]
        exact hi.records.enters hentered replaces_append ⟨rfl, hentered.recorded (Or.inr ⟨rfl, rfl⟩) rfl⟩

lemma resume_inv (hi : Inv max_concurrent_jobs s) {i : ℕ} {uuid : String} {clock : ℕ → Int64}
    (h : resume i clock uuid s = some s') : Inv max_concurrent_jobs s' := by
  rw [resume] at h
  split at h
  · rename_i job entries hc
    split at h
    · rename_i hwoken
      obtain ⟨⟨v, e⟩, hv, rfl⟩ := Option.map_eq_some_iff.mp h
      obtain ⟨hid, row, hentered⟩ := of_succeed (recordStarted_finishes job) hv
      obtain rfl : entries = [] := hi.records.sound i _ hc
      refine ⟨hi.permits.resumes hwoken hc, ?_⟩
      rw [hid]
      exact hi.records.enters hentered (replaces_set hc) ⟨rfl, hentered.recorded (Or.inr ⟨rfl, rfl⟩) rfl⟩
    · cases h
  · cases h

lemma finish_inv (hi : Inv max_concurrent_jobs s) {i : ℕ} {outcome : Except String Value} {clock : ℕ → Int64}
    {d : Disk}
    (h : finish i outcome clock d s = some s') : Inv max_concurrent_jobs s' := by
  rw [finish] at h
  split at h
  · rename_i job entry_id entries hc
    obtain ⟨⟨v, e⟩, hv, rfl⟩ := Option.map_eq_some_iff.mp h
    exact ⟨hi.permits.finishes hc, hi.records.concludes hc hv⟩
  · cases h

lemma elsewhere_inv (hi : Inv max_concurrent_jobs s) {engine : Cron.World p} {c : Ledger.Command}
    {o : Oracle}
    (h : elsewhere engine c o s = some s') : Inv max_concurrent_jobs s' := by
  rw [elsewhere] at h
  split at h
  · cases h
  · rename_i hforeign
    obtain ⟨⟨v, y⟩, hv, rfl⟩ := Option.map_eq_some_iff.mp h
    refine ⟨hi.permits, hi.records.frame fun id hid => exec_other hv ?_⟩
    intro htarget
    apply hforeign
    rw [Option.mem_def.mp htarget]
    exact decide_eq_true (List.mem_map_of_mem hid)

lemma step_inv {a : Label p} (hi : Inv max_concurrent_jobs s) (h : step s a = some s') :
    Inv max_concurrent_jobs s' := by
  cases a with
  | invoke job_id clock uuid => exact invoke_inv hi h
  | resume i clock uuid => exact resume_inv hi h
  | finish i outcome clock d => exact finish_inv hi h
  | elsewhere engine c o => exact elsewhere_inv hi h

lemma start_inv {engine : Cron.World p} {ledger : Ledger.World} :
    Inv max_concurrent_jobs (State.start max_concurrent_jobs engine ledger) :=
  ⟨permits_start, by simp [State.start], by simp [State.start]⟩

lemma Inv.all_free (hi : Inv max_concurrent_jobs s)
    (hended : ∀ c ∈ s.invocations, ∃ job, c.stage = .ended job) :
    s.semaphore = ⟨max_concurrent_jobs, []⟩ := by
  have hqueue : s.semaphore.waiters = [] := by
    rw [List.eq_nil_iff_forall_not_mem]
    intro x hx
    obtain ⟨c, hc, job, hjob⟩ := (hi.permits.queue x.1).mp (List.mem_map_of_mem hx)
    obtain ⟨job', hjob'⟩ := hended c (List.mem_of_getElem? hc)
    rw [hjob] at hjob'
    cases hjob'
  have hcount : s.invocations.countP Invocation.running = 0 := by
    rw [List.countP_eq_zero]
    intro c hc
    obtain ⟨job, hjob⟩ := hended c hc
    simp [Invocation.running, hjob]
  have hpermits := hi.permits.permits
  rw [hcount, Semaphore.free, hqueue, List.countP_nil] at hpermits
  cases hsem : s.semaphore with
  | mk value waiters =>
    rw [hsem] at hpermits hqueue
    simp_all

lemma Inv.some_moves (hi : Inv max_concurrent_jobs s) (hmax : 0 < max_concurrent_jobs)
    (hopen : ∃ c ∈ s.invocations, ∀ job, c.stage ≠ .ended job) :
    ∃ i c, s.invocations[i]? = some c ∧ (c.running = true ∨ c.Waits ∧ (i, true) ∈ s.semaphore.waiters) := by
  by_cases hrunning : ∃ c ∈ s.invocations, c.running = true
  · obtain ⟨c, hc, hrun⟩ := hrunning
    obtain ⟨i, hi⟩ := List.mem_iff_getElem?.mp hc
    exact ⟨i, c, hi, Or.inl hrun⟩
  · suffices hwoken : ∃ j, (j, true) ∈ s.semaphore.waiters by
      obtain ⟨j, hj⟩ := hwoken
      obtain ⟨c, hc, hwaits⟩ := (hi.permits.queue j).mp (List.mem_map_of_mem hj)
      exact ⟨j, c, hc, Or.inr ⟨hwaits, hj⟩⟩
    by_contra hnone
    have hcount : s.invocations.countP Invocation.running = 0 :=
      List.countP_eq_zero.mpr fun c hc hrun => hrunning ⟨c, hc, hrun⟩
    have hpermits := hi.permits.permits
    rw [hcount, Semaphore.free, List.countP_eq_zero.mpr] at hpermits
    · obtain ⟨c, hc, hstage⟩ := hopen
      obtain ⟨i, hget⟩ := List.mem_iff_getElem?.mp hc
      have hwaits : c.Waits := by
        cases hstage' : c.stage with
        | waiting job => exact ⟨job, hstage'⟩
        | running job entry_id => exact absurd ⟨c, hc, by simp [Invocation.running, hstage']⟩ hrunning
        | ended job => exact absurd hstage' (hstage job)
      obtain ⟨⟨k, b⟩, hk, rfl⟩ := List.mem_map.mp ((hi.permits.queue i).mpr ⟨c, hget, hwaits⟩)
      cases b with
      | true => exact hnone ⟨k, hk⟩
      | false => exact hnone (hi.permits.live (by omega) k hk)
    · rintro ⟨k, b⟩ hk rfl
      exact hnone ⟨k, hk⟩

lemma resume_possible {i : ℕ} {job : CronJob} {entries : List String} {uuid : String} {clock : ℕ → Int64}
    (hc : s.invocations[i]? = some ⟨.waiting job, entries⟩) (hwoken : (i, true) ∈ s.semaphore.waiters)
    (hfree : s.ledger.table.find? uuid = none) : ∃ s', resume i clock uuid s = some s' := by
  obtain ⟨v, e, hv⟩ := exists_succeed clock uuid s.ledger (recordStarted_finishes job)
    fun e v h => h hfree
  rw [resume, hc]
  simp only [hwoken, if_true, hv]
  exact ⟨_, rfl⟩

lemma Inv.finish_possible (hi : Inv max_concurrent_jobs s) {i : ℕ} {job : CronJob} {entry_id : String}
    {entries : List String} (hc : s.invocations[i]? = some ⟨.running job entry_id, entries⟩)
    (outcome : Except String Value) (clock : ℕ → Int64) (d : Disk) : ∃ s', finish i outcome clock d s = some s' := by
  obtain ⟨hentries, row, hrow_id, hrow, -, hrunning⟩ := hi.records.sound i _ hc
  obtain rfl : entries = [row.id] := hrow_id
  obtain rfl : entry_id = row.id := (List.singleton_inj.mp hentries).symm
  obtain ⟨v, e, hv⟩ := exists_succeed clock "" s.ledger (recordOutcome_finishes hrow hrunning outcome)
    fun e v h => h
  rw [finish, hc]
  simp only [hv]
  exact ⟨_, rfl⟩

/-- Some invocation that has not ended can take its next step, whatever its payload gives. -/
def Progresses (s : State p) : Prop :=
  ∃ i, (∀ outcome clock d, ∃ s', finish i outcome clock d s = some s') ∨
    ∀ clock uuid, s.ledger.table.find? uuid = none → ∃ s', resume i clock uuid s = some s'

lemma Inv.progresses (hi : Inv max_concurrent_jobs s) (hmax : 0 < max_concurrent_jobs)
    (hopen : ∃ c ∈ s.invocations, ∀ job, c.stage ≠ .ended job) : Progresses s := by
  obtain ⟨i, ⟨stage, entries⟩, hc, hmoves⟩ := hi.some_moves hmax hopen
  refine ⟨i, ?_⟩
  rcases hmoves with hrunning | ⟨⟨job, hjob⟩, hwoken⟩
  · left
    cases stage with
    | running job entry_id => exact hi.finish_possible hc
    | _ => cases hrunning
  · right
    cases hjob
    exact fun clock uuid hfree => resume_possible hc hwoken hfree

theorem backpressure_accounts {engine : Cron.World p} {ledger : Ledger.World}
    (h : Reachable step (State.start max_concurrent_jobs engine ledger) s) :
    s.invocations.countP Invocation.running ≤ max_concurrent_jobs ∧
    (∀ c ∈ s.invocations, ∀ job, c.stage = .waiting job → 30 ≤ job.priority) ∧
    (∀ c ∈ s.invocations, ∀ job, c.stage = .ended (some job) → Recorded s.ledger.table job c.entries Settled) ∧
    (∀ (i j : ℕ) c d id, s.invocations[i]? = some c → s.invocations[j]? = some d → id ∈ c.entries →
      id ∈ d.entries → i = j) ∧
    ((∀ c ∈ s.invocations, ∃ job, c.stage = .ended job) → s.semaphore = ⟨max_concurrent_jobs, []⟩) ∧
    (0 < max_concurrent_jobs → (∃ c ∈ s.invocations, ∀ job, c.stage ≠ .ended job) → Progresses s) := by
  have hi : Inv max_concurrent_jobs s := reachable_invariant (fun hi ht => step_inv hi ht) start_inv h
  refine ⟨by have := hi.permits.permits; omega, ?_, ?_, hi.records.own, hi.all_free, hi.progresses⟩
  · intro c hc job hjob
    obtain ⟨i, hget⟩ := List.mem_iff_getElem?.mp hc
    exact hi.permits.urgent i c job hget hjob
  · rintro ⟨stage, entries⟩ hc job ⟨⟩
    obtain ⟨i, hget⟩ := List.mem_iff_getElem?.mp hc
    exact hi.records.sound i _ hget

end Steps

section Storm

def stormJob (id : String) (priority : ℤ) : CronJob :=
  { undated with id, name := id, priority }

def stormJobs : Jobs :=
  ((Dicts.OrderedDict.empty.set "heavy" (stormJob "heavy" 100)).set "low" (stormJob "low" 10)).set "high"
    (stormJob "high" 90)

def stormStart : State memory := .start 1 { fresh with jobs := stormJobs } ⟨.empty, []⟩

def endedWithJob (c : Invocation) : Bool :=
  match c.stage with
  | .ended (some _) => true
  | _ => false

lemma exists_job {c : Invocation} (h : endedWithJob c = true) : ∃ job, c.stage = .ended (some job) := by
  rw [endedWithJob] at h
  split at h
  · exact ⟨_, ‹_›⟩
  · cases h

/-- While a job runs, one is dropped and one waits; the result of the first is not JSON. -/
def storm : List (Label memory) :=
  [.invoke "heavy" (fun _ => 0) "e-1", .invoke "low" (fun _ => 1) "e-2", .invoke "high" (fun _ => 2) "e-3",
    .finish 0 (.ok (.object "set")) (fun _ => 3) {}, .resume 2 (fun _ => 4) "e-3",
    .finish 2 (.ok (.int 0)) (fun _ => 5) {}]

theorem storm_accounts : ∃ s, run step stormStart storm = some s ∧ s.invocations.length = 3 ∧
    (∀ c ∈ s.invocations, ∃ job, c.stage = .ended (some job) ∧ Recorded s.ledger.table job c.entries Settled) ∧
    s.semaphore = ⟨1, []⟩ := by
  obtain ⟨s, hs, hp⟩ := exists_of_run_any step stormStart storm
    (fun s => s.invocations.length = 3 && s.invocations.all endedWithJob) (by decide +kernel)
  rw [Bool.and_eq_true, decide_eq_true_eq, List.all_eq_true] at hp
  have hended : ∀ c ∈ s.invocations, ∃ job, c.stage = .ended (some job) := fun c hc => exists_job (hp.2 c hc)
  obtain ⟨-, -, hrecorded, -, hfree, -⟩ := backpressure_accounts ⟨storm, hs⟩
  refine ⟨s, hs, hp.1, fun c hc => ?_, hfree fun c hc => ?_⟩
  · obtain ⟨job, hjob⟩ := hended c hc
    exact ⟨job, hjob, hrecorded c hc job hjob⟩
  · obtain ⟨job, hjob⟩ := hended c hc
    exact ⟨some job, hjob⟩

end Storm

end OpsSentry.Cron.Backpressure
