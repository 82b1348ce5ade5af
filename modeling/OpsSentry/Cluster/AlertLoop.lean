import OpsSentry.Cluster.AlertSummary
import OpsSentry.Foundation.Runs
import Mathlib.Algebra.BigOperators.Group.List.Basic

/-! The `AlertAggregator` without Redis: `start`, `stop`, `emit` and `_run_loop` between the awaits of
each other. -/

namespace OpsSentry.Cluster.AlertLoop

open Foundation.Runs Alerts

/-- What a task of `_run_loop` waits for: to begin, the end of its sleep, or the end of one send. -/
inductive Phase
  | created
  | sleeping
  | sending (summary : Summary) (left : List ℕ)
  | ended

/-- The last task is `_task`. All that was ever emitted, the batches that were taken and what was sent
are kept beside the fields of the object. -/
structure State where
  stop_event : Bool
  buffer : List AlertEvent
  tasks : List Phase
  emitted : List AlertEvent
  batches : List (List AlertEvent)
  sent : List (ℕ × Summary)

def State.init : State := ⟨false, [], [], [], [], []⟩

/-- The channels by their places, and the HUD behind them. -/
def targets (channels : ℕ) : List ℕ := List.range (channels + 1)

namespace State

variable (w : State)

def setTask (i : ℕ) (p : Phase) : State := { w with tasks := w.tasks.set i p }

/-- The head of the loop. -/
def again (i : ℕ) : State := w.setTask i (if w.stop_event then .ended else .sleeping)

/-- The next send, up to its await. Whether the one before it raised makes no difference. -/
def send (i : ℕ) (summary : Summary) : List ℕ → State
  | [] => w.again i
  | target :: left => { w with sent := w.sent ++ [(target, summary)] }.setTask i (.sending summary left)

/-- `_process_batch`, up to its first await. The lock around the swap is never held across an await. -/
def processBatch (channels i : ℕ) : State :=
  let raw_events := w.buffer
  if raw_events = [] then w.again i
  else
    let w := { w with buffer := [], batches := w.batches ++ [raw_events] }
    match dispatch (aggregate raw_events) with
    | none => w.again i
    | some summary => w.send i summary (targets channels)

def start : State :=
  match w.tasks.getLast? with
  | none | some .ended => { w with stop_event := false, tasks := w.tasks ++ [.created] }
  | some _ => w

def emit (event : AlertEvent) : State :=
  { w with buffer := w.buffer ++ [event], emitted := w.emitted ++ [event] }

end State

inductive Label
  | start
  | stop
  | emit (event : AlertEvent)
  | resume (i : ℕ)

/-- `stop` sets the event, and returns once the task it awaits has ended. -/
def step (channels : ℕ) (w : State) : Label → Option State
  | .start => some w.start
  | .stop => some { w with stop_event := true }
  | .emit event => some (w.emit event)
  | .resume i =>
    match w.tasks[i]? with
    | some .created => some (w.again i)
    | some .sleeping => some (w.processBatch channels i)
    | some (.sending summary left) => some (w.send i summary left)
    | _ => none

/-- What is to be sent of some batches, in its order. -/
def announcements (channels : ℕ) (batches : List (List AlertEvent)) : List (ℕ × Summary) :=
  batches.flatMap fun events => (dispatch (aggregate events)).toList.flatMap fun summary =>
    (targets channels).map fun target => (target, summary)

def Phase.unsent : Phase → List (ℕ × Summary)
  | .sending summary left => left.map fun target => (target, summary)
  | _ => []

/-- Only `_task` may be running. -/
structure Inv (channels : ℕ) (w : State) : Prop where
  taken : w.emitted = w.batches.flatten ++ w.buffer
  nonempty : ∀ b ∈ w.batches, b ≠ []
  older : ∀ p ∈ w.tasks.dropLast, p = .ended
  sent : w.sent ++ w.tasks.flatMap Phase.unsent = announcements channels w.batches
  left : ∀ summary left, .sending summary left ∈ w.tasks → left.length ≤ channels

section Step

variable {channels i : ℕ} {w t : State} {p q : Phase} {summary : Summary} {older : List Phase}

lemma announcements_concat (batches : List (List AlertEvent)) (events : List AlertEvent) :
    announcements channels (batches ++ [events]) = announcements channels batches ++
      (dispatch (aggregate events)).toList.flatMap fun summary => (targets channels).map fun target => (target, summary) := by
  rw [announcements, List.flatMap_append, List.flatMap_singleton, announcements]

lemma unsent_ended (h : ∀ p ∈ older, p = .ended) : older.flatMap Phase.unsent = [] := by
  rw [List.flatMap_eq_nil_iff]
  intro p hp
  rw [h p hp]
  rfl

/-- The one task that runs is the last. -/
lemma Inv.running (h : Inv channels w) (hp : w.tasks[i]? = some p) (hne : p ≠ .ended) :
    ∃ older, (∀ p ∈ older, p = .ended) ∧ w.tasks = older ++ [p] ∧ ∀ q, w.tasks.set i q = older ++ [q] := by
  obtain ⟨hi, hget⟩ := List.getElem?_eq_some_iff.mp hp
  have hlast : i + 1 = w.tasks.length := by
    by_contra hlt
    have hmem : p ∈ w.tasks.dropLast := by
      rw [List.dropLast_eq_take]
      have hlt' : i < w.tasks.length - 1 := by omega
      exact List.mem_iff_getElem?.mpr ⟨i, by rw [List.getElem?_take_of_lt hlt', hp]⟩
    exact hne (h.older p hmem)
  have hnil : w.tasks ≠ [] := by
    rintro hnil
    rw [hnil] at hi
    cases hi
  have htasks : w.tasks = w.tasks.dropLast ++ [p] := by
    rw [← List.dropLast_append_getLast hnil, List.dropLast_concat, ← hget, List.getLast_eq_getElem]
    congr 3
    omega
  refine ⟨w.tasks.dropLast, h.older, htasks, fun q => ?_⟩
  have hlength : i = w.tasks.dropLast.length := by
    rw [List.length_dropLast]
    omega
  rw [htasks, List.dropLast_concat, List.set_append_right (h := by omega)]
  simp [hlength]

/-- The end of a turn of the loop. -/
def State.next (w : State) : Phase := if w.stop_event then .ended else .sleeping

/-- Everything that a task can do from one await to its next. -/
inductive Turn (channels : ℕ) (w t : State) : Phase → Phase → Prop
  | begin : t.buffer = w.buffer → t.batches = w.batches → t.sent = w.sent → Turn channels w t .created w.next
  | idle : w.buffer = [] → t.buffer = [] → t.batches = w.batches → t.sent = w.sent →
    Turn channels w t .sleeping w.next
  | take (summary : Summary) (left : List ℕ) : w.buffer ≠ [] → dispatch (aggregate w.buffer) = some summary →
    targets channels = 0 :: left → t.buffer = [] → t.batches = w.batches ++ [w.buffer] →
    t.sent = w.sent ++ [(0, summary)] → Turn channels w t .sleeping (.sending summary left)
  | sent (summary : Summary) (target : ℕ) (left : List ℕ) : t.buffer = w.buffer → t.batches = w.batches →
    t.sent = w.sent ++ [(target, summary)] →
    Turn channels w t (.sending summary (target :: left)) (.sending summary left)
  | finish (summary : Summary) : t.buffer = w.buffer → t.batches = w.batches → t.sent = w.sent →
    Turn channels w t (.sending summary []) w.next

/-- What `resume` leads to: only the running task has moved. -/
structure Resumed (channels : ℕ) (w t : State) : Prop where
  stop_event : t.stop_event = w.stop_event
  emitted : t.emitted = w.emitted
  turn : ∃ older p q, (∀ r ∈ older, r = .ended) ∧ w.tasks = older ++ [p] ∧ t.tasks = older ++ [q] ∧
    Turn channels w t p q

lemma Inv.resumed (h : Inv channels w) (ht : step channels w (.resume i) = some t) : Resumed channels w t := by
  rw [step] at ht
  split at ht
  · rename_i hp
    obtain ⟨older, holder, htasks, hset⟩ := h.running hp (by simp)
    cases ht
    exact ⟨rfl, rfl, older, _, _, holder, htasks, hset _, .begin rfl rfl rfl⟩
  · rename_i hp
    obtain ⟨older, holder, htasks, hset⟩ := h.running hp (by simp)
    cases ht
    by_cases hbuffer : w.buffer = []
    · rw [State.processBatch, if_pos hbuffer]
      exact ⟨rfl, rfl, older, _, _, holder, htasks, hset _, .idle hbuffer hbuffer rfl rfl⟩
    · obtain ⟨summary, hsummary, -⟩ := dispatch_eq hbuffer
      rw [State.processBatch, if_neg hbuffer]
      simp only [hsummary, targets, List.range_succ_eq_map, State.send]
      exact ⟨rfl, rfl, older, _, _, holder, htasks, hset _,
        .take summary _ hbuffer hsummary (List.range_succ_eq_map) rfl rfl rfl⟩
  · rename_i summary left hp
    obtain ⟨older, holder, htasks, hset⟩ := h.running hp (by simp)
    cases ht
    cases left with
    | nil => exact ⟨rfl, rfl, older, _, _, holder, htasks, hset _, .finish summary rfl rfl rfl⟩
    | cons target left => exact ⟨rfl, rfl, older, _, _, holder, htasks, hset _, .sent summary target left rfl rfl rfl⟩
  · cases ht

lemma State.unsent_next (w : State) : w.next.unsent = [] := by
  rw [State.next]
  split <;> rfl

lemma Inv.turn (h : Inv channels w) (holder : ∀ r ∈ older, r = .ended) (htasks : w.tasks = older ++ [p])
    (htasks' : t.tasks = older ++ [q]) (hemitted : t.emitted = w.emitted) (hturn : Turn channels w t p q) :
    Inv channels t := by
  have hdrop : t.tasks.dropLast = older := by rw [htasks', List.dropLast_concat]
  have hsent := h.sent
  rw [htasks, List.flatMap_append, unsent_ended holder, List.nil_append, List.flatMap_singleton] at hsent
  have htaken := h.taken
  refine ⟨?_, ?_, hdrop ▸ holder, ?_, ?_⟩
  · rw [hemitted, htaken]
    cases hturn with
    | take summary left hne hsummary htargets hbuffer hbatches hsent =>
      rw [hbatches, hbuffer, List.flatten_append, List.flatten_singleton, List.append_nil]
    | idle hempty hbuffer hbatches => rw [hbatches, hbuffer, hempty]
    | begin hbuffer hbatches => rw [hbatches, hbuffer]
    | sent _ _ _ hbuffer hbatches => rw [hbatches, hbuffer]
    | finish _ hbuffer hbatches => rw [hbatches, hbuffer]
  · cases hturn with
    | take summary left hne hsummary htargets hbuffer hbatches hsent =>
      intro b hb
      rw [hbatches] at hb
      rcases List.mem_append.mp hb with hb | hb
      · exact h.nonempty b hb
      · rwa [List.mem_singleton.mp hb]
    | _ => simpa only [*] using h.nonempty
  · rw [htasks', List.flatMap_append, unsent_ended holder, List.nil_append, List.flatMap_singleton]
    cases hturn with
    | begin hbuffer hbatches hkept =>
      rw [hkept, hbatches, State.unsent_next]
      exact hsent
    | idle hempty hbuffer hbatches hkept =>
      rw [hkept, hbatches, State.unsent_next]
      exact hsent
    | take summary left hne hsummary htargets hbuffer hbatches hadded =>
      have hbefore : w.sent = announcements channels w.batches := by simpa [Phase.unsent] using hsent
      rw [hadded, hbatches, announcements_concat, ← hbefore, hsummary, htargets]
      simp [Phase.unsent]
    | sent summary target left hbuffer hbatches hadded =>
      rw [hadded, hbatches, ← hsent, Phase.unsent, Phase.unsent, List.map_cons, List.append_assoc,
        List.singleton_append]
    | finish summary hbuffer hbatches hkept => rw [hkept, hbatches, State.unsent_next, ← hsent, Phase.unsent, List.map_nil]
  · intro summary left hmem
    rw [htasks', List.mem_append, List.mem_singleton] at hmem
    rcases hmem with hmem | rfl
    · cases holder _ hmem
    · have hnext : ∀ {p}, p = w.next → p ≠ .sending summary left := by
        rintro p rfl
        rw [State.next]
        split <;> simp
      generalize hq : Phase.sending summary left = q at hturn
      cases hturn with
      | take summary' left' _ _ htargets =>
        cases hq
        have hlength := congrArg List.length htargets
        rw [targets, List.length_range, List.length_cons] at hlength
        omega
      | sent summary' target left' =>
        cases hq
        have hle := h.left summary (target :: left) (htasks ▸ List.mem_append_right older List.mem_cons_self)
        rw [List.length_cons] at hle
        omega
      | _ => exact absurd hq.symm (hnext rfl)

lemma inv_init : Inv channels State.init := by
  refine ⟨rfl, ?_, ?_, rfl, ?_⟩
  · intro x hx
    cases hx
  · intro x hx
    cases hx
  · intro summary left hx
    cases hx

lemma step_inv {l : Label} (h : Inv channels w) (ht : step channels w l = some t) : Inv channels t := by
  cases l with
  | start =>
    cases ht
    rw [State.start]
    split
    · rename_i hlast
      have hnil : w.tasks = [] := List.getLast?_eq_none_iff.mp hlast
      refine ⟨h.taken, h.nonempty, ?_, ?_, ?_⟩
      · simp [hnil]
      · simpa [hnil, Phase.unsent] using h.sent
      · simp [hnil]
    · rename_i hlast
      obtain ⟨older, htasks⟩ := List.getLast?_eq_some_iff.mp hlast
      refine ⟨h.taken, h.nonempty, ?_, ?_, ?_⟩
      · have holder := h.older
        rw [htasks, List.dropLast_concat] at holder
        simp only [List.dropLast_concat, htasks, List.forall_mem_append, List.forall_mem_singleton]
        exact ⟨holder, trivial⟩
      · rw [List.flatMap_append, List.flatMap_singleton]
        exact (congrArg (w.sent ++ ·) (List.append_nil _)).trans h.sent
      · intro summary left hmem
        rcases List.mem_append.mp hmem with hmem | hmem
        · exact h.left summary left hmem
        · cases List.mem_singleton.mp hmem
    · exact h
  | stop =>
    cases ht
    exact ⟨h.taken, h.nonempty, h.older, h.sent, h.left⟩
  | emit event =>
    cases ht
    refine ⟨?_, h.nonempty, h.older, h.sent, h.left⟩
    rw [State.emit, h.taken, List.append_assoc]
  | resume i =>
    obtain ⟨-, hemitted, older, p, q, holder, htasks, htasks', hturn⟩ := h.resumed ht
    exact h.turn holder htasks htasks' hemitted hturn

lemma reachable_inv (h : Reachable (step channels) State.init w) : Inv channels w :=
  reachable_invariant step_inv inv_init h

end Step

/-- In every run each alert is in one batch, in the order of the emits, or still in the buffer; every
batch has been announced to each channel once, in its order, but for the sends that the one running loop
has yet to make. -/
theorem alerts_announced_once {channels : ℕ} {w : State} (h : Reachable (step channels) State.init w) :
    w.emitted = w.batches.flatten ++ w.buffer ∧ (∀ b ∈ w.batches, b ≠ []) ∧
    (∃ unsent, w.sent ++ unsent = announcements channels w.batches ∧
      ((∀ summary left, .sending summary left ∉ w.tasks) → unsent = [])) ∧
    ∀ (i j : ℕ) p q, w.tasks[i]? = some p → w.tasks[j]? = some q → p ≠ Phase.ended → q ≠ Phase.ended → i = j := by
  have hi := reachable_inv h
  refine ⟨hi.taken, hi.nonempty, ⟨_, hi.sent, fun hidle => ?_⟩, ?_⟩
  · rw [List.flatMap_eq_nil_iff]
    intro p hp
    cases p with
    | sending summary left => exact absurd hp (hidle summary left)
    | _ => rfl
  · intro i j p q hp hq hp' hq'
    obtain ⟨older, holder, htasks, -⟩ := hi.running hp hp'
    have hlast : ∀ {k r}, w.tasks[k]? = some r → r ≠ .ended → k = older.length := by
      intro k r hr hne
      rw [htasks] at hr
      rcases Nat.lt_trichotomy k older.length with hlt | heq | hgt
      · rw [List.getElem?_append_left hlt] at hr
        exact (hne (holder r (List.mem_of_getElem? hr))).elim
      · exact heq
      · rw [List.getElem?_eq_none (by simp; omega)] at hr
        cases hr
    rw [hlast hp hp', hlast hq hq']

def nodeDead (source : String) : AlertEvent where
  id := "a-1"
  type := "NODE_DEAD"
  severity := "CRITICAL"
  source := source
  message := "heartbeat lost"
  details := []
  timestamp := 1700000000000

/-- The second alert comes in between the sends of the first. -/
def overlapping : List Label := [.start, .resume 0, .emit (nodeDead "node-1"), .resume 0, .emit (nodeDead "node-2")]

def whileSending : State := (run (step 0) State.init overlapping).getD State.init

theorem second_node_waits : ∃ w unsent, run (step 0) State.init overlapping = some w ∧
    w.buffer = [nodeDead "node-2"] ∧ w.sent ++ unsent = announcements 0 [[nodeDead "node-1"]] := by
  have hw : run (step 0) State.init overlapping = some _ := rfl
  obtain ⟨-, -, ⟨unsent, hunsent, -⟩, -⟩ := alerts_announced_once ⟨overlapping, hw⟩
  exact ⟨_, unsent, hw, rfl, hunsent⟩

section Stop

variable {channels : ℕ} {s w t : State} {l : Label} {labels : List Label}

def Label.resumes : Label → ℕ
  | .resume _ => 1
  | _ => 0

/-- The awaits that are left to a task once the event is set. -/
def Phase.work (channels : ℕ) : Phase → ℕ
  | .created => 1
  | .sleeping => channels + 2
  | .sending _ left => left.length + 1
  | .ended => 0

def State.work (channels : ℕ) (w : State) : ℕ := (w.tasks.map (Phase.work channels)).sum

structure Stopped (channels : ℕ) (w : State) : Prop where
  inv : Inv channels w
  stop_event : w.stop_event = true

/-- Nothing but its task moves the loop. -/
lemma Stopped.step_cases (h : Stopped channels w) (hl : l ≠ .start) (ht : step channels w l = some t) :
    (t.tasks = w.tasks ∧ t.batches = w.batches ∧ w.buffer <+: t.buffer ∧ t.stop_event = w.stop_event ∧ l.resumes = 0) ∨
    (Resumed channels w t ∧ l.resumes = 1) := by
  cases l with
  | start => exact absurd rfl hl
  | stop =>
    cases ht
    exact .inl ⟨rfl, rfl, List.prefix_rfl, h.stop_event.symm, rfl⟩
  | emit event =>
    cases ht
    exact .inl ⟨rfl, rfl, List.prefix_append _ _, rfl, rfl⟩
  | resume i => exact .inr ⟨h.inv.resumed ht, rfl⟩

lemma Stopped.next (h : Stopped channels w) : w.next = .ended := if_pos h.stop_event

lemma Stopped.stays (h : Stopped channels w) (hl : l ≠ .start) (ht : step channels w l = some t) :
    Stopped channels t := by
  refine ⟨step_inv h.inv ht, ?_⟩
  rcases h.step_cases hl ht with ⟨-, -, -, hevent, -⟩ | ⟨hresumed, -⟩
  · exact hevent.trans h.stop_event
  · exact hresumed.stop_event.trans h.stop_event

lemma Stopped.cost (h : Stopped channels w) (hl : l ≠ .start) (ht : step channels w l = some t) :
    l.resumes + t.work channels ≤ w.work channels := by
  rcases h.step_cases hl ht with ⟨htasks, -, -, -, hl⟩ | ⟨⟨-, -, older, p, q, -, htasks, htasks', hturn⟩, hl⟩
  · rw [hl, State.work, State.work, htasks, Nat.zero_add]
  · have hturn : 1 + q.work channels ≤ p.work channels := by
      have hnext := h.next
      cases hturn with
      | take summary left _ _ htargets =>
        have hlength := congrArg List.length htargets
        rw [targets, List.length_range, List.length_cons] at hlength
        simp only [Phase.work]
        omega
      | sent summary target left =>
        simp only [Phase.work, List.length_cons]
        omega
      | begin => simp only [hnext, Phase.work, le_refl]
      | idle => simp only [hnext, Phase.work]; omega
      | finish => simp only [hnext, Phase.work, List.length_nil, le_refl]
    rw [hl, State.work, State.work, htasks, htasks']
    simp only [List.map_append, List.sum_append, List.map_cons, List.map_nil, List.sum_cons, List.sum_nil]
    omega

lemma Inv.work_le (h : Inv channels w) : w.work channels ≤ channels + 2 := by
  by_cases hnil : w.tasks = []
  · rw [State.work, hnil]
    exact Nat.zero_le _
  · have holder : (w.tasks.dropLast.map (Phase.work channels)).sum = 0 := by
      refine List.sum_eq_zero fun n hn => ?_
      obtain ⟨p, hp, rfl⟩ := List.mem_map.mp hn
      rw [h.older p hp]
      rfl
    have hlast : (w.tasks.getLast hnil).work channels ≤ channels + 2 := by
      have hmem := List.getLast_mem hnil
      cases hp : w.tasks.getLast hnil with
      | created => simp only [Phase.work]; omega
      | sleeping => exact le_rfl
      | ended => exact Nat.zero_le _
      | sending summary left =>
        rw [hp] at hmem
        have hleft := h.left summary left hmem
        simp only [Phase.work]
        omega
    rw [State.work, ← List.dropLast_append_getLast hnil, List.map_append, List.sum_append, holder, List.map_singleton,
      List.sum_singleton, Nat.zero_add]
    exact hlast

/-- The alerts of a sleeping loop are taken when it wakes. -/
structure Flushed (channels : ℕ) (s u : State) : Prop extends Stopped channels u where
  emitted : s.emitted <+: u.emitted
  taken : .sleeping ∈ u.tasks ∨ s.emitted <+: u.batches.flatten

/-- A loop that does not sleep takes nothing more. -/
structure Kept (channels : ℕ) (s u : State) : Prop extends Stopped channels u where
  awake : .sleeping ∉ u.tasks
  batches : u.batches = s.batches

lemma step_emitted (ht : step channels w l = some t) (h : Inv channels w) : w.emitted <+: t.emitted := by
  cases l with
  | start =>
    cases ht
    rw [State.start]
    split <;> exact List.prefix_rfl
  | stop =>
    cases ht
    exact List.prefix_rfl
  | emit event =>
    cases ht
    exact List.prefix_append _ _
  | resume i =>
    have hsame := (h.resumed ht).emitted
    exact hsame ▸ List.prefix_rfl

lemma Flushed.stays (hf : Flushed channels s w) (hl : l ≠ .start) (ht : step channels w l = some t) :
    Flushed channels s t := by
  have h := hf.toStopped
  refine ⟨h.stays hl ht, hf.emitted.trans (step_emitted ht h.inv), ?_⟩
  rcases h.step_cases hl ht with ⟨htasks, hbatches, -⟩ | ⟨⟨-, -, older, p, q, holder, htasks, htasks', hturn⟩, -⟩
  · rw [htasks, hbatches]
    exact hf.taken
  · refine .inr ?_
    have hemitted := hf.emitted
    rw [h.inv.taken] at hemitted
    have htaken : p ≠ .sleeping → s.emitted <+: w.batches.flatten := by
      intro hne
      refine hf.taken.resolve_left fun hmem => ?_
      rw [htasks, List.mem_append, List.mem_singleton] at hmem
      rcases hmem with hmem | hmem
      · cases holder _ hmem
      · exact hne hmem.symm
    cases hturn with
    | idle hempty _ hbatches =>
      rw [hempty, List.append_nil] at hemitted
      rwa [hbatches]
    | take summary left _ _ _ _ hbatches => rwa [hbatches, List.flatten_append, List.flatten_singleton]
    | begin _ hbatches => exact hbatches ▸ htaken (by simp)
    | sent _ _ _ _ hbatches => exact hbatches ▸ htaken (by simp)
    | finish _ _ hbatches => exact hbatches ▸ htaken (by simp)

lemma Kept.stays (hk : Kept channels s w) (hl : l ≠ .start) (ht : step channels w l = some t) : Kept channels s t := by
  have h := hk.toStopped
  have ht' := h.stays hl ht
  rcases h.step_cases hl ht with ⟨htasks, hbatches, -⟩ | ⟨⟨-, -, older, p, q, holder, htasks, htasks', hturn⟩, -⟩
  · exact ⟨ht', htasks ▸ hk.awake, hbatches.trans hk.batches⟩
  · have hawake : ∀ {r : Phase}, r ≠ .sleeping → .sleeping ∉ older ++ [r] := by
      intro r hr hmem
      rcases List.mem_append.mp hmem with hmem | hmem
      · cases holder _ hmem
      · exact hr (List.mem_singleton.mp hmem).symm
    have hasleep := hk.awake
    have hnext := h.next
    rw [htasks] at hasleep
    cases hturn with
    | begin _ hbatches => exact ⟨ht', htasks' ▸ hawake (by simp [hnext]), hbatches.trans hk.batches⟩
    | sent _ _ _ _ hbatches => exact ⟨ht', htasks' ▸ hawake (by simp), hbatches.trans hk.batches⟩
    | finish _ _ hbatches => exact ⟨ht', htasks' ▸ hawake (by simp [hnext]), hbatches.trans hk.batches⟩
    | _ => exact absurd (List.mem_append_right older List.mem_cons_self) hasleep

lemma along_not_start (channels : ℕ) (w : State) (h : .start ∉ labels) : Along (step channels) (fun _ l => l ≠ .start) w labels := by
  refine along_of_mem ?_ w
  rintro l hl rfl
  exact h hl

/-- The state right after `stop` has set the event. -/
lemma stopped (h : Reachable (step channels) State.init s) : Stopped channels { s with stop_event := true } :=
  have hi := reachable_inv h
  ⟨⟨hi.taken, hi.nonempty, hi.older, hi.sent, hi.left⟩, rfl⟩

/-- When the loop that `stop` waits for has ended, the alerts that were there have been announced exactly
if it was asleep, or had nothing in its buffer: what comes in while it sends stays behind. -/
theorem stop_flushes_sleeping {channels : ℕ} {s t : State} {labels : List Label}
    (h : Reachable (step channels) State.init s) (ht : run (step channels) s (.stop :: labels) = some t)
    (hstart : .start ∉ labels) (hended : ∀ p ∈ t.tasks, p = .ended) :
    t.sent = announcements channels t.batches ∧
    (s.emitted <+: t.batches.flatten ↔ s.buffer = [] ∨ .sleeping ∈ s.tasks) := by
  have hi := reachable_inv h
  obtain ⟨u, hu, ht⟩ := run_cons.mp ht
  cases hu
  have hstop := stopped h
  have halong := along_not_start channels { s with stop_event := true } hstart
  have hlast := run_invariant (fun h hl ht => Stopped.stays h hl ht) hstop halong ht
  refine ⟨?_, ?_⟩
  · have hsent := hlast.inv.sent
    rwa [unsent_ended hended, List.append_nil] at hsent
  · by_cases hasleep : .sleeping ∈ s.tasks
    · simp only [hasleep, or_true, iff_true]
      have hflushed := run_invariant (fun h hl ht => Flushed.stays h hl ht) ⟨hstop, List.prefix_rfl, .inl hasleep⟩ halong ht
      refine hflushed.taken.resolve_left fun hmem => ?_
      cases hended _ hmem
    · simp only [hasleep, or_false]
      have hkept := run_invariant (fun h hl ht => Kept.stays h hl ht) ⟨hstop, hasleep, rfl⟩ halong ht
      rw [hkept.batches, hi.taken]
      constructor
      · intro hprefix
        have hle := hprefix.length_le
        rw [List.length_append] at hle
        exact List.length_eq_zero_iff.mp (Nat.le_zero.mp (Nat.le_of_add_le_add_left hle))
      · intro hempty
        simp [hempty]

theorem second_node_left_behind : ∃ t, run (step 0) whileSending [.stop, .resume 0] = some t ∧
    ¬ whileSending.emitted <+: t.batches.flatten := by
  have hs : run (step 0) State.init overlapping = some whileSending := rfl
  have ht : run (step 0) whileSending [.stop, .resume 0] = some _ := rfl
  have hended : ∀ p ∈ [Phase.ended], p = Phase.ended := List.forall_mem_singleton.mpr rfl
  have hflush := stop_flushes_sleeping ⟨overlapping, hs⟩ ht (by simp) hended
  refine ⟨_, ht, fun hprefix => ?_⟩
  rcases hflush.2.mp hprefix with hempty | hasleep
  · cases hempty
  · cases List.mem_singleton.mp hasleep

/-- `stop` returns: its loop goes on while it has not ended, and in no order of the calls does it get
over more than the awaits of one batch. -/
theorem stop_returns {channels : ℕ} {s t : State} {labels : List Label}
    (h : Reachable (step channels) State.init s) (ht : run (step channels) s (.stop :: labels) = some t)
    (hstart : .start ∉ labels) :
    (labels.map Label.resumes).sum + t.work channels ≤ channels + 2 ∧
    ∀ (i : ℕ) p, t.tasks[i]? = some p → p ≠ Phase.ended → ∃ u, step channels t (.resume i) = some u := by
  obtain ⟨u, hu, ht⟩ := run_cons.mp ht
  cases hu
  have hstop := stopped h
  have halong := along_not_start channels { s with stop_event := true } hstart
  refine ⟨?_, ?_⟩
  · have hcost := run_cost Label.resumes (State.work channels) (fun h hl ht => Stopped.stays h hl ht)
      (fun h hl ht => h.cost hl ht) hstop halong ht
    exact hcost.trans hstop.inv.work_le
  · intro i p hp hne
    cases p with
    | ended => exact absurd rfl hne
    | _ => exact ⟨_, by rw [step, hp]⟩

theorem stop_returns_after_send : ∃ t, run (step 0) whileSending [.stop, .resume 0] = some t ∧ t.work 0 ≤ 1 := by
  have hs : run (step 0) State.init overlapping = some whileSending := rfl
  have ht : run (step 0) whileSending [.stop, .resume 0] = some _ := rfl
  have hcost := (stop_returns ⟨overlapping, hs⟩ ht (by simp)).1
  exact ⟨_, ht, Nat.le_of_add_le_add_left hcost⟩

end Stop

end OpsSentry.Cluster.AlertLoop
