import OpsSentry.Foundation.Runs
import OpsSentry.Foundation.Semaphore
import Mathlib.Algebra.BigOperators.Group.List.Basic

/-! `BoundedSandboxProvider` of `sandbox.py`: calls of `execute` that share one semaphore, any of which
may be cancelled where it waits. -/

namespace OpsSentry.Tools.SandboxPool

open Foundation Foundation.Runs

/-- A call of `execute`; `O` is what the inner provider may return or raise, a cancellation included. -/
inductive Stage (O : Type)
  | waiting
  | executing
  | ended (outcome : O)
  | withdrawn

/-- The calls by the order in which they were made. -/
structure State (O : Type) where
  semaphore : Semaphore ℕ
  calls : List (Stage O)

inductive Label (O : Type)
  | execute
  | acquired (i : ℕ)
  | cancel (i : ℕ)
  | finish (i : ℕ) (outcome : O)

variable {O : Type}

def State.start (max_concurrency : ℕ) : State O := ⟨⟨max_concurrency, []⟩, []⟩

/-- The inner `execute` begins as soon as the permit is there, and whatever its end is releases it. -/
def step (s : State O) : Label O → Option (State O)
  | .execute =>
    if s.semaphore.locked then some ⟨s.semaphore.enqueue s.calls.length, s.calls ++ [.waiting]⟩
    else some ⟨s.semaphore.take, s.calls ++ [.executing]⟩
  | .acquired i =>
    if s.semaphore.woken i then some ⟨s.semaphore.resume i, s.calls.set i .executing⟩ else none
  | .cancel i =>
    match s.calls[i]? with
    | some .waiting => some ⟨s.semaphore.withdraw i, s.calls.set i .withdrawn⟩
    | _ => none
  | .finish i outcome =>
    match s.calls[i]? with
    | some .executing => some ⟨s.semaphore.release, s.calls.set i (.ended outcome)⟩
    | _ => none

namespace Stage

def isWaiting : Stage O → Bool
  | .waiting => true
  | _ => false

def isExecuting : Stage O → Bool
  | .executing => true
  | _ => false

/-- Has been given a permit and taken it. -/
def admitted : Stage O → Bool
  | .executing | .ended _ => true
  | _ => false

/-- The events that a call has yet to meet. -/
def work : Stage O → ℕ
  | .waiting => 2
  | .executing => 1
  | _ => 0

end Stage

def State.executing (s : State O) : ℕ := s.calls.countP Stage.isExecuting

/-- Nobody who was not woken has been overtaken. -/
structure Inv (max_concurrency : ℕ) (s : State O) : Prop where
  permits : s.executing + s.semaphore.free = max_concurrency
  live : s.semaphore.Live
  queued : ∀ i, i ∈ s.semaphore.queue ↔ ∃ c, s.calls[i]? = some c ∧ c.isWaiting = true
  ordered : s.semaphore.Ordered (· < ·)
  ahead : ∀ i, (i, false) ∈ s.semaphore.waiters → ∀ (j : ℕ) c, s.calls[j]? = some c → c.admitted = true → j < i

section Step

variable {max_concurrency i j : ℕ} {s t : State O} {c d : Stage O} {outcome : O} {l : Label O}

lemma Inv.nodup (h : Inv max_concurrency s) : s.semaphore.queue.Nodup :=
  h.ordered.queue.imp fun hlt => Nat.ne_of_lt hlt

lemma Inv.lt (h : Inv max_concurrency s) (hi : i ∈ s.semaphore.queue) : i < s.calls.length := by
  obtain ⟨c, hc, -⟩ := (h.queued i).mp hi
  exact (List.getElem?_eq_some_iff.mp hc).1

/-- The stages after one call has moved. -/
lemma getElem?_set (hi : s.calls[i]? = some c) (j : ℕ) :
    (s.calls.set i d)[j]? = if j = i then some d else s.calls[j]? := by
  by_cases hj : j = i
  · subst hj
    rw [if_pos rfl, List.getElem?_set_self (List.getElem?_eq_some_iff.mp hi).1]
  · rw [if_neg hj, List.getElem?_set_ne (Ne.symm hj)]

lemma executing_set (hi : s.calls[i]? = some c) : (s.calls.set i d).countP Stage.isExecuting + c.isExecuting.toNat =
    s.executing + d.isExecuting.toNat := by
  obtain ⟨hlt, rfl⟩ := List.getElem?_eq_some_iff.mp hi
  rw [State.executing, List.set_eq_take_append_cons_drop, if_pos hlt]
  conv_rhs => rw [← List.take_append_drop i s.calls, List.drop_eq_getElem_cons hlt]
  simp only [List.countP_append, List.countP_cons]
  cases s.calls[i].isExecuting <;> cases d.isExecuting <;> simp <;> omega

/-- A call that leaves the queue. -/
lemma queued_leave (h : Inv max_concurrency s) (hi : s.calls[i]? = some .waiting) (hd : d.isWaiting = false)
    {semaphore : Semaphore ℕ} (hperm : s.semaphore.queue.Perm (i :: semaphore.queue)) (j : ℕ) :
    j ∈ semaphore.queue ↔ ∃ c, (s.calls.set i d)[j]? = some c ∧ c.isWaiting = true := by
  have hnodup := hperm.nodup_iff.mp h.nodup
  rw [List.nodup_cons] at hnodup
  rw [getElem?_set hi]
  by_cases hj : j = i
  · subst hj
    simp [hnodup.1, hd]
  · rw [if_neg hj, ← h.queued, hperm.mem_iff, List.mem_cons, or_iff_right hj]

lemma Inv.unwoken (h : Inv max_concurrency s) (i : ℕ) (hasleep : (i, false) ∈ s.semaphore.waiters) :
    (∃ j, (j, true) ∈ s.semaphore.waiters) ∨ s.executing = max_concurrency := by
  have hpermits := h.permits
  by_cases hpos : 0 < s.semaphore.value
  · exact .inl (h.live hpos i hasleep)
  · by_cases hwoken : ∃ j, (j, true) ∈ s.semaphore.waiters
    · exact .inl hwoken
    · have hnone : s.semaphore.waiters.countP (·.2) = 0 := by
        rw [List.countP_eq_zero]
        rintro ⟨j, b⟩ hj hb
        obtain rfl : b = true := hb
        exact hwoken ⟨j, hj⟩
      rw [Semaphore.free, hnone] at hpermits
      exact .inr (by omega)

lemma inv_start : Inv max_concurrency (State.start max_concurrency : State O) where
  permits := Nat.zero_add _
  live _ i h := by cases h
  queued i := by simp [State.start, Semaphore.queue]
  ordered := List.Pairwise.nil
  ahead i h := by cases h

lemma getElem?_concat (c : Stage O) (j : ℕ) :
    (s.calls ++ [c])[j]? = if j = s.calls.length then some c else s.calls[j]? := by
  rcases Nat.lt_trichotomy j s.calls.length with hlt | heq | hgt
  · rw [if_neg (Nat.ne_of_lt hlt), List.getElem?_append_left hlt]
  · rw [if_pos heq, heq, List.getElem?_concat_length]
  · rw [if_neg (Nat.ne_of_gt hgt), List.getElem?_eq_none (Nat.le_of_lt hgt), List.getElem?_eq_none]
    rw [List.length_append]
    exact hgt

lemma Inv.enter (h : Inv max_concurrency s) (hlocked : s.semaphore.locked = false) :
    Inv max_concurrency ⟨s.semaphore.take, s.calls ++ [.executing]⟩ := by
  have hempty := (Semaphore.locked_eq_false.mp hlocked).2
  have hpermits := h.permits
  have hfree := Semaphore.free_take hlocked
  refine ⟨?_, Semaphore.live_take hlocked, fun j => ?_, h.ordered, fun j hj => ?_⟩
  · have hcount : (s.calls ++ [Stage.executing]).countP Stage.isExecuting = s.executing + 1 := by
      simp [State.executing, Stage.isExecuting]
    rw [State.executing]
    dsimp only
    omega
  · change j ∈ s.semaphore.queue ↔ _
    rw [h.queued, getElem?_concat]
    by_cases hj : j = s.calls.length
    · simp [hj, Stage.isWaiting]
    · rw [if_neg hj]
  · rw [Semaphore.take, hempty] at hj
    cases hj

lemma Inv.wait (h : Inv max_concurrency s) (hlocked : s.semaphore.locked = true) :
    Inv max_concurrency ⟨s.semaphore.enqueue s.calls.length, s.calls ++ [.waiting]⟩ := by
  have hpermits := h.permits
  refine ⟨?_, Semaphore.live_enqueue hlocked h.live, fun j => ?_, h.ordered.enqueue fun j hj => h.lt hj, ?_⟩
  · rw [Semaphore.free_enqueue, ← hpermits]
    simp [State.executing, Stage.isExecuting]
  · rw [Semaphore.queue_enqueue, List.mem_append, List.mem_singleton, h.queued, getElem?_concat]
    by_cases hj : j = s.calls.length
    · simp [hj, Stage.isWaiting]
    · rw [if_neg hj, or_iff_left hj]
  · intro k hk j c hc hadmitted
    rw [getElem?_concat] at hc
    split at hc
    · cases hc
      cases hadmitted
    · rcases List.mem_append.mp hk with hk | hk
      · exact h.ahead k hk j c hc hadmitted
      · cases List.mem_singleton.mp hk
        exact (List.getElem?_eq_some_iff.mp hc).1

lemma Inv.resume (h : Inv max_concurrency s) (hi : (i, true) ∈ s.semaphore.waiters) :
    Inv max_concurrency ⟨s.semaphore.resume i, s.calls.set i .executing⟩ := by
  obtain ⟨hperm, hfree, hlive⟩ := Semaphore.resume_spec hi
  obtain ⟨c, hc, hwaiting⟩ := (h.queued i).mp (List.mem_map_of_mem (f := Prod.fst) hi)
  obtain rfl : c = .waiting := by
    cases c with
    | waiting => rfl
    | _ => cases hwaiting
  have hpermits := h.permits
  have hcount := executing_set (d := .executing) hc
  refine ⟨?_, hlive, queued_leave h hc rfl hperm, h.ordered.resume, fun k hk j c hj hadmitted => ?_⟩
  · simp only [Stage.isExecuting, Bool.toNat_false, Bool.toNat_true] at hcount
    rw [State.executing]
    dsimp only
    omega
  · have hk := Semaphore.asleep_of_resume hk
    rw [getElem?_set hc] at hj
    split at hj
    · rename_i heq
      exact heq ▸ h.ordered.before hi hk
    · exact h.ahead k hk j c hj hadmitted

lemma Inv.withdraw (h : Inv max_concurrency s) (hi : s.calls[i]? = some .waiting) :
    Inv max_concurrency ⟨s.semaphore.withdraw i, s.calls.set i .withdrawn⟩ := by
  have hqueue : i ∈ s.semaphore.queue := (h.queued i).mpr ⟨_, hi, rfl⟩
  obtain ⟨hperm, hfree, hlive⟩ := Semaphore.withdraw_spec hqueue h.live
  have hpermits := h.permits
  have hcount := executing_set (d := .withdrawn) hi
  refine ⟨?_, hlive, queued_leave h hi rfl hperm, h.ordered.withdraw, fun k hk j c hj hadmitted => ?_⟩
  · simp only [Stage.isExecuting, Bool.toNat_false] at hcount
    rw [State.executing]
    dsimp only
    omega
  · rw [getElem?_set hi] at hj
    split at hj
    · cases hj
      cases hadmitted
    · exact h.ahead k (Semaphore.asleep_of_withdraw hk) j c hj hadmitted

lemma Inv.finish (h : Inv max_concurrency s) (hi : s.calls[i]? = some .executing) :
    Inv max_concurrency ⟨s.semaphore.release, s.calls.set i (.ended outcome)⟩ := by
  obtain ⟨hqueue, hfree, hlive⟩ := Semaphore.release_spec (s := s.semaphore)
  have hpermits := h.permits
  have hcount := executing_set (d := .ended outcome) hi
  refine ⟨?_, hlive, fun j => ?_, h.ordered.release, fun k hk j c hj hadmitted => ?_⟩
  · simp only [Stage.isExecuting, Bool.toNat_false, Bool.toNat_true] at hcount
    rw [State.executing]
    dsimp only
    omega
  · rw [hqueue, h.queued, getElem?_set hi]
    by_cases hj : j = i
    · subst hj
      simp [hi, Stage.isWaiting]
    · rw [if_neg hj]
  · have hk := Semaphore.asleep_of_release hk
    rw [getElem?_set hi] at hj
    split at hj
    · rename_i heq
      exact heq ▸ h.ahead k hk i _ hi rfl
    · exact h.ahead k hk j c hj hadmitted

lemma step_inv (h : Inv max_concurrency s) (ht : step s l = some t) : Inv max_concurrency t := by
  cases l with
  | execute =>
    rw [step] at ht
    split at ht <;> cases ht
    · rename_i hlocked
      exact h.wait hlocked
    · rename_i hunlocked
      exact h.enter (Bool.eq_false_iff.mpr hunlocked)
  | acquired i =>
    rw [step] at ht
    split at ht <;> cases ht
    rename_i hwoken
    exact h.resume (Semaphore.woken_iff.mp hwoken)
  | cancel i =>
    rw [step] at ht
    split at ht <;> cases ht
    rename_i hwaiting
    exact h.withdraw hwaiting
  | finish i outcome =>
    rw [step] at ht
    split at ht <;> cases ht
    rename_i hexecuting
    exact h.finish hexecuting

lemma reachable_inv (h : Reachable step (State.start max_concurrency) s) : Inv max_concurrency s :=
  reachable_invariant step_inv inv_start h

end Step

/-- In every order of calls, wake-ups, cancellations and ends no more than `max_concurrency` calls are
inside the inner provider; nobody who has not been woken is overtaken by a later call; who waits unwoken
has a woken call before it or finds every permit in use; and in the end all permits are back. -/
theorem pool_bounded {max_concurrency : ℕ} {s : State O} (h : Reachable step (State.start max_concurrency) s) :
    s.executing ≤ max_concurrency ∧
    (∀ i j c, i < j → (i, false) ∈ s.semaphore.waiters → s.calls[j]? = some c → c.admitted = false ∧
      (j, true) ∉ s.semaphore.waiters) ∧
    (∀ i, (i, false) ∈ s.semaphore.waiters → (∃ j, (j, true) ∈ s.semaphore.waiters) ∨ s.executing = max_concurrency) ∧
    ((∀ c ∈ s.calls, c.work = 0) → s.semaphore = ⟨max_concurrency, []⟩) := by
  have hi := reachable_inv h
  have hpermits := hi.permits
  refine ⟨by omega, fun i j c hlt hasleep hj => ⟨?_, fun hwoken => ?_⟩, fun i hasleep => ?_, fun hdone => ?_⟩
  · rw [Bool.eq_false_iff]
    intro hadmitted
    have := hi.ahead i hasleep j c hj hadmitted
    omega
  · have := hi.ordered.before hwoken hasleep
    omega
  · exact hi.unwoken i hasleep
  · have hempty : s.semaphore.waiters = [] := by
      rw [List.eq_nil_iff_forall_not_mem]
      rintro ⟨j, b⟩ hj
      obtain ⟨c, hc, hwaiting⟩ := (hi.queued j).mp (List.mem_map_of_mem (f := Prod.fst) hj)
      have hwork := hdone c (List.mem_of_getElem? hc)
      cases c with
      | waiting => cases hwork
      | _ => cases hwaiting
    have hexecuting : s.executing = 0 := by
      rw [State.executing, List.countP_eq_zero]
      intro c hc hexecuting
      have hwork := hdone c hc
      cases c with
      | executing => cases hwork
      | _ => cases hexecuting
    rw [hexecuting, Semaphore.free, hempty, List.countP_nil] at hpermits
    cases hs : s.semaphore with
    | mk value waiters =>
      rw [hs] at hempty hpermits
      obtain rfl : waiters = [] := hempty
      rw [← hpermits, Nat.zero_add, Nat.add_zero]

/-- Three calls for one permit; the second is cancelled after it has been woken. -/
def queueing : List (Label ℤ) := [.execute, .execute, .execute, .finish 0 0, .cancel 1]

theorem third_call_woken : ∃ s, run step (State.start 1) queueing = some s ∧ s.semaphore.waiters = [(2, true)] ∧
    s.executing ≤ 1 := by
  have hs : run step (State.start 1) queueing = some _ := rfl
  exact ⟨_, hs, rfl, (pool_bounded ⟨queueing, hs⟩).1⟩

section Progress

variable {max_concurrency : ℕ} {s t : State O} {l : Label O}

def Label.isCall : Label O → Bool
  | .execute => true
  | _ => false

def State.work (s : State O) : ℕ := (s.calls.map Stage.work).sum

lemma work_set {i : ℕ} {c d : Stage O} (hi : s.calls[i]? = some c) :
    ((s.calls.set i d).map Stage.work).sum + c.work = s.work + d.work := by
  obtain ⟨hlt, rfl⟩ := List.getElem?_eq_some_iff.mp hi
  rw [State.work, List.set_eq_take_append_cons_drop, if_pos hlt]
  conv_rhs => rw [← List.take_append_drop i s.calls, List.drop_eq_getElem_cons hlt]
  simp only [List.map_append, List.map_cons, List.sum_append, List.sum_cons]
  omega

lemma step_work (h : Inv max_concurrency s) (hl : l.isCall = false) (ht : step s l = some t) : 1 + t.work ≤ s.work := by
  cases l with
  | execute => cases hl
  | acquired i =>
    rw [step] at ht
    split at ht <;> cases ht
    rename_i hwoken
    obtain ⟨c, hc, hwaiting⟩ := (h.queued i).mp (List.mem_map_of_mem (f := Prod.fst) (Semaphore.woken_iff.mp hwoken))
    obtain rfl : c = .waiting := by
      cases c with
      | waiting => rfl
      | _ => cases hwaiting
    have hwork := work_set (d := .executing) hc
    change 1 + ((s.calls.set i _).map Stage.work).sum ≤ s.work
    simp only [Stage.work] at hwork
    omega
  | cancel i =>
    rw [step] at ht
    split at ht <;> cases ht
    rename_i hwaiting
    have hwork := work_set (d := .withdrawn) hwaiting
    change 1 + ((s.calls.set i _).map Stage.work).sum ≤ s.work
    simp only [Stage.work] at hwork
    omega
  | finish i outcome =>
    rw [step] at ht
    split at ht <;> cases ht
    rename_i hexecuting
    have hwork := work_set (d := .ended outcome) hexecuting
    change 1 + ((s.calls.set i _).map Stage.work).sum ≤ s.work
    simp only [Stage.work] at hwork
    omega

end Progress

/-- With room for one call, whatever happens between the calls that are there ends after two events for
each of them at most, and until then one of them can go on, without any cancellation, as soon as an inner
call has its end. -/
theorem pool_completes {max_concurrency : ℕ} {s t : State O} {labels : List (Label O)} (outcome : O)
    (hmax : 0 < max_concurrency) (h : Reachable step (State.start max_concurrency) s) (ht : run step s labels = some t)
    (hcalls : ∀ l ∈ labels, l.isCall = false) :
    labels.length + t.work ≤ s.work ∧
    ((∃ c ∈ t.calls, c.work ≠ 0) → ∃ i, (∃ u, step t (.acquired i) = some u) ∨ ∃ u, step t (.finish i outcome) = some u) := by
  have hs := reachable_inv h
  have halong : Along step (fun _ l => l.isCall = false) s labels := along_of_mem hcalls s
  have hcost := run_cost (fun _ => 1) State.work (fun h _ ht => step_inv h ht) (fun h hl ht => step_work h hl ht) hs halong ht
  rw [List.map_const', List.sum_replicate_nat, Nat.mul_one] at hcost
  refine ⟨hcost, ?_⟩
  rintro ⟨c, hc, hwork⟩
  obtain ⟨as, has⟩ := h
  have ht := reachable_inv ⟨as ++ labels, run_append.mpr ⟨s, has, ht⟩⟩
  by_cases hwoken : ∃ i, (i, true) ∈ t.semaphore.waiters
  · obtain ⟨i, hwoken⟩ := hwoken
    exact ⟨i, .inl ⟨_, by rw [step, if_pos (Semaphore.woken_iff.mpr hwoken)]⟩⟩
  · have hexecuting : 0 < t.executing := by
      cases c with
      | executing => exact List.countP_pos_iff.mpr ⟨_, hc, rfl⟩
      | waiting =>
        obtain ⟨i, hi⟩ := List.mem_iff_getElem?.mp hc
        obtain ⟨⟨k, b⟩, hk, rfl⟩ := List.mem_map.mp ((ht.queued i).mpr ⟨_, hi, rfl⟩)
        cases b with
        | true => exact absurd ⟨k, hk⟩ hwoken
        | false =>
          rcases ht.unwoken k hk with hsome | hall
          · exact absurd hsome hwoken
          · omega
      | _ => exact absurd rfl hwork
    obtain ⟨d, hd, hd'⟩ := List.countP_pos_iff.mp hexecuting
    obtain ⟨i, hi⟩ := List.mem_iff_getElem?.mp hd
    cases d with
    | executing => exact ⟨i, .inr ⟨_, by rw [step, hi]⟩⟩
    | _ => cases hd'

theorem third_call_goes_on : ∃ s t, run step (State.start 1) queueing = some s ∧ run step s [.acquired 2] = some t ∧
    ∃ i, (∃ u, step t (.acquired i) = some u) ∨ ∃ u, step t (.finish i (124 : ℤ)) = some u := by
  have ht : run step (State.start 1) (queueing ++ [.acquired 2]) = some _ := rfl
  obtain ⟨s, hs, ht⟩ := run_append.mp ht
  have hcalls : ∀ l ∈ [(Label.acquired 2 : Label ℤ)], l.isCall = false := by simp [Label.isCall]
  refine ⟨s, _, hs, ht, (pool_completes 124 Nat.one_pos ⟨queueing, hs⟩ ht hcalls).2 ?_⟩
  have hmem : Stage.executing ∈ [Stage.ended (0 : ℤ), .withdrawn, .executing] := by simp
  exact ⟨.executing, hmem, by simp [Stage.work]⟩

end OpsSentry.Tools.SandboxPool
