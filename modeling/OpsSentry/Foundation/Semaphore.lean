import Mathlib.Data.List.Perm.Basic
import Mathlib.Tactic.Common

/-! A counting semaphore with a queue of waiters, as `asyncio.Semaphore` of Python 3.12 is. A waiter is
woken first and leaves the queue when it runs again; one that is cancelled leaves it without a permit. -/

namespace OpsSentry.Foundation

/-- The waiters in their order, with whether they have been woken. -/
structure Semaphore (ι : Type) where
  value : ℕ
  waiters : List (ι × Bool)

namespace Semaphore

variable {ι : Type}

def locked (s : Semaphore ι) : Bool := s.value = 0 || !s.waiters.isEmpty

/-- `acquire` of a semaphore that is not locked. -/
def take (s : Semaphore ι) : Semaphore ι := { s with value := s.value - 1 }

def enqueue (i : ι) (s : Semaphore ι) : Semaphore ι := { s with waiters := s.waiters ++ [(i, false)] }

def wakeFirst : List (ι × Bool) → Option (List (ι × Bool))
  | [] => none
  | (i, false) :: ws => some ((i, true) :: ws)
  | (i, true) :: ws => (wakeFirst ws).map ((i, true) :: ·)

/-- `_wake_up_next`. -/
def wakeNext (s : Semaphore ι) : Semaphore ι :=
  match wakeFirst s.waiters with
  | none => s
  | some ws => ⟨s.value - 1, ws⟩

def release (s : Semaphore ι) : Semaphore ι := wakeNext { s with value := s.value + 1 }

def woken [DecidableEq ι] (i : ι) (s : Semaphore ι) : Bool := (i, true) ∈ s.waiters

/-- The end of `acquire` for a waiter that was woken. -/
def resume [DecidableEq ι] (i : ι) (s : Semaphore ι) : Semaphore ι :=
  let s := { s with waiters := s.waiters.erase (i, true) }
  if 0 < s.value then wakeNext s else s

/-- The permits that nobody holds, the ones that woken waiters are to take among them. -/
def free (s : Semaphore ι) : ℕ := s.value + s.waiters.countP (·.2)

def queue (s : Semaphore ι) : List ι := s.waiters.map Prod.fst

/-- No wake-up is lost: with a permit left, whoever waits has a woken waiter that will wake the next. -/
def Live (s : Semaphore ι) : Prop := 0 < s.value → ∀ i, (i, false) ∈ s.waiters → ∃ j, (j, true) ∈ s.waiters

variable {s : Semaphore ι} {ws vs : List (ι × Bool)} {i j : ι} {v : ℕ}

lemma wakeFirst_none (h : wakeFirst ws = none) : ∀ i, (i, false) ∉ ws := by
  induction ws with
  | nil => simp
  | cons w ws ih =>
    obtain ⟨k, b⟩ := w
    cases b with
    | false => cases h
    | true =>
      intro i hi
      rw [wakeFirst, Option.map_eq_none_iff] at h
      exact ih h i (by simpa using hi)

lemma wakeFirst_some (h : wakeFirst ws = some vs) : vs.map Prod.fst = ws.map Prod.fst ∧
    vs.countP (·.2) = ws.countP (·.2) + 1 ∧ ∃ j, (j, true) ∈ vs := by
  induction ws generalizing vs with
  | nil => cases h
  | cons w ws ih =>
    obtain ⟨k, b⟩ := w
    cases b with
    | false =>
      cases h
      simp
    | true =>
      obtain ⟨us, hus, rfl⟩ := Option.map_eq_some_iff.mp h
      obtain ⟨hfst, hcount, -⟩ := ih hus
      simp [hfst, hcount]

lemma wakeNext_spec (h : 0 < s.value) :
    s.wakeNext.queue = s.queue ∧ s.wakeNext.free = s.free ∧ s.wakeNext.Live := by
  rw [wakeNext]
  split
  · rename_i hnone
    exact ⟨rfl, rfl, fun _ i hi => absurd hi (wakeFirst_none hnone i)⟩
  · rename_i ws hsome
    obtain ⟨hfst, hcount, hwoken⟩ := wakeFirst_some hsome
    refine ⟨hfst, ?_, fun _ _ _ => hwoken⟩
    simp only [free]
    omega

section Operations

lemma woken_iff [DecidableEq ι] : s.woken i = true ↔ (i, true) ∈ s.waiters := decide_eq_true_iff

lemma locked_eq_false : s.locked = false ↔ 0 < s.value ∧ s.waiters = [] := by
  rw [locked, Bool.or_eq_false_iff, decide_eq_false_iff_not, Bool.not_eq_false', List.isEmpty_iff]
  exact and_congr_left' Nat.pos_iff_ne_zero.symm

lemma free_take (h : s.locked = false) : s.take.free + 1 = s.free := by
  have := (locked_eq_false.mp h).1
  simp only [free, take]
  omega

lemma live_take (h : s.locked = false) : s.take.Live := by
  intro _ i hi
  rw [take, (locked_eq_false.mp h).2] at hi
  cases hi

lemma free_enqueue : (s.enqueue i).free = s.free := by
  simp [free, enqueue]

lemma queue_enqueue : (s.enqueue i).queue = s.queue ++ [i] := by
  simp [queue, enqueue]

lemma live_enqueue (h : s.locked = true) (hs : s.Live) : (s.enqueue i).Live := by
  intro hpos _ _
  have hwaiters : s.waiters ≠ [] := by
    intro hnil
    have hunlocked : s.locked = false := locked_eq_false.mpr ⟨hpos, hnil⟩
    rw [h] at hunlocked
    cases hunlocked
  obtain ⟨⟨k, b⟩, hk⟩ := List.exists_mem_of_ne_nil _ hwaiters
  have hwoken : ∃ j, (j, true) ∈ s.waiters := by
    cases b with
    | true => exact ⟨k, hk⟩
    | false => exact hs hpos k hk
  obtain ⟨j, hj⟩ := hwoken
  exact ⟨j, List.mem_append_left _ hj⟩

lemma release_spec : s.release.queue = s.queue ∧ s.release.free = s.free + 1 ∧ s.release.Live := by
  obtain ⟨hqueue, hfree, hlive⟩ := wakeNext_spec (s := { s with value := s.value + 1 }) (Nat.succ_pos _)
  refine ⟨hqueue, ?_, hlive⟩
  rw [release, hfree]
  simp only [free]
  omega

lemma resume_spec [DecidableEq ι] (h : (i, true) ∈ s.waiters) : s.queue.Perm (i :: (s.resume i).queue) ∧
    (s.resume i).free + 1 = s.free ∧ (s.resume i).Live := by
  have hperm := List.perm_cons_erase h
  have hqueue : s.queue.Perm (i :: ({ s with waiters := s.waiters.erase (i, true) } : Semaphore ι).queue) :=
    hperm.map Prod.fst
  have hfree : ({ s with waiters := s.waiters.erase (i, true) } : Semaphore ι).free + 1 = s.free := by
    simp only [free, hperm.countP_eq, List.countP_cons, if_true]
    omega
  rw [resume]
  split
  · rename_i hpos
    obtain ⟨hqueue', hfree', hlive⟩ := wakeNext_spec hpos
    exact ⟨hqueue'.symm ▸ hqueue, hfree'.symm ▸ hfree, hlive⟩
  · rename_i hzero
    exact ⟨hqueue, hfree, fun hpos => absurd hpos hzero⟩

end Operations

/-! A waiter may give up. -/

/-- `acquire` in a task that is cancelled: one that was woken passes its permit on. A cancelled waiter
that was not woken counts as gone from the moment of the cancellation. -/
def withdraw [DecidableEq ι] (i : ι) (s : Semaphore ι) : Semaphore ι :=
  if s.woken i then release { s with waiters := s.waiters.erase (i, true) }
  else { s with waiters := s.waiters.erase (i, false) }

lemma withdraw_spec [DecidableEq ι] (h : i ∈ s.queue) (hs : s.Live) : s.queue.Perm (i :: (s.withdraw i).queue) ∧
    (s.withdraw i).free = s.free ∧ (s.withdraw i).Live := by
  rw [withdraw]
  split
  · rename_i hwoken
    have hperm := List.perm_cons_erase (woken_iff.mp hwoken)
    obtain ⟨hqueue, hfree, hlive⟩ := release_spec (s := { s with waiters := s.waiters.erase (i, true) })
    refine ⟨hqueue ▸ hperm.map Prod.fst, ?_, hlive⟩
    rw [hfree]
    simp only [free, hperm.countP_eq, List.countP_cons, if_true]
    omega
  · rename_i hasleep
    have hmem : (i, false) ∈ s.waiters := by
      obtain ⟨⟨k, b⟩, hk, rfl⟩ := List.mem_map.mp h
      cases b with
      | false => exact hk
      | true => exact absurd (woken_iff.mpr hk) hasleep
    have hperm := List.perm_cons_erase hmem
    refine ⟨hperm.map Prod.fst, ?_, fun hpos j hj => ?_⟩
    · simp only [free, hperm.countP_eq, List.countP_cons, Bool.false_eq_true, if_false, Nat.add_zero]
    · obtain ⟨k, hk⟩ := hs hpos j (List.mem_of_mem_erase hj)
      exact ⟨k, (List.mem_erase_of_ne (by simp)).mpr hk⟩

/-! Permits are given in the order of the queue. -/

section Order

variable {r : ι → ι → Prop}

/-- The waiters stand in the order `r`, the woken ones before the others. -/
def Ordered (r : ι → ι → Prop) (s : Semaphore ι) : Prop :=
  s.waiters.Pairwise fun v w => r v.1 w.1 ∧ (w.2 = true → v.2 = true)

lemma Ordered.queue (h : s.Ordered r) : s.queue.Pairwise r := List.pairwise_map.mpr (h.imp And.left)

lemma Ordered.before (h : s.Ordered r) (hi : (i, true) ∈ s.waiters) (hj : (j, false) ∈ s.waiters) : r i j := by
  obtain ⟨xs, ys, hsplit⟩ := List.append_of_mem hi
  rw [Ordered, hsplit, List.pairwise_append, List.pairwise_cons] at h
  rw [hsplit, List.mem_append, List.mem_cons] at hj
  rcases hj with hj | hj | hj
  · -- The woken waiter is the later one of the two.
    have hwoken := (h.2.2 _ hj _ List.mem_cons_self).2 rfl
    cases hwoken
  · cases hj
  · exact (h.2.1.1 _ hj).1

lemma wakeFirst_ordered (h : wakeFirst ws = some vs)
    (hws : ws.Pairwise fun v w => r v.1 w.1 ∧ (w.2 = true → v.2 = true)) :
    vs.Pairwise fun v w => r v.1 w.1 ∧ (w.2 = true → v.2 = true) := by
  induction ws generalizing vs with
  | nil => cases h
  | cons w ws ih =>
    obtain ⟨k, b⟩ := w
    rw [List.pairwise_cons] at hws
    cases b with
    | false =>
      cases h
      exact List.pairwise_cons.mpr ⟨fun w hw => ⟨(hws.1 w hw).1, fun _ => rfl⟩, hws.2⟩
    | true =>
      obtain ⟨us, hus, rfl⟩ := Option.map_eq_some_iff.mp h
      have hfst := (wakeFirst_some hus).1
      refine List.pairwise_cons.mpr ⟨fun u hu => ⟨?_, fun _ => rfl⟩, ih hus hws.2⟩
      obtain ⟨v, hv, heq⟩ := List.mem_map.mp (hfst ▸ List.mem_map_of_mem (f := Prod.fst) hu)
      rw [← heq]
      exact (hws.1 v hv).1

lemma asleep_of_wakeFirst (h : wakeFirst ws = some vs) (hi : (i, false) ∈ vs) : (i, false) ∈ ws := by
  induction ws generalizing vs with
  | nil => cases h
  | cons w ws ih =>
    obtain ⟨k, b⟩ := w
    cases b with
    | false =>
      cases h
      rcases List.mem_cons.mp hi with hi | hi
      · cases hi
      · exact List.mem_cons_of_mem _ hi
    | true =>
      obtain ⟨us, hus, rfl⟩ := Option.map_eq_some_iff.mp h
      rcases List.mem_cons.mp hi with hi | hi
      · cases hi
      · exact List.mem_cons_of_mem _ (ih hus hi)

lemma Ordered.wakeNext (h : s.Ordered r) : s.wakeNext.Ordered r := by
  rw [Semaphore.wakeNext]
  split
  · exact h
  · rename_i hsome
    exact wakeFirst_ordered hsome h

lemma asleep_of_wakeNext (h : (i, false) ∈ s.wakeNext.waiters) : (i, false) ∈ s.waiters := by
  rw [wakeNext] at h
  split at h
  · exact h
  · rename_i hsome
    exact asleep_of_wakeFirst hsome h

lemma Ordered.enqueue (h : s.Ordered r) (hi : ∀ j ∈ s.queue, r j i) : (s.enqueue i).Ordered r := by
  refine List.pairwise_append.mpr ⟨h, List.pairwise_singleton _ _, fun v hv w hw => ?_⟩
  obtain rfl := List.mem_singleton.mp hw
  exact ⟨hi v.1 (List.mem_map_of_mem hv), fun hwoken => by cases hwoken⟩

lemma Ordered.release (h : s.Ordered r) : s.release.Ordered r :=
  Ordered.wakeNext (s := { s with value := s.value + 1 }) h

lemma asleep_of_release (h : (i, false) ∈ s.release.waiters) : (i, false) ∈ s.waiters :=
  asleep_of_wakeNext (s := { s with value := s.value + 1 }) h

variable [DecidableEq ι]

lemma Ordered.erase (h : s.Ordered r) (w : ι × Bool) : Ordered r { s with waiters := s.waiters.erase w } :=
  h.sublist List.erase_sublist

lemma Ordered.resume (h : s.Ordered r) : (s.resume i).Ordered r := by
  rw [Semaphore.resume]
  split
  · exact (h.erase (i, true)).wakeNext
  · exact h.erase (i, true)

lemma asleep_of_resume (h : (j, false) ∈ (s.resume i).waiters) : (j, false) ∈ s.waiters := by
  rw [resume] at h
  split at h
  · exact List.mem_of_mem_erase (asleep_of_wakeNext h)
  · exact List.mem_of_mem_erase h

lemma Ordered.withdraw (h : s.Ordered r) : (s.withdraw i).Ordered r := by
  rw [Semaphore.withdraw]
  split
  · exact (h.erase (i, true)).release
  · exact h.erase (i, false)

lemma asleep_of_withdraw (h : (j, false) ∈ (s.withdraw i).waiters) : (j, false) ∈ s.waiters := by
  rw [withdraw] at h
  split at h
  · exact List.mem_of_mem_erase (asleep_of_release h)
  · exact List.mem_of_mem_erase h

end Order

end Semaphore

end OpsSentry.Foundation
