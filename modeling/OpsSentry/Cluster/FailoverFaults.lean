import OpsSentry.Cluster.Failover

/-! One failover, run alone, when its calls of Redis start to fail at some point. -/

namespace OpsSentry.Cluster.Failover

open Foundation.Dicts Foundation.Programs

namespace Faults

/-- The calls of a manager, the `i`-th with the delivery `deliveries i`. -/
def delivering (m : ℕ) (deliveries : ℕ → Delivery) (i : ℕ) (w : World) (c : Command) : Option (World × Reply c) :=
  exec (.manager m) (deliveries i) w c

/-- The first `k` calls are answered, and no later one; whether a pipeline among these is applied. -/
def failingFrom (k : ℕ) (applied : Bool) (i : ℕ) : Delivery :=
  if i < k then .done else if applied then .unreported else .lost

def tasksOf (d : NodeId) (w : World) : List TaskId := (w.registry.items.filter fun p => p.2 = d).map Prod.fst

def removeAll (w : World) (m : ℕ) (tids : List TaskId) : World := tids.foldl (fun w tid => w.remove m tid) w

def noticeOf (w : World) (m : ℕ) (tid : TaskId) : Notice := ⟨tid, w.assignments tid, m, w.calls m⟩

/-- What a failover of `d` that has returned `value` has removed, in one pipeline for each task. -/
structure Removes (d : NodeId) (m : ℕ) (w v : World) (removed : List TaskId) : Prop where
  nodup : removed.Nodup
  tasks : ∀ tid ∈ removed, tid ∈ tasksOf d w
  registry : ∀ tid, v.registry.get? tid = if tid ∈ removed then none else w.registry.get? tid
  locks : ∀ tid, v.lock tid = if tid ∈ removed then none else w.lock tid
  published : v.notices = w.notices ++ removed.map (noticeOf w m)

/-- A retry that meets no failure returns the number of the tasks that are left, and leaves none. -/
def Retried (d : NodeId) (m : ℕ) (v : World) : Prop :=
  ∃ u, (performFailover d).alone (delivering m fun _ => .done) 0 v = some (u, .ok (tasksOf d v).length) ∧
    tasksOf d u = []

structure Accounted (d : NodeId) (m : ℕ) (w v : World) (value : ℕ) : Prop where
  counted : ∃ removed, Removes d m w v removed ∧ value = removed.length
  retried : Retried d m v

variable {d : NodeId} {m i : ℕ} {deliveries : ℕ → Delivery} {w v : World} {tid : TaskId}
  {tids : List TaskId}

lemma mem_tasksOf : tid ∈ tasksOf d w ↔ w.registry.get? tid = some d := by
  rw [OrderedDict.get?_eq_some_iff, tasksOf, List.mem_map]
  constructor
  · rintro ⟨p, hp, rfl⟩
    obtain ⟨hp, hd⟩ := List.mem_filter.mp hp
    exact of_decide_eq_true hd ▸ hp
  · intro h
    exact ⟨(tid, d), List.mem_filter.mpr ⟨h, decide_eq_true rfl⟩, rfl⟩

lemma nodup_tasksOf (d : NodeId) (w : World) : (tasksOf d w).Nodup :=
  w.registry.nodup.sublist (List.filter_sublist.map _)

section RemoveAll

lemma removeAll_cons : removeAll w m (tid :: tids) = removeAll (w.remove m tid) m tids := rfl

lemma removeAll_get? (j : TaskId) :
    (removeAll w m tids).registry.get? j = if j ∈ tids then none else w.registry.get? j := by
  induction tids generalizing w with
  | nil => rfl
  | cons tid tids ih =>
    rw [removeAll_cons, ih, World.remove_get?]
    by_cases hj : j = tid <;> by_cases hmem : j ∈ tids <;> simp [hj, hmem]

lemma removeAll_lock (j : TaskId) : (removeAll w m tids).lock j = if j ∈ tids then none else w.lock j := by
  induction tids generalizing w with
  | nil => rfl
  | cons tid tids ih =>
    rw [removeAll_cons, ih, World.remove_lock]
    by_cases hj : j = tid <;> by_cases hmem : j ∈ tids <;> simp [hj, hmem]

lemma removeAll_notices : (removeAll w m tids).notices = w.notices ++ tids.map (noticeOf w m) := by
  induction tids generalizing w with
  | nil => exact (List.append_nil _).symm
  | cons tid tids ih =>
    have hnotice : noticeOf (w.remove m tid) m = noticeOf w m := rfl
    rw [removeAll_cons, ih, hnotice, List.map_cons, List.append_cons]
    rfl

lemma removes_removeAll (hnodup : tids.Nodup) (htasks : ∀ tid ∈ tids, tid ∈ tasksOf d w) :
    Removes d m w (removeAll (w.readAll m) m tids) tids :=
  ⟨hnodup, htasks, removeAll_get?, removeAll_lock, removeAll_notices⟩

lemma Removes.unique {removed tids : List TaskId} (h : Removes d m w v removed)
    (h' : Removes d m w v tids) :
    removed.length = tids.length := by
  have hmem : ∀ tid, tid ∈ removed ↔ tid ∈ tids := by
    have hnone : ∀ {xs}, Removes d m w v xs → ∀ tid, tid ∈ xs ↔ tid ∈ tasksOf d w ∧ v.registry.get? tid = none := by
      intro xs hx tid
      rw [hx.registry]
      refine ⟨fun hin => ⟨hx.tasks tid hin, if_pos hin⟩, ?_⟩
      rintro ⟨htask, hget⟩
      by_contra hout
      rw [if_neg hout, mem_tasksOf.mp htask] at hget
      cases hget
    intro tid
    rw [hnone h, hnone h']
  exact ((List.perm_ext_iff_of_nodup h.nodup h'.nodup).mpr hmem).length_eq

end RemoveAll

section Calls

lemma shifted (deliveries : ℕ → Delivery) (i j : ℕ) :
    deliveries (i + 1 + j) = deliveries (i + (j + 1)) := by
  rw [Nat.add_assoc, Nat.add_comm 1 j]

/-- Every pipeline is answered. -/
lemma reclaim_done (h : ∀ j < tids.length, deliveries (i + j) = .done) (n : ℕ) :
    (reclaim d tids n).alone (delivering m deliveries) i w = some (removeAll w m tids, .ok (n + tids.length)) := by
  induction tids generalizing i w n with
  | nil => rfl
  | cons tid tids ih =>
    have hfirst : deliveries i = .done := h 0 (by simp)
    have hrest : ∀ j < tids.length, deliveries (i + 1 + j) = .done := by
      intro j hj
      rw [shifted deliveries]
      exact h (j + 1) (Nat.succ_lt_succ hj)
    change (exec (.manager m) (deliveries i) w (.pipeline ⟨tid, d⟩)).bind _ = _
    rw [hfirst]
    change (reclaim d tids (n + 1)).alone (delivering m deliveries) (i + 1) (w.remove m tid) = _
    rw [ih hrest, removeAll_cons, List.length_cons, Nat.add_right_comm, Nat.add_assoc n]

/-- The `j`-th pipeline is the first that is not answered. -/
lemma reclaim_fails {j : ℕ} (hj : j < tids.length) (hdone : ∀ l < j, deliveries (i + l) = .done)
    {applied : Bool} (hfail : deliveries (i + j) = if applied then .unreported else .lost) (n : ℕ) :
    (reclaim d tids n).alone (delivering m deliveries) i w =
      some (removeAll w m (tids.take (j + applied.toNat)), .error .redis) := by
  induction tids generalizing i w n j with
  | nil => cases hj
  | cons tid tids ih =>
    change (exec (.manager m) (deliveries i) w (.pipeline ⟨tid, d⟩)).bind _ = _
    cases j with
    | zero =>
      rw [Nat.add_zero] at hfail
      rw [hfail]
      cases applied <;> rfl
    | succ j =>
      have hfirst : deliveries i = .done := hdone 0 (Nat.succ_pos j)
      have hrest : ∀ l < j, deliveries (i + 1 + l) = .done := by
        intro l hl
        rw [shifted deliveries]
        exact hdone (l + 1) (Nat.succ_lt_succ hl)
      have hlater : deliveries (i + 1 + j) = if applied then .unreported else .lost := by
        rw [shifted deliveries]
        exact hfail
      rw [hfirst]
      change (reclaim d tids (n + 1)).alone (delivering m deliveries) (i + 1) (w.remove m tid) = _
      rw [ih (Nat.lt_of_succ_lt_succ hj) hrest hlater, Nat.add_right_comm, List.take_succ_cons, removeAll_cons]

lemma performFailover_alone {x : Except Exc ℕ} (hread : deliveries 0 = .done)
    (h : (reclaim d (tasksOf d w) 0).alone (delivering m deliveries) 1 (w.readAll m) = some (v, x)) :
    (performFailover d).alone (delivering m deliveries) 0 w = some (v, x.tryCatch fun _ => .ok 0) := by
  apply Prog.alone_catch (fun _ => 0)
  change (exec (.manager m) (deliveries 0) w .hgetall).bind _ = _
  rw [hread]
  exact h

lemma performFailover_unread {applied : Bool}
    (hread : deliveries 0 = if applied then .unreported else .lost) :
    (performFailover d).alone (delivering m deliveries) 0 w = some (w, .ok 0) := by
  change (exec (.manager m) (deliveries 0) w .hgetall).bind _ = _
  rw [hread]
  cases applied <;> rfl

lemma retried (d : NodeId) (m : ℕ) (v : World) : Retried d m v := by
  have hreclaim : (reclaim d (tasksOf d v) 0).alone (delivering m fun _ => .done) 1 (v.readAll m) =
      some (removeAll (v.readAll m) m (tasksOf d v), .ok (0 + (tasksOf d v).length)) :=
    reclaim_done (fun _ _ => rfl) 0
  rw [Nat.zero_add] at hreclaim
  refine ⟨_, performFailover_alone rfl hreclaim, List.eq_nil_iff_forall_not_mem.mpr fun tid htid => ?_⟩
  rw [mem_tasksOf, removeAll_get?] at htid
  split at htid
  · cases htid
  · rename_i hnot
    exact hnot (mem_tasksOf.mpr htid)

end Calls

lemma accounted_iff_length {removed : List TaskId} {value : ℕ} (h : Removes d m w v removed) :
    Accounted d m w v value ↔ value = removed.length := by
  constructor
  · rintro ⟨⟨tids, htids, rfl⟩, -⟩
    exact htids.unique h
  · intro hvalue
    exact ⟨⟨removed, h, hvalue⟩, retried d m v⟩

lemma removes_nil : Removes d m w w [] :=
  ⟨List.nodup_nil, by simp, by simp, by simp, (List.append_nil _).symm⟩

lemma removes_take (n : ℕ) :
    Removes d m w (removeAll (w.readAll m) m ((tasksOf d w).take n)) ((tasksOf d w).take n) :=
  removes_removeAll ((nodup_tasksOf d w).sublist (List.take_sublist _ _)) fun _ htid => List.mem_of_mem_take htid

lemma failing_answered {j : ℕ} (applied : Bool)
    (h : (tasksOf d w).length ≤ j) :
    (performFailover d).alone (delivering m (failingFrom (j + 1) applied)) 0 w =
      some (removeAll (w.readAll m) m (tasksOf d w), .ok (tasksOf d w).length) := by
  have hdone : ∀ l < (tasksOf d w).length, failingFrom (j + 1) applied (1 + l) = .done := fun l hl => if_pos (by omega)
  have hreclaim := reclaim_done (d := d) (m := m) (w := w.readAll m) hdone 0
  rw [Nat.zero_add] at hreclaim
  exact performFailover_alone (if_pos (Nat.succ_pos j)) hreclaim

lemma failing_within {j : ℕ} (applied : Bool) (h : j < (tasksOf d w).length) :
    (performFailover d).alone (delivering m (failingFrom (j + 1) applied)) 0 w =
      some (removeAll (w.readAll m) m ((tasksOf d w).take (j + applied.toNat)), .ok 0) := by
  have hdone : ∀ l < j, failingFrom (j + 1) applied (1 + l) = .done := fun l hl => if_pos (by omega)
  have hfail : failingFrom (j + 1) applied (1 + j) = if applied then .unreported else .lost := if_neg (by omega)
  exact performFailover_alone (if_pos (Nat.succ_pos j)) (reclaim_fails (w := w.readAll m) h hdone hfail 0)

/-- A failover accounts for what it did exactly if none of its calls fails, or the first that does is
the HGETALL or a first pipeline that is not applied. -/
theorem failover_accounted_iff (d : NodeId) (m : ℕ) (w : World) (k : ℕ) (applied : Bool) :
    ∃ v value, (performFailover d).alone (delivering m (failingFrom k applied)) 0 w = some (v, .ok value) ∧
      (Accounted d m w v value ↔ k = 0 ∨ (tasksOf d w).length < k ∨ k = 1 ∧ applied = false) := by
  cases k with
  | zero => exact ⟨w, 0, performFailover_unread rfl, by simp [accounted_iff_length removes_nil]⟩
  | succ j =>
    rcases Nat.lt_or_ge j (tasksOf d w).length with hwithin | hall
    · refine ⟨_, _, failing_within applied hwithin, ?_⟩
      rw [accounted_iff_length (removes_take _), List.length_take]
      cases applied <;> simp <;> omega
    · have hremoves := removes_take (d := d) (m := m) (w := w) (tasksOf d w).length
      rw [List.take_length] at hremoves
      refine ⟨_, _, failing_answered applied hall, ?_⟩
      rw [accounted_iff_length hremoves]
      simp [Nat.lt_succ_of_le hall]

def twoTasks : World :=
  before ⟨[("task-1", "node-1"), ("task-2", "node-2"), ("task-3", "node-1")], by decide⟩ fun _ => some "node-1"

/-- The second pipeline fails after the first was applied. -/
theorem failover_uncounted : ¬ ∀ v value,
    (performFailover "node-1").alone (delivering 1 (failingFrom 2 false)) 0 twoTasks = some (v, .ok value) →
      Accounted "node-1" 1 twoTasks v value := by
  intro h
  have hlength : 1 < (tasksOf "node-1" twoTasks).length := by decide
  have haccounted := h _ _ (failing_within false hlength)
  rw [accounted_iff_length (removes_take _)] at haccounted
  exact absurd haccounted (by decide)

end Faults

end OpsSentry.Cluster.Failover
