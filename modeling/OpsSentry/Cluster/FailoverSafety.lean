import OpsSentry.Cluster.Failover

/-! What concurrent failovers of one node do to its tasks, as long as no manager reclaims a
task that was reclaimed after its HGETALL. -/

namespace OpsSentry.Cluster.Failover

open Foundation.Dicts Foundation.Programs Foundation.Runs

def Notice.subject (n : Notice) : TaskId × ℕ := (n.task_id, n.assignment)

def noticesOf (w : World) (m : ℕ) : List Notice := w.notices.filter fun n => n.manager = m

def reclaimed (w : World) (m c : ℕ) : ℕ := ((noticesOf w m).filter fun n => n.call = c).length

def returnedOf (w : World) (m : ℕ) : List Returned := w.returned.filter fun r => r.manager = m

lemma mem_returnedOf {w : World} {m : ℕ} {r : Returned} :
    r ∈ returnedOf w m ↔ r ∈ w.returned ∧ r.manager = m := by
  simp [returnedOf]

/-- A pipeline removes something only where the entry names `d`; no assignment of a task is
announced twice; and the calls, each of which returns once, count the tasks that they
announced themselves. -/
structure Safe (d : NodeId) (w : World) : Prop where
  removes : ∀ r ∈ w.removals, r.lock.isSome ∨ r.entry.isSome → r.entry = some d
  published_once : (w.notices.map Notice.subject).Nodup
  returns_once : (w.returned.map fun r => (r.manager, r.call)).Nodup
  counted : ∀ r ∈ w.returned, r.value = 0 ∨ r.value = reclaimed w r.manager r.call

/-- No one has reclaimed the task since the HGETALL of the manager whose pipeline it is. -/
def NotMoved (a : Actor) (w : World) : Command → Prop
  | .pipeline message =>
    match a with
    | .manager m => w.moved m message.task_id = false
    | .node _ => True
  | _ => True

instance (a : Actor) (w : World) (c : Command) : Decidable (NotMoved a w c) := by
  simp only [NotMoved]
  split
  · split <;> infer_instance
  · infer_instance

structure Inv (d : NodeId) (w : World) : Prop where
  removes : ∀ r ∈ w.removals, r.entry = some d
  published_once : (w.notices.map Notice.subject).Nodup
  returns_once : (w.returned.map fun r => (r.manager, r.call)).Nodup
  counted : ∀ r ∈ w.returned, r.value = 0 ∨ r.value = reclaimed w r.manager r.call
  past : ∀ n ∈ w.notices, n.assignment ≤ w.assignments n.task_id
  unpublished : ∀ n ∈ w.notices, ∀ e, w.registry.get? n.task_id = some e →
    n.assignment < w.assignments n.task_id
  unlocked : ∀ tid, w.released tid = true → w.lock tid = none → w.registry.get? tid = none
  current : ∀ m p, p ∈ w.snapshot m → w.moved m p.1 = false → w.registry.get? p.1 = some p.2
  started : ∀ n ∈ w.notices, n.call ≤ w.calls n.manager
  ended : ∀ r ∈ w.returned, r.call ≤ w.calls r.manager

lemma Inv.safe {d : NodeId} {w : World} (h : Inv d w) : Safe d w :=
  ⟨fun r hr _ => h.removes r hr, h.published_once, h.returns_once, h.counted⟩

/-- A manager owns its call, its snapshot and its reports; a node that has taken the lock of
a released task keeps it and finds no entry in its way. -/
def Rely : Actor → World → World → Prop
  | .manager m, s, t =>
    t.calls m = s.calls m ∧ t.snapshot m = s.snapshot m ∧ noticesOf t m = noticesOf s m ∧
      returnedOf t m = returnedOf s m
  | .node n, s, t =>
    ∀ tid, (s.released tid = true → t.released tid = true) ∧
      (s.lock tid = some n ∧ s.registry.get? tid = none →
        t.lock tid = some n ∧ t.registry.get? tid = none)

/-- The current call of the manager has not returned, and has reclaimed `k` tasks. -/
structure Open (m k : ℕ) (w : World) : Prop where
  returned : ∀ r ∈ returnedOf w m, r.call < w.calls m
  count : reclaimed w m (w.calls m) = k

def Pre : Actor → Procedure → World → Prop
  | .manager m, .performFailover, w => Open m 0 w
  | .node _, .claim tid, w => w.released tid = true
  | _, _, _ => False

def contract (d : NodeId) : Contract Redis Actor World Procedure where
  Inv := Inv d
  Rely := Rely
  Guard := NotMoved
  Pre := Pre
  refl a s := by
    cases a
    · exact ⟨rfl, rfl, rfl, rfl⟩
    · exact fun tid => ⟨id, id⟩
  trans := by
    intro a s t u h h'
    cases a
    · exact ⟨h'.1.trans h.1, h'.2.1.trans h.2.1, h'.2.2.1.trans h.2.2.1, h'.2.2.2.trans h.2.2.2⟩
    · exact fun tid => ⟨fun hs => (h' tid).1 ((h tid).1 hs), fun hs => (h' tid).2 ((h tid).2 hs)⟩

instance (d : NodeId) (a : Actor) (w : World) (c : Command) : Decidable ((contract d).Guard a w c) :=
  inferInstanceAs (Decidable (NotMoved a w c))

section Steps

variable {d n : NodeId} {m k : ℕ} {tid : TaskId} {s t w : World}

lemma Open.stable (h : Open m k s) (hr : Rely (.manager m) s t) : Open m k t := by
  obtain ⟨hcalls, -, hnotices, hreturned⟩ := hr
  refine ⟨?_, ?_⟩
  · rw [hreturned, hcalls]
    exact h.returned
  · rw [reclaimed, hnotices, hcalls]
    exact h.count

lemma readAll_yields (hi : Inv d w) : (contract d).Yields (.manager m) w (w.readAll m) := by
  refine ⟨{ hi with current := ?_ }, ?_⟩
  · intro i p hp hmoved
    by_cases him : i = m
    · rw [World.readAll_snapshot, if_pos him] at hp
      exact OrderedDict.get?_eq_some_iff.mpr hp
    · rw [World.readAll_snapshot, if_neg him] at hp
      rw [World.readAll_moved, if_neg him] at hmoved
      exact hi.current i p hp hmoved
  · rintro (i | n) hne
    · have him : i ≠ m := fun he => hne (he ▸ rfl)
      exact ⟨rfl, Function.update_of_ne him _ _, rfl, rfl⟩
    · exact fun tid => ⟨id, id⟩

lemma noticesOf_remove (w : World) (m i : ℕ) (tid : TaskId) :
    noticesOf (w.remove m tid) i =
      noticesOf w i ++ if m = i then [⟨tid, w.assignments tid, m, w.calls m⟩] else [] := by
  simp only [noticesOf, World.remove, List.filter_append, List.filter_singleton]
  by_cases h : m = i <;> simp [h]

lemma remove_yields (hi : Inv d w) (hopen : Open m k w) (hentry : w.registry.get? tid = some d) :
    (contract d).Yields (.manager m) w (w.remove m tid) := by
  refine ⟨?_, ?_⟩
  · constructor
    · intro r hr
      rcases List.mem_append.mp hr with hr | hr
      · exact hi.removes r hr
      · exact List.mem_singleton.mp hr ▸ hentry
    · rw [World.remove, List.map_append, List.nodup_append]
      refine ⟨hi.published_once, List.nodup_singleton _, ?_⟩
      intro a ha b hb hab
      obtain ⟨x, hx, rfl⟩ := List.mem_map.mp ha
      rw [List.map_singleton, List.mem_singleton] at hb
      -- the current assignment of a registered task has not been announced
      obtain ⟨htid, hassign⟩ := Prod.mk.inj (hab.trans hb)
      have hlt := hi.unpublished x hx d (htid ▸ hentry)
      rw [htid] at hlt
      exact absurd hassign hlt.ne
    · exact hi.returns_once
    · intro r hr
      rcases hi.counted r hr with h | h
      · exact Or.inl h
      · right
        rw [reclaimed, noticesOf_remove]
        split
        · rename_i hm
          have hlt := hopen.returned r (mem_returnedOf.mpr ⟨hr, hm.symm⟩)
          have hne : ¬ w.calls m = r.call := by omega
          simp [h, reclaimed, hne]
        · simp [h, reclaimed]
    · intro x hx
      rcases List.mem_append.mp hx with hx | hx
      · exact hi.past x hx
      · rw [List.mem_singleton.mp hx]
        rfl
    · intro x hx e he
      rw [World.remove_get?] at he
      split at he
      · cases he
      · rename_i hne
        rcases List.mem_append.mp hx with hx | hx
        · exact hi.unpublished x hx e he
        · exact absurd (by rw [List.mem_singleton.mp hx]) hne
    · intro j hj hl
      rw [World.remove_get?]
      split
      · rfl
      · rename_i hne
        rw [World.remove_released, if_neg hne] at hj
        rw [World.remove_lock, if_neg hne] at hl
        exact hi.unlocked j hj hl
    · intro i p hp hmoved
      rw [World.remove_moved] at hmoved
      split at hmoved
      · cases hmoved
      · rename_i hne
        rw [World.remove_get?, if_neg hne]
        exact hi.current i p hp hmoved
    · intro x hx
      rcases List.mem_append.mp hx with hx | hx
      · exact hi.started x hx
      · rw [List.mem_singleton.mp hx]
        rfl
    · exact hi.ended
  · rintro (i | n) hne
    · have hmi : ¬ m = i := fun he => hne (he ▸ rfl)
      refine ⟨rfl, rfl, ?_, rfl⟩
      rw [noticesOf_remove, if_neg hmi, List.append_nil]
    · intro j
      rw [World.remove_released, World.remove_lock, World.remove_get?]
      refine ⟨?_, ?_⟩
      · intro hj
        rw [hj, ite_self]
      · rintro ⟨hl, hr⟩
        -- a task whose lock was taken after its release has no entry, so it is not this one
        have hje : j ≠ tid := by
          rintro rfl
          rw [hentry] at hr
          cases hr
        rw [if_neg hje, if_neg hje]
        exact ⟨hl, hr⟩

lemma remove_open (hopen : Open m k w) : Open m (k + 1) (w.remove m tid) := by
  refine ⟨hopen.returned, ?_⟩
  have hcalls : (w.remove m tid).calls m = w.calls m := rfl
  rw [← hopen.count, reclaimed, reclaimed, noticesOf_remove, if_pos rfl, hcalls, List.filter_append,
    List.length_append, List.filter_cons_of_pos (by simp)]
  rfl

lemma take_yields (hi : Inv d w) (hlock : w.lock tid = none) :
    (contract d).Yields (.node n) w (w.take n tid) := by
  refine ⟨{ hi with unlocked := ?_ }, ?_⟩
  · intro j hj hl
    rw [World.take_lock] at hl
    split at hl
    · cases hl
    · exact hi.unlocked j hj hl
  · rintro (i | n') hne
    · exact ⟨rfl, rfl, rfl, rfl⟩
    · refine fun j => ⟨id, ?_⟩
      rintro ⟨hl, hr⟩
      have hje : j ≠ tid := by
        rintro rfl
        rw [hlock] at hl
        cases hl
      rw [World.take_lock, if_neg hje]
      exact ⟨hl, hr⟩

lemma assign_yields (hi : Inv d w) (hlock : w.lock tid = some n) (hentry : w.registry.get? tid = none) :
    (contract d).Yields (.node n) w (w.assign n tid) := by
  have hassign : ∀ j, w.assignments j ≤ (w.assign n tid).assignments j := by
    intro j
    rw [World.assign_assignments]
    split
    · rename_i hje
      rw [hje]
      omega
    · rfl
  refine ⟨?_, ?_⟩
  · refine { hi with past := ?_, unpublished := ?_, unlocked := ?_, current := ?_ }
    · intro x hx
      exact (hi.past x hx).trans (hassign _)
    · intro x hx e he
      have hpast := hi.past x hx
      by_cases hje : x.task_id = tid
      · rw [World.assign_assignments, if_pos hje]
        rw [hje] at hpast
        omega
      · rw [World.assign_get?, if_neg hje] at he
        exact (hi.unpublished x hx e he).trans_le (hassign _)
    · intro j hj hl
      by_cases hje : j = tid
      · rw [hje] at hl
        exact absurd (hlock.symm.trans hl) (by simp)
      · rw [World.assign_get?, if_neg hje]
        exact hi.unlocked j hj hl
    · intro i p hp hmoved
      have hcur := hi.current i p hp hmoved
      have hje : p.1 ≠ tid := by
        intro he
        rw [he, hentry] at hcur
        cases hcur
      rw [World.assign_get?, if_neg hje]
      exact hcur
  · rintro (i | n') hne
    · exact ⟨rfl, rfl, rfl, rfl⟩
    · refine fun j => ⟨id, ?_⟩
      rintro ⟨hl, hr⟩
      have hje : j ≠ tid := by
        rintro rfl
        rw [hlock] at hl
        exact hne (congrArg Actor.node (Option.some.inj hl).symm)
      rw [World.assign_get?, if_neg hje]
      exact ⟨hl, hr⟩

lemma start_yields (hi : Inv d w) :
    (contract d).Yields (.manager m) w (w.start m) := by
  have hcalls : ∀ i, w.calls i ≤ (w.start m).calls i := by
    intro i
    rw [World.start_calls]
    split
    · rename_i him
      rw [him]
      omega
    · rfl
  refine ⟨{ hi with started := ?_, ended := ?_ }, ?_⟩
  · exact fun x hx => (hi.started x hx).trans (hcalls _)
  · exact fun r hr => (hi.ended r hr).trans (hcalls _)
  · rintro (i | n) hne
    · have him : i ≠ m := fun he => hne (he ▸ rfl)
      exact ⟨(World.start_calls w m i).trans (if_neg him), rfl, rfl, rfl⟩
    · exact fun tid => ⟨id, id⟩

lemma start_open (hi : Inv d w) : Open m 0 (w.start m) := by
  refine ⟨?_, ?_⟩
  · intro r hr
    obtain ⟨hr, hm⟩ := mem_returnedOf.mp hr
    have hended := hi.ended r hr
    rw [hm] at hended
    rw [World.start_calls, if_pos rfl]
    omega
  · rw [reclaimed, World.start_calls, if_pos rfl, List.length_eq_zero_iff]
    apply List.filter_eq_nil_iff.mpr
    intro x hx hcall
    obtain ⟨hx, hm⟩ := List.mem_filter.mp hx
    have hstarted := hi.started x hx
    rw [of_decide_eq_true hm, of_decide_eq_true hcall] at hstarted
    omega

lemma return_yields (hi : Inv d w) (hopen : Open m k w) {v : ℕ} (hv : v = 0 ∨ v = k) :
    (contract d).Yields (.manager m) w (w.finish m v) := by
  refine ⟨{ hi with returns_once := ?_, counted := ?_, ended := ?_ }, ?_⟩
  · rw [World.finish, List.map_append, List.nodup_append]
    refine ⟨hi.returns_once, List.nodup_singleton _, ?_⟩
    intro a ha b hb hab
    obtain ⟨r, hr, rfl⟩ := List.mem_map.mp ha
    rw [List.map_singleton, List.mem_singleton] at hb
    obtain ⟨hm, hc⟩ := Prod.mk.inj (hab.trans hb)
    have hlt := hopen.returned r (mem_returnedOf.mpr ⟨hr, hm⟩)
    exact absurd hc hlt.ne
  · intro r hr
    rcases List.mem_append.mp hr with hr | hr
    · exact hi.counted r hr
    · rw [List.mem_singleton.mp hr]
      rcases hv with hv | hv
      · exact Or.inl hv
      · exact Or.inr (hv.trans hopen.count.symm)
  · intro r hr
    rcases List.mem_append.mp hr with hr | hr
    · exact hi.ended r hr
    · rw [List.mem_singleton.mp hr]
      exact le_refl (w.calls m)
  · rintro (i | n) hne
    · have hmi : ¬ m = i := fun he => hne (he ▸ rfl)
      refine ⟨rfl, rfl, rfl, ?_⟩
      simp [returnedOf, World.finish, List.filter_append, hmi]
    · exact fun tid => ⟨id, id⟩

end Steps

section Programs

variable {d n : NodeId} {m k : ℕ} {tid : TaskId} {s : World}

abbrev Spec (d : NodeId) (a : Actor) (p : Procedure) (Q : Except Exc ℕ → World → Prop) (q : Code ℕ)
    (s : World) : Prop :=
  (contract d).wp (failover d) a ((contract d).Pre a p) Q q s

/-- While it reclaims, a manager counts the tasks that its call has announced. -/
def Counting (m : ℕ) (x : Except Exc ℕ) (w : World) : Prop :=
  ∃ k, Open m k w ∧ ∀ v, x = .ok v → v = k

lemma reclaim_spec (hopen : Open m k s) {tids : List TaskId}
    (hsnap : ∀ tid ∈ tids, (tid, d) ∈ s.snapshot m) :
    Spec d (.manager m) .performFailover (Counting m) (reclaim d tids k) s := by
  induction tids generalizing s k with
  | nil => exact ⟨k, hopen, fun v hv => (Except.ok.inj hv).symm⟩
  | cons tid tids ih =>
    intro t ht hit hg o w y hw
    have hopen := hopen.stable ht
    obtain ⟨-, hsnapshot, -, -⟩ := ht
    have hsnap : ∀ j ∈ tid :: tids, (j, d) ∈ t.snapshot m := fun j hj => hsnapshot ▸ hsnap j hj
    have hentry : t.registry.get? tid = some d :=
      hit.current m (tid, d) (hsnap tid List.mem_cons_self) hg
    have hremove := remove_yields hit hopen hentry
    have hopen' : Open m (k + 1) (t.remove m tid) := remove_open hopen
    change exec (.manager m) o t (.pipeline ⟨tid, d⟩) = some (w, y) at hw
    cases o <;> cases hw
    · exact ⟨hremove, ih hopen' fun j hj => hsnap j (List.mem_cons_of_mem tid hj)⟩
    · exact ⟨Contract.Yields.refl hit, ⟨k, hopen, by simp⟩⟩
    · exact ⟨hremove, ⟨k + 1, hopen', by simp⟩⟩

lemma failover_safe (hopen : Open m 0 s) :
    (contract d).Safe (failover d) (.manager m) .performFailover (performFailover d) s := by
  apply Contract.wp_handle
  intro t ht hit _ o w y hw
  have hopen := hopen.stable ht
  change exec (.manager m) o t .hgetall = some (w, y) at hw
  have hzero : ∀ u, Open m 0 u → (contract d).Finishes (failover d) (.manager m) .performFailover (.ok 0) u :=
    fun u hu v hv hiv => return_yields hiv (hu.stable hv) (Or.inl rfl)
  cases o <;> cases hw
  · refine ⟨readAll_yields hit, ?_⟩
    have hi := (readAll_yields (m := m) hit).1
    have hsnap : ∀ tid ∈ (t.registry.items.filter fun p => p.2 = d).map Prod.fst,
        (tid, d) ∈ (t.readAll m).snapshot m := by
      intro tid htid
      obtain ⟨p, hp, rfl⟩ := List.mem_map.mp htid
      obtain ⟨hp, hd⟩ := List.mem_filter.mp hp
      rw [World.readAll_snapshot, if_pos rfl]
      exact of_decide_eq_true hd ▸ hp
    have hreclaim : Open m 0 (t.readAll m) := ⟨hopen.returned, hopen.count⟩
    refine Contract.wp_mono hi (reclaim_spec hreclaim hsnap) ?_
    rintro (e | v) u hiu ⟨k, hu, hv⟩ z hz hiz
    · exact return_yields hiz (hu.stable hz) (Or.inl rfl)
    · exact return_yields hiz (hu.stable hz) (Or.inr (hv v rfl))
  · exact ⟨Contract.Yields.refl hit, hzero t hopen⟩
  · exact ⟨Contract.Yields.refl hit, hzero t hopen⟩

lemma claim_safe (hreleased : s.released tid = true) :
    (contract d).Safe (failover d) (.node n) (.claim tid) (claim tid) s := by
  intro t ht hit _ o w y hw
  have hreleased := (ht tid).1 hreleased
  change exec (.node n) o t (.setNx tid) = some (w, y) at hw
  simp only [exec] at hw
  split at hw <;> cases hw
  · rename_i hlock
    refine ⟨take_yields hit hlock, ?_⟩
    have hmine : (t.take n tid).lock tid = some n ∧ (t.take n tid).registry.get? tid = none := by
      rw [World.take_lock, if_pos rfl]
      exact ⟨rfl, hit.unlocked tid hreleased hlock⟩
    intro u hu hiu _ o w y hw
    obtain ⟨hl, hr⟩ := (hu tid).2 hmine
    cases hw
    exact ⟨assign_yields hiu hl hr, fun v _ hiv => Contract.Yields.refl hiv⟩
  · exact ⟨Contract.Yields.refl hit, fun v _ hiv => Contract.Yields.refl hiv⟩

end Programs

lemma failover_meets (d : NodeId) : (contract d).Meets (failover d) where
  enter a p s w hi hw := by
    cases a <;> cases p
    · cases hw
      exact ⟨start_yields hi, start_open hi⟩
    · cases hw
    · cases hw
    · obtain ⟨hr, hw⟩ := Option.ite_none_right_eq_some.mp hw
      cases hw
      exact ⟨Contract.Yields.refl hi, hr⟩
  body a p s _ hp := by
    cases a <;> cases p
    · exact failover_safe hp
    · exact hp.elim
    · exact hp.elim
    · exact claim_safe hp
  crash a s w hi hw := by
    cases hw
    exact Contract.Yields.refl hi
  environment e := e.elim

variable {registry : OrderedDict TaskId NodeId} {lock : TaskId → Option NodeId}

lemma before_inv (d : NodeId) : Inv d (before registry lock) := by
  constructor <;> simp [before]

/-- As long as no pipeline runs for a task that was reclaimed since its manager's HGETALL,
failover touches only tasks of the dead node, and each of their assignments once. -/
theorem failover_safe_of_not_moved (d : NodeId) {ls : List (Label Actor Procedure Delivery Empty)}
    {t : Pool Redis Actor World Procedure Exc ℕ}
    (hc : Along (failover d).step (contract d).Respects (Pool.idle (before registry lock)) ls)
    (hr : run (failover d).step (Pool.idle (before registry lock)) ls = some t) : Safe d t.shared :=
  ((contract d).sound (failover_meets d) (before_inv d) hc hr).safe

section Runs

def oneTask : World := before ⟨[("task-1", "node-1")], by decide⟩ fun _ => some "node-1"

def going (a : Actor) (k : ℕ) : List (Label Actor Procedure Delivery Empty) :=
  List.replicate k (.advance a .done)

def oneAfterTheOther : List (Label Actor Procedure Delivery Empty) :=
  [.invoke (.manager 1) .performFailover] ++ going (.manager 1) 3 ++
    [.invoke (.node "node-3") (.claim "task-1")] ++ going (.node "node-3") 3 ++
    [.invoke (.manager 2) .performFailover] ++ going (.manager 2) 2

theorem one_after_the_other_safe :
    ∃ t, run (failover "node-1").step (Pool.idle oneTask) oneAfterTheOther = some t ∧
      t.shared.registry.get? "task-1" = some "node-3" ∧ t.shared.returned.map Returned.value = [1, 0] ∧
      Safe "node-1" t.shared := by
  obtain ⟨t, ht, hs⟩ := exists_of_run_any (failover "node-1").step (Pool.idle oneTask) oneAfterTheOther
    (fun t => decide (t.shared.registry.get? "task-1" = some "node-3" ∧
      t.shared.returned.map Returned.value = [1, 0])) (by decide +kernel)
  obtain ⟨hentry, hvalues⟩ := of_decide_eq_true hs
  exact ⟨t, ht, hentry, hvalues, failover_safe_of_not_moved "node-1" (by decide +kernel) ht⟩

/-- Both managers read the registry before either reclaims; node-3 claims the task that the
first released, and the second takes it away again. -/
def twoSnapshots : List (Label Actor Procedure Delivery Empty) :=
  [.invoke (.manager 1) .performFailover, .invoke (.manager 2) .performFailover] ++
    going (.manager 2) 1 ++ going (.manager 1) 3 ++
    [.invoke (.node "node-3") (.claim "task-1")] ++ going (.node "node-3") 3 ++ going (.manager 2) 2

theorem two_snapshots_not_safe :
    ¬ ∀ ls t, run (failover "node-1").step (Pool.idle oneTask) ls = some t → Safe "node-1" t.shared := by
  intro h
  obtain ⟨t, ht, hs⟩ := exists_of_run_any (failover "node-1").step (Pool.idle oneTask) twoSnapshots
    (fun t => decide (∃ r ∈ t.shared.removals, r.lock.isSome ∧ r.entry = some "node-3"))
    (by decide +kernel)
  obtain ⟨r, hr, hlock, hentry⟩ := of_decide_eq_true hs
  have hd := (h _ t ht).removes r hr (Or.inl hlock)
  rw [hentry] at hd
  exact absurd hd (by decide)

end Runs

end OpsSentry.Cluster.Failover
