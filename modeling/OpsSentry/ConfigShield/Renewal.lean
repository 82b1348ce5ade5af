import OpsSentry.ConfigShield.HeartbeatThreads
import OpsSentry.ConfigShield.FileExclusion

/-! A lock that is held and the thread that should renew it, over every run of one shield. -/

namespace OpsSentry.ConfigShield.Renewal

open Foundation.Runs Threads

section Statement

/-- `held`: an `acquire` has returned and no `release` was called since. `failed`: since then a heartbeat
of the thread that the table names has raised. -/
structure System (B : Backend) where
  shield : State B
  held : Resource → Bool
  failed : Resource → Bool

/-- A call of `acquire` is a sequence of attempts; `others` is what anyone else makes of the store. -/
inductive Event (B : Backend)
  | attempt (q : Request) (l : Luck B) (starts : Bool) (callback : Option Exc)
  | beat (k : ℕ) (l : Luck B)
  | ends (k : ℕ)
  | release (resource_path : Resource) (force : Bool) (l : Luck B)
  | others (change : B.Store → B.Store)

variable {B : Backend} (n : NodeId)

def System.start (store : B.Store) : System B := ⟨⟨store, .empty⟩, fun _ => false, fun _ => false⟩

def attempted (s : System B) (r : Resource) : State B × Outcome → System B
  | (shield, .returned _) => ⟨shield, Function.update s.held r true, Function.update s.failed r false⟩
  | (shield, _) => { s with shield }

def beaten (s : System B) (k : ℕ) : State B × Except Exc LockRecord → System B
  | (shield, .ok _) => { s with shield }
  | (shield, .error _) =>
    let r := (s.shield.threads.target k).1
    if s.shield.threads.heartbeat_threads r = some k then
      { s with shield, failed := Function.update s.failed r true }
    else { s with shield }

def step (s : System B) : Event B → Option (System B)
  | .attempt q l starts callback =>
    if q.start_heartbeat then (pass B n q l starts callback s.shield).map (attempted s q.resource_path) else none
  | .beat k l => if s.shield.threads.running k then (Threads.beat B n l k s.shield).map (beaten s k) else none
  | .ends k =>
    if s.shield.threads.running k && s.shield.threads.stopped k then
      some { s with shield := ⟨s.shield.store, s.shield.threads.ends k⟩ }
    else none
  | .release r force l =>
    (releaseCall B n r force l s.shield).map fun p => { s with shield := p.1, held := Function.update s.held r false }
  | .others change => some { s with shield := ⟨change s.shield.store, s.shield.threads⟩ }

/-- Every lock that is held has a running thread that was not told to stop, or its heartbeat failed. -/
def Renewed (s : System B) : Prop := ∀ r, s.held r = true →
  (∃ k, s.shield.threads.running k = true ∧ s.shield.threads.stopped k = false ∧ (s.shield.threads.target k).1 = r) ∨
    s.failed r = true

def Renews (s : System B) (a : Event B) : Prop := ∀ t, step n s a = some t → Renewed t

/-- An `acquire` that returns finds no thread in the table, or one that runs. -/
def FindsAlive (s : System B) : Event B → Prop
  | .attempt q l starts callback => q.start_heartbeat = true →
    (∃ t x, pass B n q l starts callback s.shield = some (t, .returned x)) →
    ∀ k, s.shield.threads.heartbeat_threads q.resource_path = some k → s.shield.threads.running k = true
  | _ => True

end Statement

section Tables

variable {t : Table} {r r' : Resource} {ttl : ℤ} {starts : Bool} {k j : ℕ}

/-- The table names exactly the threads that were not told to stop, as far as they run. -/
structure Linked (t : Table) : Prop where
  target : ∀ {r k}, t.heartbeat_threads r = some k → (t.target k).1 = r
  open_ : ∀ {r k}, t.heartbeat_threads r = some k → t.stopped k = false
  made : ∀ {r k}, t.heartbeat_threads r = some k → k < t.next
  named : ∀ {k}, t.running k = true → t.stopped k = false → t.heartbeat_threads (t.target k).1 = some k

lemma entry_of_started {r' : Resource} {k : ℕ} (h : t.heartbeat_threads r = none)
    (hk : (t.startHeartbeat r ttl starts).1.heartbeat_threads r' = some k) :
    r' = r ∧ k = t.next ∨ t.heartbeat_threads r' = some k := by
  rw [startHeartbeat_threads h] at hk
  by_cases hr : r' = r
  · rw [hr, Function.update_self] at hk
    exact Or.inl ⟨hr, (Option.some.inj hk).symm⟩
  · rw [Function.update_of_ne hr] at hk
    exact Or.inr hk

lemma Linked.startHeartbeat (hl : Linked t) : Linked (t.startHeartbeat r ttl starts).1 := by
  cases h : t.heartbeat_threads r with
  | some k => rwa [startHeartbeat_of_some h]
  | none =>
    refine ⟨?_, ?_, ?_, ?_⟩
    · intro r' k hk
      rw [startHeartbeat_target h]
      rcases entry_of_started h hk with ⟨rfl, rfl⟩ | hk
      · rw [Function.update_self]
      · rw [Function.update_of_ne (Nat.ne_of_lt (hl.made hk))]
        exact hl.target hk
    · intro r' k hk
      rw [startHeartbeat_stopped h]
      rcases entry_of_started h hk with ⟨rfl, rfl⟩ | hk
      · rw [Function.update_self]
      · rw [Function.update_of_ne (Nat.ne_of_lt (hl.made hk))]
        exact hl.open_ hk
    · intro r' k hk
      rw [startHeartbeat_next h]
      rcases entry_of_started h hk with ⟨rfl, rfl⟩ | hk
      · exact Nat.lt_succ_self _
      · exact Nat.lt_succ_of_lt (hl.made hk)
    · intro k hrunning hstopped
      rw [startHeartbeat_running h] at hrunning
      rw [startHeartbeat_stopped h] at hstopped
      rw [startHeartbeat_target h, startHeartbeat_threads h]
      by_cases hk : k = t.next
      · rw [hk, Function.update_self, Function.update_self]
      · rw [Function.update_of_ne hk] at hrunning hstopped ⊢
        have hnamed := hl.named hrunning hstopped
        rwa [Function.update_of_ne]
        intro hr
        rw [hr, h] at hnamed
        cases hnamed

lemma Linked.ends (hl : Linked t) : Linked (t.ends j) := by
  refine ⟨hl.target, hl.open_, hl.made, fun {k} hrunning hstopped => hl.named ?_ hstopped⟩
  by_cases hk : k = j
  · subst hk
    simp [Table.ends] at hrunning
  · simpa [Table.ends, hk] using hrunning

lemma pop_of_some (h : t.heartbeat_threads r = some j) : (t.pop r).heartbeat_threads =
    Function.update t.heartbeat_threads r none ∧ (t.pop r).stopped = Function.update t.stopped j true ∧
    (t.pop r).running = t.running ∧ (t.pop r).target = t.target ∧ (t.pop r).next = t.next := by
  rw [Table.pop, h]
  exact ⟨rfl, rfl, rfl, rfl, rfl⟩

lemma entry_of_popped (hk : (t.pop r).heartbeat_threads r' = some k) :
    r' ≠ r ∧ t.heartbeat_threads r' = some k := by
  cases h : t.heartbeat_threads r with
  | none =>
    rw [Table.pop, h] at hk
    refine ⟨fun hr => ?_, hk⟩
    rw [hr, h] at hk
    cases hk
  | some j =>
    rw [(pop_of_some h).1] at hk
    by_cases hr : r' = r
    · rw [hr, Function.update_self] at hk
      cases hk
    · rw [Function.update_of_ne hr] at hk
      exact ⟨hr, hk⟩

lemma pop_of_ne (hr : r' ≠ r) (hk : t.heartbeat_threads r' = some k) :
    (t.pop r).heartbeat_threads r' = some k ∧ (t.pop r).running = t.running := by
  cases h : t.heartbeat_threads r with
  | none =>
    rw [Table.pop, h]
    exact ⟨hk, rfl⟩
  | some j =>
    obtain ⟨hthreads, -, hrunning, -⟩ := pop_of_some h
    rw [hthreads, Function.update_of_ne hr]
    exact ⟨hk, hrunning⟩

lemma Linked.pop (hl : Linked t) : Linked (t.pop r) := by
  cases h : t.heartbeat_threads r with
  | none => rwa [Table.pop, h]
  | some j =>
    obtain ⟨hthreads, hstopped, hrunning, htarget, hnext⟩ := pop_of_some h
    refine ⟨?_, ?_, ?_, ?_⟩
    · intro r' k hk
      rw [htarget]
      exact hl.target (entry_of_popped hk).2
    · intro r' k hk
      obtain ⟨hr, hk⟩ := entry_of_popped hk
      rw [hstopped, Function.update_of_ne]
      · exact hl.open_ hk
      · rintro rfl
        exact hr ((hl.target hk).symm.trans (hl.target h))
    · intro r' k hk
      rw [hnext]
      exact hl.made (entry_of_popped hk).2
    · intro k hk hopen
      rw [hrunning] at hk
      rw [hstopped] at hopen
      have hkj : k ≠ j := by
        rintro rfl
        rw [Function.update_self] at hopen
        cases hopen
      rw [Function.update_of_ne hkj] at hopen
      have hnamed := hl.named hk hopen
      rw [hthreads, htarget, Function.update_of_ne]
      · exact hnamed
      · intro hr
        rw [hr, h] at hnamed
        exact hkj (Option.some.inj hnamed).symm

end Tables

section Steps

variable {B : Backend} {n : NodeId} {s u : System B} {q : Request} {l : Luck B} {starts : Bool}
  {callback : Option Exc} {t : State B} {o : Outcome}

lemma settle_ne_returned (deadline : Option ℤ) (now : ℤ) (e : Failure) (x : LockRecord) :
    settle deadline now e ≠ .returned x := by
  cases e with
  | thread => exact nofun
  | shield e =>
    cases deadline with
    | none =>
      simp only [settle]
      split <;> exact nofun
    | some deadline =>
      simp only [settle]
      split
      · split <;> exact nofun
      · exact nofun

/-- An attempt leaves the table, or has started the thread; where it returns, the thread was started. -/
lemma pass_threads (hq : q.start_heartbeat = true)
    (h : pass B n q l starts callback s.shield = some (t, o)) :
    t.threads = s.shield.threads ∧ (∀ x, o ≠ .returned x) ∨
    t.threads = (s.shield.threads.startHeartbeat q.resource_path q.ttl_ms starts).1 ∧
      (∀ x, o = .returned x → (s.shield.threads.startHeartbeat q.resource_path q.ttl_ms starts).2 = true) := by
  obtain ⟨⟨w, y⟩, -, hy⟩ := Option.map_eq_some_iff.mp h
  rcases y with e | _ | record
  · cases hy
    exact Or.inl ⟨rfl, settle_ne_returned _ _ _⟩
  · cases hy
    exact Or.inl ⟨rfl, nofun⟩
  · simp only [answered, taken, hq, if_true] at hy
    cases hy
    refine Or.inr ⟨rfl, fun x hx => ?_⟩
    by_contra hstarted
    rw [if_neg hstarted] at hx
    cases hx

structure Inv (s : System B) : Prop where
  linked : Linked s.shield.threads
  held : ∀ {r}, s.held r = true → ∃ k, s.shield.threads.heartbeat_threads r = some k ∧
    (s.shield.threads.running k = true ∨ s.failed r = true)

lemma Inv.renewed (hi : Inv s) : Renewed s := by
  intro r hr
  obtain ⟨k, hk, halive | hfailed⟩ := hi.held hr
  · exact Or.inl ⟨k, halive, hi.linked.open_ hk, hi.linked.target hk⟩
  · exact Or.inr hfailed

lemma started_kept {r : Resource} {k : ℕ} (hl : Linked s.shield.threads)
    (hk : s.shield.threads.heartbeat_threads r = some k) :
    (s.shield.threads.startHeartbeat q.resource_path q.ttl_ms starts).1.heartbeat_threads r = some k ∧
    (s.shield.threads.startHeartbeat q.resource_path q.ttl_ms starts).1.running k = s.shield.threads.running k := by
  cases h : s.shield.threads.heartbeat_threads q.resource_path with
  | some j => exact ⟨by rwa [startHeartbeat_of_some h], by rw [startHeartbeat_of_some h]⟩
  | none =>
    rw [startHeartbeat_threads h, startHeartbeat_running h, Function.update_of_ne (Nat.ne_of_lt (hl.made hk)),
      Function.update_of_ne]
    · exact ⟨hk, rfl⟩
    · rintro rfl
      rw [h] at hk
      cases hk

lemma started_runs {t : Table} {r : Resource} {ttl : ℤ}
    (hstarted : (t.startHeartbeat r ttl starts).2 = true)
    (halive : ∀ k, t.heartbeat_threads r = some k → t.running k = true) :
    ∃ k, (t.startHeartbeat r ttl starts).1.heartbeat_threads r = some k ∧
      (t.startHeartbeat r ttl starts).1.running k = true := by
  cases h : t.heartbeat_threads r with
  | some k => exact ⟨k, by rwa [startHeartbeat_of_some h], by rw [startHeartbeat_of_some h]; exact halive k h⟩
  | none =>
    rw [startHeartbeat_started h] at hstarted
    refine ⟨t.next, ?_, ?_⟩
    · rw [startHeartbeat_threads h, Function.update_self]
    · rw [startHeartbeat_running h, Function.update_self, hstarted]

lemma Inv.attempt (hi : Inv s) (hq : q.start_heartbeat = true)
    (h : pass B n q l starts callback s.shield = some (t, o)) (hc : FindsAlive n s (.attempt q l starts callback)) :
    Inv (attempted s q.resource_path (t, o)) := by
  have hthreads := pass_threads hq h
  have hlinked : Linked t.threads := by
    rcases hthreads with ⟨ht, -⟩ | ⟨ht, -⟩
    · rw [ht]
      exact hi.linked
    · rw [ht]
      exact hi.linked.startHeartbeat
  have hkept : ∀ {r}, s.held r = true → ∃ k, t.threads.heartbeat_threads r = some k ∧
      (t.threads.running k = true ∨ s.failed r = true) := by
    intro r hr
    obtain ⟨k, hk, halive⟩ := hi.held hr
    rcases hthreads with ⟨ht, -⟩ | ⟨ht, -⟩
    · exact ⟨k, by rwa [ht], by rwa [ht]⟩
    · obtain ⟨hentry, hrunning⟩ : (s.shield.threads.startHeartbeat q.resource_path q.ttl_ms starts).1.heartbeat_threads r =
          some k ∧ (s.shield.threads.startHeartbeat q.resource_path q.ttl_ms starts).1.running k =
          s.shield.threads.running k := started_kept hi.linked hk
      exact ⟨k, by rwa [ht], by rwa [ht, hrunning]⟩
  cases o with
  | raised e => exact ⟨hlinked, hkept⟩
  | goesOn => exact ⟨hlinked, hkept⟩
  | returned x =>
    refine ⟨hlinked, fun {r} hr => ?_⟩
    by_cases hqr : r = q.resource_path
    · subst hqr
      rcases hthreads with ⟨-, hne⟩ | ⟨ht, hstarted⟩
      · exact absurd rfl (hne x)
      · obtain ⟨k, hk, hrunning⟩ := started_runs (hstarted x rfl) (hc hq ⟨t, x, h⟩)
        exact ⟨k, by rwa [← ht] at hk, Or.inl (by rwa [← ht] at hrunning)⟩
    · simp only [attempted] at hr ⊢
      rw [Function.update_of_ne hqr] at hr ⊢
      exact hkept hr

lemma Inv.beat {k : ℕ} {x : Except Exc LockRecord} (hi : Inv s)
    (h : Threads.beat B n l k s.shield = some (t, x)) :
    Inv (beaten s k (t, x)) := by
  obtain ⟨⟨w, y⟩, -, hy⟩ := Option.map_eq_some_iff.mp h
  cases y with
  | ok record =>
    cases hy
    exact ⟨hi.linked, hi.held⟩
  | error e =>
    cases hy
    have hkept : ∀ {r}, s.held r = true → ∃ j, s.shield.threads.heartbeat_threads r = some j ∧
        (j = k ∨ (s.shield.threads.ends k).running j = true ∨ s.failed r = true) := by
      intro r hr
      obtain ⟨j, hj, halive⟩ := hi.held hr
      by_cases hjk : j = k
      · exact ⟨j, hj, Or.inl hjk⟩
      · exact ⟨j, hj, Or.inr (by simpa only [Table.ends, Function.update_of_ne hjk] using halive)⟩
    simp only [beaten]
    split
    · rename_i hentry
      refine ⟨hi.linked.ends, fun {r} hr => ?_⟩
      obtain ⟨j, hj, hjk | halive⟩ := hkept hr
      · refine ⟨j, hj, Or.inr ?_⟩
        rw [← hi.linked.target hj, hjk]
        exact Function.update_self _ _ _
      · refine ⟨j, hj, halive.imp_right fun hfailed => ?_⟩
        by_cases hrk : r = (s.shield.threads.target k).1
        · rw [hrk]
          exact Function.update_self _ _ _
        · exact (Function.update_of_ne hrk _ _).trans hfailed
    · rename_i hentry
      refine ⟨hi.linked.ends, fun {r} hr => ?_⟩
      obtain ⟨j, hj, hjk | halive⟩ := hkept hr
      · refine absurd ?_ hentry
        rw [← hjk, hi.linked.target hj]
        exact hj
      · exact ⟨j, hj, halive⟩

lemma Inv.ends {k : ℕ} (hi : Inv s) (hstopped : s.shield.threads.stopped k = true) :
    Inv { s with shield := ⟨s.shield.store, s.shield.threads.ends k⟩ } := by
  refine ⟨hi.linked.ends, fun {r} hr => ?_⟩
  obtain ⟨j, hj, halive⟩ := hi.held hr
  have hjk : j ≠ k := by
    rintro rfl
    rw [hi.linked.open_ hj] at hstopped
    cases hstopped
  refine ⟨j, hj, ?_⟩
  simpa only [Table.ends, Function.update_of_ne hjk] using halive

lemma Inv.release {r : Resource} {force : Bool} {x : Except Exc Unit} (hi : Inv s)
    (h : releaseCall B n r force l s.shield = some (t, x)) :
    Inv { s with shield := t, held := Function.update s.held r false } := by
  obtain ⟨⟨w, y⟩, -, hy⟩ := Option.map_eq_some_iff.mp h
  cases hy
  refine ⟨hi.linked.pop, fun {r'} hr => ?_⟩
  have hne : r' ≠ r := by
    rintro rfl
    simp only [Function.update_self] at hr
    cases hr
  simp only [Function.update_of_ne hne] at hr
  obtain ⟨k, hk, halive⟩ := hi.held hr
  obtain ⟨hthreads, hrunning⟩ := pop_of_ne hne hk
  exact ⟨k, hthreads, by rwa [hrunning]⟩

lemma Inv.step {a : Event B} (hi : Inv s) (hc : FindsAlive n s a) (h : step n s a = some u) : Inv u := by
  cases a with
  | attempt q l starts callback =>
    rw [Renewal.step, Option.ite_none_right_eq_some, Option.map_eq_some_iff] at h
    obtain ⟨hq, ⟨t, o⟩, hpass, rfl⟩ := h
    exact hi.attempt hq hpass hc
  | beat k l =>
    rw [Renewal.step, Option.ite_none_right_eq_some, Option.map_eq_some_iff] at h
    obtain ⟨-, ⟨t, x⟩, hbeat, rfl⟩ := h
    exact hi.beat hbeat
  | ends k =>
    rw [Renewal.step, Option.ite_none_right_eq_some, Bool.and_eq_true] at h
    obtain ⟨⟨-, hstopped⟩, h⟩ := h
    cases h
    exact hi.ends hstopped
  | release r force l =>
    rw [Renewal.step, Option.map_eq_some_iff] at h
    obtain ⟨⟨t, x⟩, hrelease, rfl⟩ := h
    exact hi.release hrelease
  | others change =>
    cases h
    exact ⟨hi.linked, hi.held⟩

lemma renews_iff {a : Event B} (hi : Inv s) : Renews n s a ↔ FindsAlive n s a := by
  refine ⟨fun h => ?_, fun hc t ht => (hi.step hc ht).renewed⟩
  cases a with
  | attempt q l starts callback =>
    rintro hq ⟨t, x, hpass⟩ k hk
    have hstep : step n s (.attempt q l starts callback) = some (attempted s q.resource_path (t, .returned x)) := by
      rw [Renewal.step, if_pos hq, hpass]
      rfl
    have hsame : t.threads = s.shield.threads := by
      rcases pass_threads hq hpass with ⟨-, hne⟩ | ⟨ht, -⟩
      · exact absurd rfl (hne x)
      · rw [ht, startHeartbeat_of_some hk]
    obtain ⟨j, hrunning, hopen, htarget⟩ | hfailed := h _ hstep q.resource_path (Function.update_self _ _ _)
    · simp only [attempted, hsame] at hrunning hopen htarget
      have hj := hi.linked.named hrunning hopen
      rw [htarget, hk] at hj
      rwa [Option.some.inj hj]
    · simp only [attempted, Function.update_self] at hfailed
      cases hfailed
  | _ => trivial

lemma inv_start (store : B.Store) : Inv (System.start store) := by
  refine ⟨⟨?_, ?_, ?_, ?_⟩, ?_⟩ <;> simp [System.start, Table.empty]

lemma along_renews_iff (store : B.Store) (as : List (Event B)) :
    Along (step n) (Renews n) (System.start store) as ↔ Along (step n) (FindsAlive n) (System.start store) as :=
  along_iff renews_iff (fun hi hc h => hi.step hc h) (inv_start store)

lemma renewed_of_run {store : B.Store} {as : List (Event B)}
    (ha : Along (step n) (Renews n) (System.start store) as)
    (hr : run (step n) (System.start store) as = some s) : Renewed s :=
  run_invariant (fun _ hrenews h => hrenews _ h) (inv_start store).renewed ha hr

end Steps

/-- On either backend every lock that is held is being renewed all along a run if and only if no
`acquire` of the run returns with an entry in the table whose thread no longer runs. -/
theorem renewed_iff (n : NodeId) :
    (∀ (store : World) (as : List (Event files)), Along (step n) (Renews n) (System.start store) as ↔
      Along (step n) (FindsAlive n) (System.start store) as) ∧
    ∀ (store : Redis.World) (as : List (Event redis)), Along (step n) (Renews n) (System.start store) as ↔
      Along (step n) (FindsAlive n) (System.start store) as :=
  ⟨along_renews_iff (B := files), along_renews_iff (B := redis)⟩

section Sample

def lucky : Luck files := ⟨fun _ => false, fun _ => id, id⟩

def appConf : Request := { resource_path := "app.conf", ttl_ms := 100, deadline := none, start_heartbeat := true }

/-- node-b takes the lock over and gives it back; the heartbeat between fails, and the next `acquire`
finds the thread that has ended. -/
def lossAndReturn : List (Event files) :=
  [.attempt appConf lucky true none, .others (World.remove · (.lock "app.conf")), .beat 0 lucky,
    .attempt appConf lucky true none]

def unrenewed (s : System files) : Bool :=
  s.held "app.conf" && !s.failed "app.conf" && s.shield.threads.next == 1 && !s.shield.threads.running 0

lemma not_renewed {s : System files} (h : unrenewed s = true) : ¬ Renewed s := by
  simp only [unrenewed, Bool.and_eq_true, beq_iff_eq, Bool.not_eq_true'] at h
  obtain ⟨⟨⟨hheld, hfailed⟩, hnext⟩, hrunning⟩ := h
  intro hr
  obtain ⟨k, hk, -⟩ | hfailed' := hr "app.conf" hheld
  · have hlt := lt_next_of_running hk
    rw [hnext, Nat.lt_one_iff] at hlt
    rw [hlt, hrunning] at hk
    cases hk
  · rw [hfailed] at hfailed'
    cases hfailed'

/-- After the loss of its lock the node acquires it again, and no thread renews it. -/
theorem reacquired_unrenewed : ¬ ∀ as : List (Event files),
    Along (step "node-a") (Renews "node-a") (System.start emptyDir) as := by
  intro h
  obtain ⟨s, hs, hlost⟩ := exists_of_run_any (step "node-a") (System.start emptyDir) lossAndReturn unrenewed
    (by decide +kernel)
  exact not_renewed hlost (renewed_of_run (h lossAndReturn) hs)

end Sample

end OpsSentry.ConfigShield.Renewal
