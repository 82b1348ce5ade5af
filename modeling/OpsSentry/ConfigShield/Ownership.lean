import OpsSentry.ConfigShield.FileRecovery
import OpsSentry.ConfigShield.RedisLock

/-! Whether a heartbeat that nothing interleaves with leaves a lock to the node that the
record names, on both backends. -/

namespace OpsSentry.ConfigShield.Ownership

open Foundation.Programs Foundation.Runs Recovery

section Statement

variable (ttl : NodeId → ℤ) (n : NodeId) (r : Resource) (t : Option ℤ) (e : ℕ → ℕ)

/-- Unless `record` names the node, the call raises a `LockAcquisitionError` and nothing changes. -/
def Respects (record : Option LockRecord) (unchanged : Prop) (x : Except Exc (Option LockRecord)) : Prop :=
  record.map LockRecord.node_id ≠ some n → (∃ message, x = .error (.lockAcquisition message)) ∧ unchanged

def Unchanged (w v : World) : Prop := v.dir (.lock r) = w.dir (.lock r) ∧ lockRecord v r = lockRecord w r

/-- The heartbeat on its own, however much time passes before each of its calls. -/
def FileRespects (w : World) : Prop :=
  ∃ v x, (body ttl n (.heartbeat r t)).alone ((fileShield ttl).pacedExec n false e) 0 w = some (v, x) ∧
    Respects n (lockRecord w r) (Unchanged r w v) x

def RedisRespects (w : Redis.World) : Prop :=
  ∃ v x, (Redis.body ttl n (.heartbeat r t)).alone ((Redis.redisShield ttl).pacedExec n .up e) 0 w = some (v, x) ∧
    Respects n (w.record (Redis.redisKey r)) (v.cell (Redis.redisKey r) = w.cell (Redis.redisKey r)) x

def Reachable (w : World) : Prop :=
  ∃ now ls, ∃ s : Nodes, run (fileShield ttl).step (Pool.idle (startAt now)) ls = some s ∧ s.shared = w

/-- The clock when the heartbeat asks whether the record is stale. -/
def checkTime (w : World) : ℤ := w.now + e 0 + e 1 + e 2

/-- There is no lock file, or it names the node, or it names another one and is not stale. -/
def Refusable (w : World) : Prop :=
  ¬ Unreadable w r ∧ ∀ x, lockRecord w r = some x → x.node_id = n ∨ isStale x (checkTime e w) = false

end Statement

section Reached

variable {n : NodeId}

/-- The numbers of the temporary files have been handed out. -/
def Numbered (w : World) : Prop := ∀ b k, w.dir (.temp b k) ≠ none → k < w.next

/-- Nothing is created or moved under the name of a temporary file but by `mkstemp`. -/
def Places : Command → Prop
  | .openExcl p | .rename _ p | .replace _ p => ∀ b k, p ≠ .temp b k
  | _ => True

lemma tame_places {c : Command} (h : Tame n c) : Places c := by
  cases c with
  | openExcl p =>
    obtain ⟨r, rfl⟩ := h
    exact fun b k hp => nomatch hp
  | rename src dst =>
    obtain ⟨r, now, -, rfl⟩ := h
    exact fun b k hp => nomatch hp
  | replace src dst => exact h.elim
  | _ => trivial

lemma attempts_places {c : Command} (h : Attempts c) : Places c := by
  cases c with
  | openExcl p =>
    obtain ⟨r, rfl⟩ := h
    exact fun _ _ hp => nomatch hp
  | rename src dst =>
    obtain ⟨r, b, now, rfl⟩ := h
    exact fun _ _ hp => nomatch hp
  | replace src dst => exact h.elim
  | _ => trivial

lemma unlinkIfExists_places (p : Path) : (unlinkIfExists p).Issues Places :=
  (unlinkIfExists_attempts p).mono fun _ => attempts_places

lemma readRecord_places (p : Path) : (readRecord p).Issues Places :=
  (readRecord_attempts p).mono fun _ => attempts_places

lemma writeAndSync_places (fd : ℕ) (x : LockRecord) : (writeAndSync fd x).Issues Places :=
  (writeAndSync_attempts fd x).mono fun _ => attempts_places

lemma acquireOnce_places (r : Resource) (ttl_ms : ℤ) : (acquireOnce n r ttl_ms).Issues Places :=
  ⟨trivial, fun now => (acquireAt_attempts r ttl_ms now).mono fun _ => attempts_places⟩

lemma raiseOrSleep_places (deadline : Option ℤ) (e : Exc) : (raiseOrSleep utcMs deadline e).Issues Places :=
  (raiseOrSleep_tame (n := "")).mono fun _ => tame_places

lemma writeRecord_places (r : Resource) (x : LockRecord) : (writeRecord (.lock r) x).Issues Places := by
  refine ⟨trivial, fun y => (orRaise_issues y).bind fun p => ?_⟩
  refine tryFinally_issues ((writeAndSync_places p.2 x).bind fun _ => ?_) (unlinkIfExists_places _)
  exact ⟨(fun _ _ h => nomatch h), fun z => orRaise_issues z⟩

lemma lockedByOther_places (x : LockRecord) : (lockedByOther n x).Issues Places :=
  (lockedByOther_tame x).mono fun _ => tame_places

lemma heartbeat_places (r : Resource) (ttl_ms : ℤ) : (heartbeat n r ttl_ms).Issues Places := by
  refine (readRecord_places _).bind fun y => ?_
  cases y with
  | none => trivial
  | some y =>
    refine (lockedByOther_places y).bind fun b => ?_
    cases b with
    | true => trivial
    | false => exact ⟨trivial, fun now => (writeRecord_places r _).bind fun _ => trivial⟩

lemma release_places (r : Resource) : (release n r false).Issues Places := by
  refine (readRecord_places _).bind fun y => ?_
  cases y with
  | none => trivial
  | some y =>
    refine (lockedByOther_places y).bind fun b => ?_
    cases b with
    | true => trivial
    | false => exact unlinkIfExists_places _

lemma body_places (ttl : NodeId → ℤ) (n : NodeId) (p : Procedure) : (body ttl n p).Issues Places := by
  cases p with
  | acquire r t deadline =>
    refine Prog.Issues.handle ((acquireOnce_places r _).bind fun _ => ⟨trivial, fun y => ?_⟩)
      fun e => raiseOrSleep_places deadline e
    exact (orThrow_issues y).bind fun _ => trivial
  | heartbeat r t => exact (heartbeat_places r _).bind fun _ => trivial
  | release r => exact (release_places r).bind fun _ => trivial

lemma numbered_create {w : World} (h : Numbered w) {p : Path} (hp : ∀ b k, p = .temp b k → k = w.next) :
    Numbered (w.create n p) := by
  intro b k hk
  change k < w.next + 1
  by_cases he : p = .temp b k
  · have := hp b k he
    omega
  · have hold : w.dir (.temp b k) ≠ none := by simpa [World.create, Function.update_of_ne (Ne.symm he)] using hk
    have := h b k hold
    omega

lemma numbered_of_dir {w v : World} (h : Numbered w) (hnext : v.next = w.next)
    (hdir : ∀ b k, v.dir (.temp b k) ≠ none → w.dir (.temp b k) ≠ none) : Numbered v := by
  intro b k hk
  rw [hnext]
  exact h b k (hdir b k hk)

lemma numbered_move {w : World} (h : Numbered w) {src dst : Path} (hdst : ∀ b k, dst ≠ .temp b k) (i : ℕ) :
    Numbered (w.move src dst i) := by
  refine numbered_of_dir h rfl fun b k hk => ?_
  simp only [World.move, Function.update_apply] at hk
  split at hk
  · exact absurd rfl hk
  · rwa [if_neg (Ne.symm (hdst b k))] at hk

lemma numbered_exec {faulty : Bool} {c : Command} {w v : World} {y : Reply c} (hc : Places c)
    (h : Numbered w)
    (hv : exec n faulty w c = some (v, y)) : Numbered v := by
  cases c with
  | openExcl p =>
    simp only [exec] at hv
    split at hv
    · cases hv
      exact h
    · split at hv
      · cases hv
        exact numbered_create h fun b k hp => absurd hp (hc b k)
      · cases hv
        exact h
  | mkstemp =>
    simp only [exec] at hv
    split at hv
    · cases hv
      exact h
    · split at hv
      · cases hv
        refine numbered_create h fun b k hp => ?_
        cases hp
        rfl
      · cases hv
  | write fd x =>
    simp only [exec] at hv
    split at hv <;> cases hv
    · exact h
    · simp only [World.writeLock]
      split <;> exact h
  | rename src dst =>
    simp only [exec] at hv
    split at hv
    · cases hv
      exact h
    · split at hv
      · cases hv
        exact h
      · split at hv <;> cases hv
        · exact numbered_move h hc _
        · exact h
  | replace src dst =>
    simp only [exec] at hv
    split at hv
    · cases hv
      exact h
    · split at hv <;> cases hv
      · exact h
      · simp only [World.replaceLock]
        split <;> exact numbered_move h hc _
  | unlink p =>
    simp only [exec] at hv
    split at hv
    · cases hv
      exact h
    · split at hv <;> cases hv
      · exact h
      · refine numbered_of_dir h rfl fun b k hk => ?_
        simp only [World.remove, Function.update_apply] at hk
        split at hk
        · exact absurd rfl hk
        · exact hk
  | utcMs | «exists» p | readText p | fsync fd | onLockAcquired r =>
    obtain rfl := exec_quiet (by trivial) hv
    exact h

lemma numbered_of_run {ttl : NodeId → ℤ} {now : ℤ} {ls : List (Label NodeId Procedure Bool ℕ)} {s : Nodes}
    (hr : run (fileShield ttl).step (Pool.idle (startAt now)) ls = some s) : Numbered s.shared := by
  refine Contract.invariant_of_issues (Z := fun _ => Places) (body_places ttl) ?_ ?_ ?_ ?_ ?_ ?_ hr
  · exact fun a o w c v y hc h (hv : exec a o w c = some (v, y)) => numbered_exec hc h hv
  · rintro a (p | p | p) w v h ⟨⟩ <;> exact h
  · intro a p x w h
    simp only [fileShield, leave]
    split <;> exact h
  · rintro a w v h ⟨⟩
    exact h
  · rintro d w v h ⟨⟩
    exact h
  · exact fun b k hk => absurd rfl hk

end Reached

variable {ttl : NodeId → ℤ} {n : NodeId} {r : Resource} {e : ℕ → ℕ} {w : World} {t : ℤ}

section File

variable {i : ℕ} {x : LockRecord}

lemma alone_of_missing (h : w.dir (.lock r) = none) :
    (heartbeat n r t).alone ((fileShield ttl).pacedExec n false e) 0 w =
      some (tick (e 0) w, .error (.lockAcquisition s!"lock not found: {r}")) := by
  simp [heartbeat, readRecord, Prog.alone, exec, tick, h]

lemma alone_of_unreadable (h : w.dir (.lock r) = some i) (hi : w.text i = none) :
    (heartbeat n r t).alone ((fileShield ttl).pacedExec n false e) 0 w =
      some (tick (e 1) (tick (e 0) w), .error .jsonDecode) := by
  simp [heartbeat, readRecord, Prog.alone, exec, tick, h, hi]

lemma alone_of_fresh (h : w.dir (.lock r) = some i) (hi : w.text i = some x) (hx : x.node_id ≠ n)
    (hfresh : isStale x (checkTime e w) = false) :
    (heartbeat n r t).alone ((fileShield ttl).pacedExec n false e) 0 w =
      some (tick (e 2) (tick (e 1) (tick (e 0) w)), .error (.lockAcquisition s!"lock owned by another node: {r}")) := by
  have hle : ¬ x.ttl_ms < checkTime e w - x.heartbeat_at := of_decide_eq_false hfresh
  rw [checkTime, Int.not_lt] at hle
  simp [heartbeat, readRecord, lockedByOther, Prog.alone, exec, tick, h, hi, hx, isStale, hle]

/-- A record of the node itself is refreshed, and a stale one of any node. -/
lemma alone_of_refreshed (h : w.dir (.lock r) = some i) (hi : w.text i = some x) (hw : Numbered w)
    (hx : x.node_id = n ∨ isStale x (checkTime e w) = true) :
    ∃ v y, (heartbeat n r t).alone ((fileShield ttl).pacedExec n false e) 0 w = some (v, .ok y) := by
  have hfree : ∀ b, w.dir (.temp b w.next) = none := fun b => by
    by_contra hb
    exact absurd (hw b w.next hb) (Nat.lt_irrefl _)
  by_cases hown : x.node_id = n
  · simp [heartbeat, readRecord, lockedByOther, refresh, writeRecord, tryFinally, writeAndSync, unlinkIfExists, unlink,
      Prog.alone, exec, tick, h, hi, hown, hfree, World.create, World.writeLock, World.setText, World.replaceLock,
      World.move, World.stamp]
  · have hlt : x.ttl_ms < checkTime e w - x.heartbeat_at := of_decide_eq_true (hx.resolve_left hown)
    rw [checkTime, ← Int.not_le] at hlt
    simp [heartbeat, readRecord, lockedByOther, refresh, writeRecord, tryFinally, writeAndSync, unlinkIfExists, unlink,
      Prog.alone, exec, tick, h, hi, hown, hfree, isStale, hlt, World.create, World.writeLock, World.setText,
      World.replaceLock, World.move, World.stamp]

lemma alone_body {v : World} {x : Except Exc LockRecord} {o : Option ℤ}
    (h : (heartbeat n r (effectiveTtl (ttl n) o)).alone ((fileShield ttl).pacedExec n false e) 0 w = some (v, x)) :
    (body ttl n (.heartbeat r o)).alone ((fileShield ttl).pacedExec n false e) 0 w = some (v, x.map some) :=
  Prog.alone_map h

lemma lockRecord_of_text (h : w.dir (.lock r) = some i) : lockRecord w r = w.text i := by
  rw [lockRecord, h]
  rfl

lemma refusable_iff_of_record (h : lockRecord w r = some x) :
    Refusable n r e w ↔ x.node_id = n ∨ isStale x (checkTime e w) = false := by
  constructor
  · exact fun hr => hr.2 x h
  · refine fun hx => ⟨?_, fun y hy => ?_⟩
    · rintro ⟨i, hi, htext⟩
      rw [lockRecord_of_text hi, htext] at h
      cases h
    · rw [h] at hy
      cases hy
      exact hx

lemma fileRespects_iff {o : Option ℤ} (hw : Numbered w) :
    FileRespects ttl n r o e w ↔ Refusable n r e w := by
  cases h : w.dir (.lock r) with
  | none =>
    have hnone : lockRecord w r = none := by rw [lockRecord, h]; rfl
    refine iff_of_true ⟨_, _, alone_body (alone_of_missing h), fun _ => ⟨⟨_, rfl⟩, rfl, rfl⟩⟩ ⟨?_, ?_⟩
    · rintro ⟨i, hi, -⟩
      rw [h] at hi
      cases hi
    · intro x hx
      rw [hnone] at hx
      cases hx
  | some i =>
    have hrecord := lockRecord_of_text h
    cases hi : w.text i with
    | none =>
      refine iff_of_false ?_ fun hr => hr.1 ⟨i, h, hi⟩
      rintro ⟨v, y, hy, hr⟩
      rw [alone_body (alone_of_unreadable h hi)] at hy
      cases hy
      obtain ⟨⟨message, hmessage⟩, -⟩ := hr (by simp [hrecord, hi])
      cases hmessage
    | some x =>
      rw [hi] at hrecord
      rw [refusable_iff_of_record hrecord]
      by_cases hown : x.node_id = n
      · refine iff_of_true ?_ (Or.inl hown)
        obtain ⟨v, y, hy⟩ := alone_of_refreshed (t := effectiveTtl (ttl n) o) h hi hw (Or.inl hown)
        refine ⟨v, _, alone_body hy, fun hne => absurd ?_ hne⟩
        rw [hrecord, Option.map_some, hown]
      · rw [or_iff_right hown]
        cases hstale : isStale x (checkTime e w) with
        | false =>
          exact iff_of_true ⟨_, _, alone_body (alone_of_fresh h hi hown hstale), fun _ => ⟨⟨_, rfl⟩, rfl, rfl⟩⟩ rfl
        | true =>
          refine iff_of_false ?_ (by simp)
          rintro ⟨v, z, hz, hr⟩
          obtain ⟨v', y, hy⟩ := alone_of_refreshed (t := effectiveTtl (ttl n) o) h hi hw (Or.inr hstale)
          rw [alone_body hy] at hz
          cases hz
          obtain ⟨⟨message, hmessage⟩, -⟩ := hr (by simpa [hrecord] using hown)
          cases hmessage

end File

section Redis

variable {w : Redis.World} {x : LockRecord}

@[simp] lemma redis_pacedExec (i : ℕ) (c : Redis.Command) :
    (Redis.redisShield ttl).pacedExec n .up e i w c = Redis.exec n .up (Redis.tick (e i) w) c := rfl

lemma alone_of_none (h : (Redis.tick (e 0) w).record (Redis.redisKey r) = none) :
    (Redis.heartbeat n r t).alone ((Redis.redisShield ttl).pacedExec n .up e) 0 w =
      some (Redis.tick (e 0) w, .error (.lockAcquisition s!"lock not found in Redis: {r}")) := by
  simp [Redis.heartbeat, Prog.alone, Redis.exec, Redis.answer, orThrow, h]

lemma alone_of_other (h : (Redis.tick (e 0) w).record (Redis.redisKey r) = some x) (hx : x.node_id ≠ n) :
    (Redis.heartbeat n r t).alone ((Redis.redisShield ttl).pacedExec n .up e) 0 w =
      some (Redis.tick (e 0) w, .error (.lockAcquisition s!"lock owned by another node: {r}")) := by
  simp [Redis.heartbeat, Prog.alone, Redis.exec, Redis.answer, orThrow, h, hx]

lemma alone_of_own (h : (Redis.tick (e 0) w).record (Redis.redisKey r) = some x) (hx : x.node_id = n) :
    ∃ v y, (Redis.heartbeat n r t).alone ((Redis.redisShield ttl).pacedExec n .up e) 0 w = some (v, y) := by
  by_cases ht : t ≤ 0
  · simp [Redis.heartbeat, Prog.alone, Redis.exec, Redis.answer, orThrow, h, hx, ht]
  · cases hlater : (Redis.tick (e 2) (Redis.tick (e 1) (Redis.tick (e 0) w))).record (Redis.redisKey r) with
    | none => simp [Redis.heartbeat, Prog.alone, Redis.exec, Redis.answer, orThrow, h, hx, ht, hlater]
    | some y => simp [Redis.heartbeat, Prog.alone, Redis.exec, Redis.answer, orThrow, h, hx, ht, hlater]

lemma redisRespects (ttl : NodeId → ℤ) (n : NodeId) (r : Resource) (o : Option ℤ) (e : ℕ → ℕ)
    (w : Redis.World) :
    RedisRespects ttl n r o e w := by
  cases h : (Redis.tick (e 0) w).record (Redis.redisKey r) with
  | none => exact ⟨_, _, Prog.alone_map (alone_of_none h), fun _ => ⟨⟨_, rfl⟩, rfl⟩⟩
  | some x =>
    by_cases hx : x.node_id = n
    · obtain ⟨v, y, hy⟩ := alone_of_own (t := effectiveTtl (ttl n) o) h hx
      refine ⟨v, _, Prog.alone_map hy, fun hne => absurd ?_ hne⟩
      rw [Redis.record_of_tick h, Option.map_some, hx]
    · exact ⟨_, _, Prog.alone_map (alone_of_other h hx), fun _ => ⟨⟨_, rfl⟩, rfl⟩⟩

end Redis

/-- On Redis a heartbeat leaves the lock to its owner; on files it does if and only if the lock
file can be read and does not hold a stale record of another node. -/
theorem ownership_kept_iff (ttl : NodeId → ℤ) (n : NodeId) (r : Resource) (o : Option ℤ) (e : ℕ → ℕ) :
    (∀ w, Reachable ttl w → (FileRespects ttl n r o e w ↔ Refusable n r e w)) ∧ ∀ w, RedisRespects ttl n r o e w := by
  refine ⟨?_, redisRespects ttl n r o e⟩
  rintro w ⟨now, ls, s, hrun, rfl⟩
  exact fileRespects_iff (numbered_of_run hrun)

section Sample

def recordOfA : LockRecord :=
  { node_id := "node-a", resource_path := "nginx.conf", acquired_at := 0, ttl_ms := 100, heartbeat_at := 0 }

/-- node-a has acquired the lock, and `d` milliseconds have passed. -/
lemma exists_acquired (d : ℕ) :
    ∃ w, Reachable (fun _ => 100) w ∧ lockRecord w "nginx.conf" = some recordOfA ∧
    Numbered w ∧ w.now = d := by
  obtain ⟨s, hs⟩ : ∃ s, run (fileShield fun _ => 100).step (Pool.idle (startAt 0)) (acquiring "node-a" 6) = some s ∧
      s.shared.now = 0 ∧ lockRecord s.shared "nginx.conf" = some recordOfA :=
    ⟨(run (fileShield fun _ => 100).step (Pool.idle (startAt 0)) (acquiring "node-a" 6)).get (by decide +kernel),
      by rw [Option.some_get], by rfl, by rfl⟩
  have hrun : run (fileShield fun _ => 100).step (Pool.idle (startAt 0)) (acquiring "node-a" 6 ++ [.environment d]) =
      some ⟨tick d s.shared, s.active⟩ := run_append.mpr ⟨s, hs.1, rfl⟩
  have hnumbered := numbered_of_run hrun
  refine ⟨tick d s.shared, ⟨0, _, _, hrun, rfl⟩, hs.2.2, hnumbered, ?_⟩
  change s.shared.now + d = d
  omega

theorem fresh_lock_kept : ∃ w, lockRecord w "nginx.conf" = some recordOfA ∧
    FileRespects (fun _ => 100) "node-b" "nginx.conf" none (fun _ => 0) w := by
  obtain ⟨w, hw, hrecord, -, hnow⟩ := exists_acquired 50
  refine ⟨w, hrecord, ((ownership_kept_iff _ _ _ _ _).1 w hw).mpr ((refusable_iff_of_record hrecord).mpr (Or.inr ?_))⟩
  simp [checkTime, hnow, isStale, recordOfA]

/-- node-b refreshes the lock of node-a a millisecond after it ran out. -/
theorem stale_lock_taken : ¬ ∀ w, Reachable (fun _ => 100) w →
    FileRespects (fun _ => 100) "node-b" "nginx.conf" none (fun _ => 0) w := by
  intro h
  obtain ⟨w, hw, hrecord, hnumbered, hnow⟩ := exists_acquired 101
  have hrefusable := (refusable_iff_of_record hrecord).mp ((fileRespects_iff hnumbered).mp (h w hw))
  rcases hrefusable with hnode | hfresh
  · exact absurd hnode (by decide)
  · simp [checkTime, hnow, isStale, recordOfA] at hfresh

end Sample

end OpsSentry.ConfigShield.Ownership
