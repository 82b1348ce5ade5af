import OpsSentry.ConfigShield.FileLock
import OpsSentry.ConfigShield.RedisLock

/-! One shield with its table of heartbeat threads, on either backend. Each pass of the loop of
`acquire`, each heartbeat of a thread and each `release` is a critical section of the state lock. -/

namespace OpsSentry.ConfigShield.Threads

open Foundation.Programs

/-- What the shield uses of a backend; `Fault` is what may befall one call, and `look` what stands
under a resource: `some none` is a file that is no complete record. -/
structure Backend where
  I : Interface
  Store : Type
  Fault : Type
  exec : NodeId → Fault → Store → (c : I.Command) → Option (Store × I.Reply c)
  acquireOnce : NodeId → Resource → ℤ → Prog I Exc LockRecord
  heartbeat : NodeId → Resource → ℤ → Prog I Exc LockRecord
  release : NodeId → Resource → Bool → Prog I Exc Unit
  now : Store → ℤ
  tick : ℕ → Store → Store
  look : Store → Resource → Option (Option LockRecord)

abbrev files : Backend where
  I := Disk
  Store := World
  Fault := Bool
  exec := exec
  acquireOnce := acquireOnce
  heartbeat := heartbeat
  release := release
  now := World.now
  tick := tick
  look w r := (w.dir (.lock r)).map w.text

abbrev redis : Backend where
  I := Redis.Server
  Store := Redis.World
  Fault := Redis.Link
  exec := Redis.exec
  acquireOnce := Redis.acquireOnce
  heartbeat := Redis.heartbeat
  release := Redis.release
  now := Redis.World.now
  tick := Redis.tick
  look w r := (w.record (Redis.redisKey r)).map some

/-- What befalls a critical section: `before i` is what becomes of the store before its call `i`, and
`after` what becomes of it from the last call until the callback is over or the deadline is checked. -/
structure Luck (B : Backend) where
  fault : ℕ → B.Fault
  before : ℕ → B.Store → B.Store
  after : B.Store → B.Store

def Luck.exec {B : Backend} (l : Luck B) (self : NodeId) (i : ℕ) (w : B.Store) (c : B.I.Command) :
    Option (B.Store × B.I.Reply c) :=
  B.exec self (l.fault i) (l.before i w) c

/-- Threads are numbered as they are made; `target` is what a thread was given, `stopped` whether its
event is set. -/
structure Table where
  heartbeat_threads : Resource → Option ℕ
  target : ℕ → Resource × ℤ
  running : ℕ → Bool
  stopped : ℕ → Bool
  next : ℕ
  unmade : ∀ k, next ≤ k → running k = false

namespace Table

def empty : Table where
  heartbeat_threads _ := none
  target _ := ("", 0)
  running _ := false
  stopped _ := false
  next := 0
  unmade _ _ := rfl

variable (t : Table)

/-- `_start_heartbeat`, and whether it returns: `starts` says whether `thread.start()` does. -/
def startHeartbeat (resource_path : Resource) (ttl_ms : ℤ) (starts : Bool) : Table × Bool :=
  match t.heartbeat_threads resource_path with
  | some _ => (t, true)
  | none =>
    ({ heartbeat_threads := Function.update t.heartbeat_threads resource_path (some t.next)
       target := Function.update t.target t.next (resource_path, ttl_ms)
       running := Function.update t.running t.next starts
       stopped := Function.update t.stopped t.next false
       next := t.next + 1
       unmade := fun k hk => by
        rw [Function.update_of_ne (by omega)]
        exact t.unmade k (by omega) }, starts)

def ends (k : ℕ) : Table :=
  { t with
    running := Function.update t.running k false
    unmade := fun j hj => by
      by_cases hjk : j = k
      · rw [hjk, Function.update_self]
      · rw [Function.update_of_ne hjk]
        exact t.unmade j hj }

/-- `release` takes the thread out of the table and sets its event. -/
def pop (resource_path : Resource) : Table :=
  match t.heartbeat_threads resource_path with
  | none => t
  | some k =>
    { t with
      heartbeat_threads := Function.update t.heartbeat_threads resource_path none
      stopped := Function.update t.stopped k true }

end Table

section Tables

variable {t : Table} {r : Resource} {ttl : ℤ} {starts : Bool} {k : ℕ}

lemma startHeartbeat_of_some (h : t.heartbeat_threads r = some k) :
    t.startHeartbeat r ttl starts = (t, true) := by
  rw [Table.startHeartbeat, h]

lemma lt_next_of_running (h : t.running k = true) : k < t.next := by
  by_contra hk
  rw [t.unmade k (Nat.le_of_not_lt hk)] at h
  cases h

section New

variable (h : t.heartbeat_threads r = none)

include h

lemma startHeartbeat_threads : (t.startHeartbeat r ttl starts).1.heartbeat_threads =
    Function.update t.heartbeat_threads r (some t.next) := by
  rw [Table.startHeartbeat, h]

lemma startHeartbeat_target :
    (t.startHeartbeat r ttl starts).1.target = Function.update t.target t.next (r, ttl) := by
  rw [Table.startHeartbeat, h]

lemma startHeartbeat_running :
    (t.startHeartbeat r ttl starts).1.running = Function.update t.running t.next starts := by
  rw [Table.startHeartbeat, h]

lemma startHeartbeat_stopped :
    (t.startHeartbeat r ttl starts).1.stopped = Function.update t.stopped t.next false := by
  rw [Table.startHeartbeat, h]

lemma startHeartbeat_next : (t.startHeartbeat r ttl starts).1.next = t.next + 1 := by
  rw [Table.startHeartbeat, h]

lemma startHeartbeat_started : (t.startHeartbeat r ttl starts).2 = starts := by
  rw [Table.startHeartbeat, h]

end New

end Tables

structure State (B : Backend) where
  store : B.Store
  threads : Table

/-- An error of the shield or the callback, or the `RuntimeError` of `thread.start()`. -/
inductive Failure
  | shield (e : Exc)
  | thread
deriving DecidableEq, Repr

structure Request where
  resource_path : Resource
  ttl_ms : ℤ
  deadline : Option ℤ
  start_heartbeat : Bool

/-- A pass that `goesOn` calls `_acquire_once` again or sleeps before the next pass. -/
inductive Outcome
  | returned (record : LockRecord)
  | raised (e : Failure)
  | goesOn
deriving DecidableEq, Repr

def settle (deadline : Option ℤ) (now : ℤ) : Failure → Outcome
  | .thread => .raised .thread
  | .shield e =>
    if isTransient e then
      match deadline with
      | none => .raised (.shield e)
      | some deadline => if deadline ≤ now then .raised (.shield e) else .goesOn
    else .raised (.shield e)

variable (B : Backend) (self : NodeId)

/-- What `acquire` does with the lock: start the thread and call `on_lock_acquired`, which raises
`callback`. -/
def taken (q : Request) (starts : Bool) (callback : Option Exc) (record : LockRecord) (w : B.Store) (threads : Table) :
    State B × Outcome :=
  let (threads, started) :=
    if q.start_heartbeat then threads.startHeartbeat q.resource_path q.ttl_ms starts else (threads, true)
  (⟨w, threads⟩,
    if started then
      match callback with
      | none => .returned record
      | some e => settle q.deadline (B.now w) (.shield e)
    else .raised .thread)

/-- What becomes of the answer of `_acquire_once`. -/
def answered (q : Request) (l : Luck B) (starts : Bool) (callback : Option Exc) (threads : Table) :
    B.Store × Except Exc (Option LockRecord) → State B × Outcome
  | (w, .error e) => (⟨l.after w, threads⟩, settle q.deadline (B.now (l.after w)) (.shield e))
  | (w, .ok none) => (⟨w, threads⟩, .goesOn)
  | (w, .ok (some record)) => taken B q starts callback record (l.after w) threads

/-- One pass of the loop of `acquire`. -/
def pass (q : Request) (l : Luck B) (starts : Bool) (callback : Option Exc) (s : State B) :
    Option (State B × Outcome) :=
  ((B.acquireOnce self q.resource_path q.ttl_ms).untilAgain (l.exec self) 0 s.store).map
    (answered B q l starts callback s.threads)

/-- One heartbeat of thread `k`; any exception ends the thread. -/
def beat (l : Luck B) (k : ℕ) (s : State B) : Option (State B × Except Exc LockRecord) :=
  ((B.heartbeat self (s.threads.target k).1 (s.threads.target k).2).alone (l.exec self) 0 s.store).map fun
    | (w, .error e) => (⟨w, s.threads.ends k⟩, .error e)
    | (w, .ok record) => (⟨w, s.threads⟩, .ok record)

def releaseCall (resource_path : Resource) (force : Bool) (l : Luck B) (s : State B) :
    Option (State B × Except Exc Unit) :=
  ((B.release self resource_path force).alone (l.exec self) 0 s.store).map fun p =>
    (⟨p.1, s.threads.pop resource_path⟩, p.2)

end OpsSentry.ConfigShield.Threads
