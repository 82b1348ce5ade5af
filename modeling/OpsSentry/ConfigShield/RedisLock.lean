import OpsSentry.ConfigShield.Shield

/-! The Redis backend of `ConfigShield`: every Redis command is one atomic step on a
store whose keys expire exactly when their PX time has elapsed. -/

namespace OpsSentry.ConfigShield.Redis

open Foundation.Leases Foundation.Programs

abbrev Key := String

/-- `decode_responses` and the JSON round trip of a record are taken for granted. -/
inductive Command
  | utcMs
  | setNx (key : Key) (record : LockRecord) (px : ℤ)
  | setXx (key : Key) (record : LockRecord) (px : ℤ)
  | get (key : Key)
  | del (key : Key)
  | onLockAcquired (resource : Resource)

def Reply : Command → Type
  | .utcMs => ℤ
  | .setNx .. | .setXx .. => Except Exc Bool
  | .get _ => Except Exc (Option LockRecord)
  | .del _ | .onLockAcquired _ => Except Exc Unit

abbrev Server : Interface := ⟨Command, Reply⟩

/-- The connection works, fails before the command arrives, or loses the answer. -/
inductive Link
  | up
  | down
  | unanswered
deriving DecidableEq, Repr

/-- Keys with their records and times of expiry, with the history the lock properties speak
of: each node's last successful SET, whether an acquire of it returned with no release
since, and which live records were deleted by whom. -/
structure World where
  now : ℤ
  cell : Key → Option (LockRecord × ℤ)
  lastSet : NodeId → Key → Option Lease
  held : NodeId → Key → Bool
  deleted : List (NodeId × LockRecord)

namespace World

def record (w : World) (k : Key) : Option LockRecord :=
  match w.cell k with
  | some (x, expiry) => if w.now < expiry then some x else none
  | none => none

def set (w : World) (n : NodeId) (k : Key) (x : LockRecord) (px : ℤ) : World :=
  { w with
    cell := Function.update w.cell k (some (x, w.now + px))
    lastSet := Function.update w.lastSet n (Function.update (w.lastSet n) k (some ⟨w.now, px⟩)) }

def del (w : World) (n : NodeId) (k : Key) : World :=
  { w with
    cell := Function.update w.cell k none
    deleted := w.deleted ++ ((w.record k).map fun x => (n, x)).toList }

def setHeld (w : World) (n : NodeId) (k : Key) (b : Bool) : World :=
  { w with held := Function.update w.held n (Function.update (w.held n) k b) }

end World

def answer {α : Type} (link : Link) (v : α) : Except Exc α :=
  if link = .up then .ok v else .error .redis

/-- One Redis command of node `n`. An expire time that is not positive is refused. -/
def exec (n : NodeId) (link : Link) (w : World) : (c : Command) → Option (World × Reply c)
  | .utcMs => some (w, w.now)
  | .setNx k x px =>
    if link = .down ∨ px ≤ 0 then some (w, .error .redis) else
    match w.record k with
    | none => some (w.set n k x px, answer link true)
    | some _ => some (w, answer link false)
  | .setXx k x px =>
    if link = .down ∨ px ≤ 0 then some (w, .error .redis) else
    match w.record k with
    | none => some (w, answer link false)
    | some _ => some (w.set n k x px, answer link true)
  | .get k => some (w, answer link (w.record k))
  | .del k => if link = .down then some (w, .error .redis) else some (w.del n k, answer link ())
  | .onLockAcquired _ => if link = .up then some (w, .ok ()) else some (w, .error .callback)

abbrev Code (α : Type) := Prog Server Exc α

def redis (c : Command) : Code (Reply c) := Prog.perform (I := Server) c

def utcMs : Code ℤ := redis .utcMs
def setNx (k : Key) (x : LockRecord) (px : ℤ) : Code (Except Exc Bool) := redis (.setNx k x px)
def setXx (k : Key) (x : LockRecord) (px : ℤ) : Code (Except Exc Bool) := redis (.setXx k x px)
def get (k : Key) : Code (Except Exc (Option LockRecord)) := redis (.get k)
def del (k : Key) : Code (Except Exc Unit) := redis (.del k)
def onLockAcquired (r : Resource) : Code (Except Exc Unit) := redis (.onLockAcquired r)

section Primitives

variable {β : Type}

@[simp] lemma utcMs_bind (f : ℤ → Code β) :
    utcMs >>= f = Prog.call (I := Server) .utcMs (fun y : Server.Reply .utcMs => f y) := rfl
@[simp] lemma setNx_bind (k : Key) (x : LockRecord) (px : ℤ) (f : Except Exc Bool → Code β) :
    setNx k x px >>= f = Prog.call (I := Server) (.setNx k x px) (fun y : Server.Reply (.setNx k x px) => f y) := rfl
@[simp] lemma setXx_bind (k : Key) (x : LockRecord) (px : ℤ) (f : Except Exc Bool → Code β) :
    setXx k x px >>= f = Prog.call (I := Server) (.setXx k x px) (fun y : Server.Reply (.setXx k x px) => f y) := rfl
@[simp] lemma get_bind (k : Key) (f : Except Exc (Option LockRecord) → Code β) :
    get k >>= f = Prog.call (I := Server) (.get k) (fun y : Server.Reply (.get k) => f y) := rfl
@[simp] lemma onLockAcquired_bind (r : Resource) (f : Except Exc Unit → Code β) :
    onLockAcquired r >>= f = Prog.call (I := Server) (.onLockAcquired r) (fun y : Server.Reply (.onLockAcquired r) => f y) :=
  rfl

end Primitives

def redisKey (resource_path : Resource) : Key :=
  if "sentry:".toList.isPrefixOf resource_path.toList then resource_path else "sentry:" ++ resource_path

def acquireOnce (self : NodeId) (resource_path : Resource) (ttl_ms : ℤ) : Code LockRecord := do
  let key := redisKey resource_path
  let now ← utcMs
  let record : LockRecord :=
    { node_id := self, resource_path, acquired_at := now, ttl_ms, heartbeat_at := now }
  if ← orThrow (← setNx key record ttl_ms) then pure record
  else
    match ← orThrow (← get key) with
    | some existing =>
      throw (.lockAcquisition s!"resource is locked by {existing.node_id}: {resource_path}")
    | none => .again

def acquire (self : NodeId) (resource_path : Resource) (ttl_ms : ℤ) (deadline : Option ℤ) :
    Code (Option LockRecord) :=
  acquireRound utcMs (acquireOnce self resource_path ttl_ms) (onLockAcquired resource_path) deadline

def heartbeat (self : NodeId) (resource_path : Resource) (ttl_ms : ℤ) : Code LockRecord := do
  let key := redisKey resource_path
  match ← orThrow (← get key) with
  | none => throw (.lockAcquisition s!"lock not found in Redis: {resource_path}")
  | some record =>
    if record.node_id = self then
      let now ← utcMs
      let refreshed : LockRecord :=
        { node_id := self, resource_path, acquired_at := record.acquired_at, ttl_ms, heartbeat_at := now }
      let _ ← orThrow (← setXx key refreshed ttl_ms)
      pure refreshed
    else throw (.lockAcquisition s!"lock owned by another node: {resource_path}")

def release (self : NodeId) (resource_path : Resource) (force : Bool) : Code Unit := do
  let key := redisKey resource_path
  if force then orThrow (← del key)
  else
    match ← orThrow (← get key) with
    | none => pure ()
    | some record =>
      if record.node_id = self then orThrow (← del key)
      else throw (.lockAcquisition s!"cannot release lock owned by {record.node_id}: {resource_path}")

def body (ttl : NodeId → ℤ) (self : NodeId) : Procedure → Code (Option LockRecord)
  | .acquire r t deadline => acquire self r (effectiveTtl (ttl self) t) deadline
  | .heartbeat r t => some <$> heartbeat self r (effectiveTtl (ttl self) t)
  | .release r => do release self r false; pure none

def enter (self : NodeId) : Procedure → World → World
  | .release r, w => w.setHeld self (redisKey r) false
  | _, w => w

def leave (self : NodeId) : Procedure → Except Exc (Option LockRecord) → World → World
  | .acquire r _ _, .ok (some _), w => w.setHeld self (redisKey r) true
  | _, _, w => w

def tick (d : ℕ) (w : World) : World := { w with now := w.now + d }

lemma record_of_tick {w : World} {k : Key} {d : ℕ} {x : LockRecord} (h : (tick d w).record k = some x) :
    w.record k = some x := by
  simp only [World.record, tick] at h ⊢
  cases hcell : w.cell k with
  | none =>
    rw [hcell] at h
    cases h
  | some c =>
    obtain ⟨y, expiry⟩ := c
    rw [hcell] at h
    change (if w.now + d < expiry then some y else none) = some x at h
    change (if w.now < expiry then some y else none) = some x
    rw [Option.ite_none_right_eq_some] at h ⊢
    exact ⟨by omega, h.2⟩

lemma record_set {w : World} {n : NodeId} {k : Key} {x : LockRecord} {px : ℤ} (d : ℕ) :
    (tick d (w.set n k x px)).record k = if d < px then some x else none := by
  simp [tick, World.set, World.record]

abbrev RedisShield := Service Server NodeId World Procedure Link ℕ Exc (Option LockRecord)

def redisShield (ttl : NodeId → ℤ) : RedisShield where
  body := body ttl
  exec := exec
  enter self p w := some (enter self p w)
  leave := leave
  crash _ w := some w
  environment d w := some (tick d w)

end OpsSentry.ConfigShield.Redis
