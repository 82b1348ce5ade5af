import OpsSentry.ConfigShield.LockFiles

/-! The file backend of `ConfigShield`, call by call: every filesystem access of the
source is one command. The state lock of a shield makes each of its calls one
critical section, so a node runs one procedure at a time. -/

namespace OpsSentry.ConfigShield

open Foundation.Programs

abbrev Code (α : Type) := Prog Disk Exc α

def disk (c : Command) : Code (Reply c) := Prog.perform (I := Disk) c

def utcMs : Code ℤ := disk .utcMs
def pathExists (p : Path) : Code Bool := disk (.exists p)
def readText (p : Path) : Code (Except OSErr (Option LockRecord)) := disk (.readText p)
def openExcl (p : Path) : Code (Except OSErr ℕ) := disk (.openExcl p)
def mkstemp : Code (Except OSErr (Path × ℕ)) := disk .mkstemp
def write (fd : ℕ) (record : LockRecord) : Code (Except OSErr Unit) := disk (.write fd record)
def fsync (fd : ℕ) : Code (Except OSErr Unit) := disk (.fsync fd)
def rename (src dst : Path) : Code (Except OSErr Unit) := disk (.rename src dst)
def replace (src dst : Path) : Code (Except OSErr Unit) := disk (.replace src dst)
def remove (p : Path) : Code (Except OSErr Unit) := disk (.unlink p)
def onLockAcquired (r : Resource) : Code (Except Exc Unit) := disk (.onLockAcquired r)

def orRaise {α : Type} : Except OSErr α → Code α
  | .ok v => pure v
  | .error e => throw (.os e)

def unlink (p : Path) : Code Unit := do orRaise (← remove p)

def unlinkIfExists (p : Path) : Code Unit := do
  if ← pathExists p then unlink p else pure ()

def tryFinally {α : Type} (p : Code α) (cleanup : Code Unit) : Code α := do
  let v ← tryCatch p fun e => do cleanup; throw e
  cleanup
  pure v

def writeAndSync (fd : ℕ) (record : LockRecord) : Code Unit := do
  orRaise (← write fd record)
  orRaise (← fsync fd)

def readRecord (lock_path : Path) : Code (Option LockRecord) := do
  if ← pathExists lock_path then
    match ← orRaise (← readText lock_path) with
    | some record => pure (some record)
    | none => throw .jsonDecode
  else pure none

def writeRecord (lock_path : Path) (record : LockRecord) : Code Unit := do
  let (temp_name, fd) ← orRaise (← mkstemp)
  tryFinally
    (do writeAndSync fd record
        orRaise (← replace temp_name lock_path))
    (unlinkIfExists temp_name)

/-- `lock_path.with_name` takes no separator, and `os.rename` no NUL. -/
def Nameable (self : NodeId) : Prop := '/' ∉ self.toList ∧ '\x00' ∉ self.toList

instance (self : NodeId) : Decidable (Nameable self) := inferInstanceAs (Decidable (_ ∧ _))

/-- The stale name with this node id is a name that the directory takes. -/
def Usable (self : NodeId) (now : ℤ) : Prop := Nameable self ∧ staleNameBytes self now ≤ 255

instance (self : NodeId) (now : ℤ) : Decidable (Usable self now) := inferInstanceAs (Decidable (_ ∧ _))

def withName (resource_path : Resource) (self : NodeId) (now : ℤ) : Except Exc Path :=
  if Nameable self then .ok (.stale resource_path self now) else .error .value

lemma withName_bind (r : Resource) (n : NodeId) (now : ℤ) {α : Type} (f : Path → Code α) :
    orThrow (withName r n now) >>= f = if Nameable n then f (.stale r n now) else throw .value := by
  rw [withName]
  split <;> rfl

def takeOver (self : NodeId) (resource_path : Resource) (record : LockRecord) (stale_path : Path) :
    Code LockRecord := do
  let lock_path := Path.lock resource_path
  match ← openExcl lock_path with
  | .error .fileExists =>
    unlinkIfExists stale_path
    let owner := ((← readRecord lock_path).map LockRecord.node_id).getD "another node"
    throw (.lockAcquisition s!"lost lock race on stale reclaim to {owner}: {resource_path}")
  | .error e => throw (.os e)
  | .ok fd =>
    tryFinally
      (tryCatch (writeAndSync fd record) fun e => do unlinkIfExists lock_path; throw e)
      (unlinkIfExists stale_path)
    match ← readRecord lock_path with
    | some verified =>
      if verified.node_id = self then pure verified
      else throw (.lockAcquisition s!"lost lock race on stale reclaim: {resource_path}")
    | none => throw (.lockAcquisition s!"lost lock race on stale reclaim: {resource_path}")

/-- `_acquire_once` once it has read the clock. -/
def acquireAt (self : NodeId) (resource_path : Resource) (ttl_ms now : ℤ) : Code LockRecord := do
  let lock_path := Path.lock resource_path
  let record : LockRecord :=
    { node_id := self, resource_path, acquired_at := now, ttl_ms, heartbeat_at := now }
  match ← openExcl lock_path with
  | .error .fileExists =>
    match ← readRecord lock_path with
    | none => .again
    | some existing =>
      if isStale existing now then
        let stale_path ← orThrow (withName resource_path self now)
        match ← rename lock_path stale_path with
        | .error .fileNotFound => .again
        | .error e => throw (.os e)
        | .ok () => takeOver self resource_path record stale_path
      else throw (.lockAcquisition s!"resource is locked by {existing.node_id}: {resource_path}")
  | .error e => throw (.os e)
  | .ok fd =>
    writeAndSync fd record
    pure record

def acquireOnce (self : NodeId) (resource_path : Resource) (ttl_ms : ℤ) : Code LockRecord := do
  acquireAt self resource_path ttl_ms (← utcMs)

def acquire (self : NodeId) (resource_path : Resource) (ttl_ms : ℤ) (deadline : Option ℤ) :
    Code (Option LockRecord) :=
  acquireRound utcMs (acquireOnce self resource_path ttl_ms) (onLockAcquired resource_path) deadline

/-- `record.node_id != self.node_id and not self._is_stale(record)`. -/
def lockedByOther (self : NodeId) (record : LockRecord) : Code Bool :=
  if record.node_id = self then pure false
  else do
    let now ← utcMs
    pure (!isStale record now)

def refresh (self : NodeId) (resource_path : Resource) (ttl_ms : ℤ) (record : LockRecord) :
    Code LockRecord := do
  let now ← utcMs
  let refreshed : LockRecord :=
    { node_id := self, resource_path, acquired_at := record.acquired_at, ttl_ms, heartbeat_at := now }
  writeRecord (.lock resource_path) refreshed
  pure refreshed

def heartbeat (self : NodeId) (resource_path : Resource) (ttl_ms : ℤ) : Code LockRecord := do
  match ← readRecord (.lock resource_path) with
  | none => throw (.lockAcquisition s!"lock not found: {resource_path}")
  | some record =>
    if ← lockedByOther self record then
      throw (.lockAcquisition s!"lock owned by another node: {resource_path}")
    else refresh self resource_path ttl_ms record

def release (self : NodeId) (resource_path : Resource) (force : Bool) : Code Unit := do
  match ← readRecord (.lock resource_path) with
  | none => pure ()
  | some record =>
    if ← (if force then pure false else lockedByOther self record) then
      throw (.lockAcquisition s!"lock owned by another node: {resource_path}")
    else unlinkIfExists (.lock resource_path)

def body (ttl : NodeId → ℤ) (self : NodeId) : Procedure → Code (Option LockRecord)
  | .acquire r t deadline => acquire self r (effectiveTtl (ttl self) t) deadline
  | .heartbeat r t => some <$> heartbeat self r (effectiveTtl (ttl self) t)
  | .release r => do release self r false; pure none

/-- While an acquire or a release is under way the node holds nothing. -/
def enter (self : NodeId) : Procedure → World → World
  | .acquire r _ _, w => w.setHeld self r false
  | .heartbeat _ _, w => w
  | .release r, w => w.setHeld self r false

def leave (self : NodeId) : Procedure → Except Exc (Option LockRecord) → World → World
  | .acquire r _ _, .ok (some _), w => w.setHeld self r true
  | _, _, w => w

def tick (d : ℕ) (w : World) : World := { w with now := w.now + d }

abbrev FileShield := Service Disk NodeId World Procedure Bool ℕ Exc (Option LockRecord)

/-- Nodes sharing one lock directory, `ttl n` being the `ttl_ms` that node `n` was built with. -/
def fileShield (ttl : NodeId → ℤ) : FileShield where
  body := body ttl
  exec := exec
  enter self p w := some (enter self p w)
  leave := leave
  crash _ w := some w
  environment d w := some (tick d w)

end OpsSentry.ConfigShield
