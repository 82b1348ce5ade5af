import OpsSentry.ConfigShield.Shield

/-! The lock directory of `config_shield.py`: names, inodes and the atomic
filesystem calls that the shield makes on them. -/

namespace OpsSentry.ConfigShield

open Foundation.Leases Foundation.Programs

def isStale (record : LockRecord) (now : ℤ) : Bool := decide (record.ttl_ms < now - record.heartbeat_at)

/-- File names in the lock directory. A resource stands for its SHA-256 digest, and
`mkstemp` never hands out the name of another node's file. -/
inductive Path
  | lock (resource : Resource)
  | stale (resource : Resource) (node : NodeId) (now : ℤ)
  | temp (node : NodeId) (k : ℕ)
deriving DecidableEq, Repr

/-- The bytes of `{digest}.lock.{node_id}.{now}.stale`. -/
def staleNameBytes (node : NodeId) (now : ℤ) : ℕ :=
  64 + ".lock.".utf8ByteSize + node.utf8ByteSize + ".".utf8ByteSize + (toString now).utf8ByteSize + ".stale".utf8ByteSize

/-- A directory takes no longer name. -/
def Path.Fits : Path → Prop
  | .stale _ node now => staleNameBytes node now ≤ 255
  | _ => True

instance : ∀ p : Path, Decidable p.Fits
  | .stale _ _ _ => inferInstanceAs (Decidable (_ ≤ _))
  | .lock _ | .temp _ _ => isTrue trivial

inductive Command
  | utcMs
  | exists (p : Path)
  | readText (p : Path)
  | openExcl (p : Path)
  | mkstemp
  | write (fd : ℕ) (record : LockRecord)
  | fsync (fd : ℕ)
  | rename (src dst : Path)
  | replace (src dst : Path)
  | unlink (p : Path)
  | onLockAcquired (resource : Resource)

/-- A file that is no complete record (just created, or cut off by a fault) reads as `none`. -/
def Reply : Command → Type
  | .utcMs => ℤ
  | .exists _ => Bool
  | .readText _ => Except OSErr (Option LockRecord)
  | .openExcl _ => Except OSErr ℕ
  | .mkstemp => Except OSErr (Path × ℕ)
  | .onLockAcquired _ => Except Exc Unit
  | _ => Except OSErr Unit

abbrev Disk : Interface := ⟨Command, Reply⟩

/-- Directory, file contents and clock, with the history the lock properties speak of:
who opened an inode under which name, each node's last successful lock write, and
whether its last acquire returned with no release since. -/
structure World where
  now : ℤ
  dir : Path → Option ℕ
  text : ℕ → Option LockRecord
  opener : ℕ → NodeId × Path
  next : ℕ
  lastWrite : NodeId → Resource → Option Lease
  held : NodeId → Resource → Bool

namespace World

def create (w : World) (n : NodeId) (p : Path) : World :=
  { w with
    dir := Function.update w.dir p (some w.next)
    text := Function.update w.text w.next none
    opener := Function.update w.opener w.next (n, p)
    next := w.next + 1 }

def stamp (w : World) (n : NodeId) (r : Resource) (ttl : ℤ) : World :=
  { w with lastWrite :=
      Function.update w.lastWrite n (Function.update (w.lastWrite n) r (some ⟨w.now, ttl⟩)) }

def setHeld (w : World) (n : NodeId) (r : Resource) (b : Bool) : World :=
  { w with held := Function.update w.held n (Function.update (w.held n) r b) }

def setText (w : World) (fd : ℕ) (t : Option LockRecord) : World :=
  { w with text := Function.update w.text fd t }

def move (w : World) (src dst : Path) (i : ℕ) : World :=
  { w with dir := Function.update (Function.update w.dir dst (some i)) src none }

def remove (w : World) (p : Path) : World := { w with dir := Function.update w.dir p none }

def writeLock (w : World) (n : NodeId) (fd : ℕ) (record : LockRecord) : World :=
  match (w.opener fd).2 with
  | .lock r => (w.setText fd (some record)).stamp n r record.ttl_ms
  | _ => w.setText fd (some record)

def replaceLock (w : World) (n : NodeId) (src dst : Path) (i : ℕ) : World :=
  match dst, w.text i with
  | .lock r, some record => (w.move src dst i).stamp n r record.ttl_ms
  | _, _ => w.move src dst i

end World

/-- One atomic filesystem call by node `n`. With `faulty` an operation fails with an I/O
error; a faulty write leaves an unreadable file. -/
def exec (n : NodeId) (faulty : Bool) (w : World) : (c : Command) → Option (World × Reply c)
  | .utcMs => some (w, w.now)
  | .exists p => some (w, (w.dir p).isSome)
  | .readText p =>
    if faulty then some (w, .error .io) else
    match w.dir p with
    | none => some (w, .error .fileNotFound)
    | some i => some (w, .ok (w.text i))
  | .openExcl p =>
    if faulty then some (w, .error .io) else
    match w.dir p with
    | none => some (w.create n p, .ok w.next)
    | some _ => some (w, .error .fileExists)
  | .mkstemp =>
    if faulty then some (w, .error .io) else
    match w.dir (.temp n w.next) with
    | none => some (w.create n (.temp n w.next), .ok (.temp n w.next, w.next))
    | some _ => none
  | .write fd record =>
    if faulty then some (w.setText fd none, .error .io) else some (w.writeLock n fd record, .ok ())
  | .fsync _ => if faulty then some (w, .error .io) else some (w, .ok ())
  | .rename src dst =>
    if faulty then some (w, .error .io) else
    match w.dir src with
    | none => some (w, .error .fileNotFound)
    | some i => if dst.Fits then some (w.move src dst i, .ok ()) else some (w, .error .nameTooLong)
  | .replace src dst =>
    if faulty then some (w, .error .io) else
    match w.dir src with
    | none => some (w, .error .fileNotFound)
    | some i => some (w.replaceLock n src dst i, .ok ())
  | .unlink p =>
    if faulty then some (w, .error .io) else
    match w.dir p with
    | none => some (w, .error .fileNotFound)
    | some _ => some (w.remove p, .ok ())
  | .onLockAcquired _ => if faulty then some (w, .error .callback) else some (w, .ok ())

end OpsSentry.ConfigShield
