import OpsSentry.Ledger.OpsLedger

/-! `cluster/shipper.py`: one `AuditShipper` that copies a ledger into a Redis stream while
processes go on calling the ledger. -/

namespace OpsSentry.Cluster

open Foundation.Values Foundation.Programs
open Ledger (LedgerEntry Table)

/-- `(_last_ts, _last_id)`, in the order in which `get_incremental` reads the ledger. -/
abbrev Cursor := ℤ ×ₗ String

structure Payload where
  id : String
  ts : ℤ
  data : Dict

def payload (entry : LedgerEntry) : Payload := ⟨entry.id, entry.created_at, entry.toRecord⟩

def Payload.key (p : Payload) : Cursor := toLex (p.ts, p.id)

inductive Exc
  | ledger (e : Ledger.Exc)
  | sqlite
  | redis
  | os
deriving DecidableEq, Repr

inductive Command
  | ledger (c : Ledger.Command)
  | readCursor
  | getIncremental (cursor : Cursor) (limit : ℕ)
  | execute (pipe : List Payload)
  | setCursor (cursor : Cursor)
  | saveCheckpoint (cursor : Cursor)

def Reply : Command → Type
  | .ledger c => Ledger.Reply c
  | .readCursor => Cursor
  | .getIncremental .. => Except Exc (List LedgerEntry)
  | .execute _ | .saveCheckpoint _ => Except Exc Unit
  | .setCursor _ => Unit

abbrev Node : Interface := ⟨Command, Reply⟩

abbrev Code (α : Type) := Prog Node Exc α

def node (c : Command) : Code (Reply c) := Prog.perform (I := Node) c

def readCursor : Code Cursor := node .readCursor
def getIncremental (cursor : Cursor) (limit : ℕ) : Code (Except Exc (List LedgerEntry)) :=
  node (.getIncremental cursor limit)
def execute (pipe : List Payload) : Code (Except Exc Unit) := node (.execute pipe)
def setCursor (cursor : Cursor) : Code Unit := node (.setCursor cursor)
def saveCheckpoint (cursor : Cursor) : Code (Except Exc Unit) := node (.saveCheckpoint cursor)

def deliver (entries : List LedgerEntry) (last_entry : LedgerEntry) : Code ℕ := do
  orThrow (← execute (entries.map payload))
  setCursor last_entry.key
  orThrow (← saveCheckpoint last_entry.key)
  pure entries.length

def shipEntries (entries : List LedgerEntry) : Code ℕ :=
  match entries.getLast? with
  | none => pure 0
  | some last_entry => deliver entries last_entry

def shipBatch (batch_size : ℕ) : Code ℕ := do
  let cursor ← readCursor
  let entries ← orThrow (← getIncremental cursor batch_size)
  shipEntries entries

def initialCursor : Cursor := toLex (0, "")

/-- `_load_checkpoint`, of a file that is absent or was written by `_save_checkpoint`. -/
def loadCheckpoint (file : Option Cursor) : Cursor := file.getD initialCursor

/-- The ledger, the stream, the cursor in memory and on disk; with the batch that is selected
but not yet behind the cursor, and whether some attempt has returned 0. -/
structure World where
  ledger : Ledger.World
  stream : List Payload
  cursor : Cursor
  checkpoint : Option Cursor
  inflight : List LedgerEntry
  drained : Bool

def World.sent (w : World) : List Cursor := w.stream.map Payload.key

@[simp] lemma payload_key (e : LedgerEntry) : (payload e).key = e.key := rfl

/-- A pipeline is applied as a whole or not at all; its reply may still get lost. -/
inductive Delivery
  | done
  | lost
  | unreported

structure Oracle where
  ledger : Ledger.Oracle := {}
  readFails : Bool := false
  delivery : Delivery := .done
  writeFails : Bool := false

inductive Actor
  | caller (n : ℕ)
  | shipper
deriving DecidableEq

def exec (a : Actor) (o : Oracle) (w : World) : (c : Command) → Option (World × Reply c)
  | .ledger c =>
    match a with
    | .caller n => (Ledger.exec n o.ledger w.ledger c).map fun r => ({ w with ledger := r.1 }, r.2)
    | .shipper => none
  | .readCursor => some (w, w.cursor)
  | .getIncremental cursor limit =>
    if o.readFails then some (w, .error .sqlite)
    else
      let entries := w.ledger.table.getIncremental cursor limit
      some ({ w with inflight := entries }, .ok entries)
  | .execute pipe =>
    match o.delivery with
    | .done => some ({ w with stream := w.stream ++ pipe }, .ok ())
    | .lost => some (w, .error .redis)
    | .unreported => some ({ w with stream := w.stream ++ pipe }, .error .redis)
  | .setCursor cursor => some ({ w with cursor, inflight := [] }, ())
  | .saveCheckpoint cursor =>
    if o.writeFails then some (w, .error .os) else some ({ w with checkpoint := some cursor }, .ok ())

inductive Procedure
  | ledger (p : Ledger.Procedure)
  | shipBatch

inductive Result
  | entry (e : Option LedgerEntry)
  | shipped (n : ℕ)

def inNode : Embedding Ledger.Database Node := ⟨.ledger, fun _ r => r⟩

def body (batch_size : ℕ) : Procedure → Code Result
  | .ledger p => Result.entry <$> (Ledger.body p).lift inNode .ledger
  | .shipBatch => Result.shipped <$> shipBatch batch_size

lemma ledger_issues {batch_size : ℕ} {p : Ledger.Procedure} :
    (body batch_size (.ledger p)).Issues fun c => ∃ d, c = Command.ledger d := by
  apply Prog.Issues.bind
  · exact Prog.Issues.lift (Prog.issues_of_forall (fun c => ⟨c, rfl⟩) _)
  · intro e
    trivial

/-- The node has one shipper thread. -/
def Runs : Actor → Procedure → Prop
  | .caller _, .ledger _ | .shipper, .shipBatch => True
  | _, _ => False

instance (a : Actor) (p : Procedure) : Decidable (Runs a p) :=
  match a, p with
  | .caller _, .ledger _ | .shipper, .shipBatch => isTrue trivial
  | .caller _, .shipBatch | .shipper, .ledger _ => isFalse id

def enter (a : Actor) (p : Procedure) (w : World) : Option World := if Runs a p then some w else none

def leave (a : Actor) (_ : Procedure) (x : Except Exc Result) (w : World) : World :=
  match a, x with
  | .shipper, .ok (.shipped 0) => { w with inflight := [], drained := true }
  | .shipper, _ => { w with inflight := [] }
  | .caller _, _ => w

def crash (a : Actor) (w : World) : World :=
  match a with
  | .shipper => { w with cursor := loadCheckpoint w.checkpoint, inflight := [] }
  | .caller _ => w

def auditNode (batch_size : ℕ) : Service Node Actor World Procedure Oracle Empty Exc Result where
  body _ := body batch_size
  exec := exec
  enter := enter
  leave := leave
  crash a w := some (crash a w)
  environment e _ := e.elim

/-- A contract under which each statement of a caller, each batch and each restart keeps to its
rules. The callers need nothing from the others. -/
lemma meets_of_parts {C : Contract Node Actor World Procedure} {batch_size : ℕ}
    (hpre : C.Pre = fun a p _ => Runs a p)
    (hledger : ∀ n o s w d y, C.Inv s → C.Guard (.caller n) s (.ledger d) →
      exec (.caller n) o s (.ledger d) = some (w, y) → C.Yields (.caller n) s w)
    (hship : ∀ s, C.Inv s → C.Safe (auditNode batch_size) .shipper .shipBatch (body batch_size .shipBatch) s)
    (hrestart : ∀ s, C.Inv s → C.Yields .shipper s (crash .shipper s)) :
    C.Meets (auditNode batch_size) where
  enter a p s w hi hw := by
    obtain ⟨hr, hw⟩ := Option.ite_none_right_eq_some.mp hw
    cases hw
    rw [hpre]
    exact ⟨Contract.Yields.refl hi, hr⟩
  body a p s hi hp := by
    rw [hpre] at hp
    cases a <;> cases p
    · have hissues := @ledger_issues batch_size
      apply Contract.safe_of_issues _ _ _ hissues hi
      · rintro c o t w y ⟨d, rfl⟩ hit hg hw
        exact hledger _ o t w d y hit hg hw
      · intro x t hit
        exact Contract.Yields.refl hit
      · intro t _
        rw [hpre]
        trivial
    · exact hp.elim
    · exact hp.elim
    · exact hship s hi
  crash a s w hi hw := by
    cases hw
    cases a with
    | caller n => exact Contract.Yields.refl hi
    | shipper => exact hrestart s hi
  environment e := e.elim

def unshipped (table : Table) : World where
  ledger := ⟨table, []⟩
  stream := []
  cursor := initialCursor
  checkpoint := none
  inflight := []
  drained := false

end OpsSentry.Cluster
