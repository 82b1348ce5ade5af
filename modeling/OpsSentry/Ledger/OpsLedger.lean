import OpsSentry.Foundation.Programs
import OpsSentry.Ledger.Storage

/-! `ops_ledger.py`: the calls of `OpsLedger` as programs over the storage. The lock of an
`OpsLedger` is left out: it only excludes interleavings of threads within one process. -/

namespace OpsSentry.Ledger

open Foundation.Strings Foundation.Values Foundation.Programs

inductive Command
  | utcMs
  | uuid4
  | append (entry : LedgerEntry PyStr)
  | update (entry_id : PyStr) (updates : List (Assignment PyStr)) (expected_statuses : Option (List Status))
  | get (entry_id : PyStr)
  | delete (entry_id : PyStr)

/-- `time.time` counts nanoseconds in 64 bits. -/
def Reply : Command → Type
  | .utcMs => Int64
  | .uuid4 => String
  | .append _ => Except Exc Unit
  | .update .. => Except Exc Bool
  | .get _ => Except Exc (Option LedgerEntry)
  | .delete _ => Except Exc Unit

abbrev Database : Interface := ⟨Command, Reply⟩

abbrev Code (α : Type) := Prog Database Exc α

def storage (c : Command) : Code (Reply c) := Prog.perform (I := Database) c

def utcMs : Code ℤ := do
  let now : Int64 ← storage .utcMs
  pure now.toInt

def uuid4 : Code PyStr := do
  let uuid : String ← storage .uuid4
  pure uuid

def append (entry : LedgerEntry PyStr) : Code Unit := do orThrow (← storage (.append entry))

def update (entry_id : PyStr) (updates : List (Assignment PyStr)) (expected_statuses : Option (List Status)) :
    Code Bool := do orThrow (← storage (.update entry_id updates expected_statuses))

def get (entry_id : PyStr) : Code (Option LedgerEntry) := do orThrow (← storage (.get entry_id))

def delete (entry_id : PyStr) : Code Unit := do orThrow (← storage (.delete entry_id))

section Issues

variable {P : Command → Prop} {entry_id : PyStr}

lemma utcMs_issues (h : P .utcMs) : utcMs.Issues P := ⟨h, fun _ => trivial⟩

lemma uuid4_issues (h : P .uuid4) : uuid4.Issues P := ⟨h, fun _ => trivial⟩

lemma update_issues {updates : List (Assignment PyStr)} {expected : Option (List Status)}
    (h : P (.update entry_id updates expected)) : (update entry_id updates expected).Issues P :=
  ⟨h, fun x => orThrow_issues x⟩

lemma get_issues (h : P (.get entry_id)) : (get entry_id).Issues P := ⟨h, fun x => orThrow_issues x⟩

lemma delete_issues (h : P (.delete entry_id)) : (delete entry_id).Issues P := ⟨h, fun x => orThrow_issues x⟩

end Issues

def getEntry (entry_id : PyStr) : Code LedgerEntry := do
  match ← get entry_id with
  | none => throw (.notFound entry_id.shown)
  | some entry => pure entry

def identifierOf : Option PyStr → Code PyStr
  | none => uuid4
  | some entry_id => if entry_id = "" then uuid4 else pure entry_id

def createEntry (action : PyStr) (entry_id accio_ref : Option PyStr)
    (checkpoint metadata : Option Dict) : Code LedgerEntry := do
  let identifier ← identifierOf entry_id
  match ← get identifier with
  | some _ => throw (.state s!"duplicate ledger id: {identifier.shown}")
  | none =>
    -- the two default factories of the dataclass read the clock one after the other
    let created_at ← utcMs
    let updated_at ← utcMs
    let entry : LedgerEntry PyStr :=
      { id := identifier, action, status := .pending, checkpoint := checkpoint.getD [], created_at,
        updated_at, accio_ref, metadata := metadata.getD [], last_error := none }
    append entry
    getEntry entry.id

def allowedOldStatuses (status : Status) : List Status :=
  (VALID_TRANSITIONS.filter fun p => decide (status ∈ p.2)).map Prod.fst

lemma mem_allowedOldStatuses {old new : Status} : old ∈ allowedOldStatuses new ↔ Edge old new := by
  simp only [allowedOldStatuses, Edge, List.mem_map, List.mem_filter, decide_eq_true_eq]
  constructor
  · rintro ⟨p, ⟨hp, hn⟩, ho⟩
    exact ⟨p, hp, ho, hn⟩
  · rintro ⟨p, hp, ho, hn⟩
    exact ⟨p, ⟨hp, hn⟩, ho⟩

-- an empty list would be no condition at all to `update`
lemma allowedOldStatuses_ne_nil (s : Status) : allowedOldStatuses s ≠ [] := by
  cases s <;> decide

def transitionUpdates {σ : Type} (status : Status) (updated_at : ℤ) (checkpoint : Option Dict)
    (error : Option σ) : List (Assignment σ) :=
  [.status status, .updated_at updated_at] ++ (checkpoint.map Assignment.checkpoint).toList ++
    match error with
    | some e => [.last_error (some e)]
    | none => if status = .failed then [] else [.last_error none]

section Transitions

variable {σ : Type} {status : Status} {updated_at : ℤ} {checkpoint : Option Dict}

lemma mem_transitionUpdates {error : Option σ} {a : Assignment σ}
    (h : a ∈ transitionUpdates status updated_at checkpoint error) :
    a = .status status ∨ a = .updated_at updated_at ∨ (∃ c, checkpoint = some c ∧ a = .checkpoint c) ∨
      ∃ v, a = .last_error v := by
  simp only [transitionUpdates] at h
  rcases List.mem_append.mp h with h | h
  · rcases List.mem_append.mp h with h | h
    · rcases List.mem_cons.mp h with h | h
      · exact Or.inl h
      · exact Or.inr (Or.inl (List.mem_singleton.mp h))
    · obtain ⟨c, hc, rfl⟩ := Option.map_eq_some_iff.mp (Option.mem_toList.mp h)
      exact Or.inr (Or.inr (Or.inl ⟨c, hc, rfl⟩))
  · cases error with
    | some e => exact Or.inr (Or.inr (Or.inr ⟨some e, List.mem_singleton.mp h⟩))
    | none =>
      by_cases hf : status = .failed
      · simp [hf] at h
      · exact Or.inr (Or.inr (Or.inr ⟨none, by simpa [hf] using h⟩))

lemma transitionUpdates_mutable {error : Option σ} :
    ∀ a ∈ transitionUpdates status updated_at checkpoint error, a.immutable = false := by
  intro a ha
  rcases mem_transitionUpdates ha with rfl | rfl | ⟨c, -, rfl⟩ | ⟨v, rfl⟩ <;> rfl

lemma setFields_transitionUpdates (status : Status) (updated_at : ℤ) (checkpoint : Option Dict) (error : Option σ) :
    Table.setFields (transitionUpdates status updated_at checkpoint error) =
      transitionUpdates status updated_at checkpoint error :=
  Table.setFields_eq_self transitionUpdates_mutable

lemma transitionUpdates_ne_nil {error : Option σ} : transitionUpdates status updated_at checkpoint error ≠ [] := by
  simp [transitionUpdates]

lemma transitionUpdates_toPy (status : Status) (updated_at : ℤ) (checkpoint : Option Dict) (error : Option String) :
    (transitionUpdates status updated_at checkpoint error).map Assignment.toPy =
      transitionUpdates status updated_at checkpoint (error.map .text) := by
  cases checkpoint <;> cases error <;> by_cases hf : status = .failed <;>
    simp [transitionUpdates, Assignment.toPy, hf]

lemma transitionUpdates_refused {error : Option σ} :
    (transitionUpdates status updated_at checkpoint error).findSome? Assignment.refused = checkpoint.bind refusedDict := by
  cases checkpoint with
  | none => cases error <;> by_cases hf : status = .failed <;> simp [transitionUpdates, Assignment.refused, hf]
  | some c =>
    cases hc : refusedDict c <;> cases error <;> by_cases hf : status = .failed <;>
      simp [transitionUpdates, List.findSome?_cons, Assignment.refused, hf, hc]

/-- An update with strings that have their encoding sets the row. -/
lemma transitionUpdates_sets (hc : checkpoint.bind refusedDict = none) (ht : int64 updated_at = true)
    (error : Option String) : Table.Sets (transitionUpdates status updated_at checkpoint (error.map .text))
      (transitionUpdates status updated_at checkpoint error) where
  values := by rw [setFields_transitionUpdates, transitionUpdates_toPy]
  nonempty := transitionUpdates_ne_nil
  json := by rw [transitionUpdates_refused, hc]
  storable := by
    intro a ha
    rcases mem_transitionUpdates ha with rfl | rfl | ⟨c, -, rfl⟩ | ⟨v, rfl⟩
    · trivial
    · exact ht
    · trivial
    · trivial

/-- What a transition sets is what its update says, with an error that has its encoding. -/
lemma fields_of_sets {error : Option PyStr} {fields : List Assignment}
    (h : Table.Sets (transitionUpdates status updated_at checkpoint error) fields) :
    ∃ error', error = error'.map .text ∧ fields = transitionUpdates status updated_at checkpoint error' := by
  have hvalues := h.values
  rw [setFields_transitionUpdates] at hvalues
  have hinj := List.map_injective_iff.mpr Assignment.toPy_injective
  rcases error with _ | s | s
  · refine ⟨none, rfl, hinj ?_⟩
    rw [← hvalues, transitionUpdates_toPy]
    rfl
  · refine ⟨some s, rfl, hinj ?_⟩
    rw [← hvalues, transitionUpdates_toPy]
    rfl
  · have hmem : Assignment.last_error (some (PyStr.lone s)) ∈ fields.map Assignment.toPy := by
      rw [← hvalues]
      simp [transitionUpdates]
    obtain ⟨a, -, ha⟩ := List.mem_map.mp hmem
    cases a with
    | last_error v => cases v <;> cases ha
    | _ => cases ha

end Transitions

lemma matching_allowed {e : LedgerEntry} {status : Status} (he : Edge e.status status) :
    Table.matching e.id (some (allowedOldStatuses status)) e = true := by
  have hmem := mem_allowedOldStatuses.mpr he
  simp only [Table.matching]
  cases hl : allowedOldStatuses status with
  | nil => exact absurd hl (allowedOldStatuses_ne_nil status)
  | cons s ss =>
    rw [hl] at hmem
    simpa using hmem

lemma transition_last {t : Table} {pre : List LedgerEntry} {e : LedgerEntry} {status : Status}
    {checkpoint : Option Dict} {updated_at : ℤ} (ht : int64 updated_at = true) (error : Option String)
    (hrows : t.rows = pre ++ [e]) (he : Edge e.status status) (hc : checkpoint.bind refusedDict = none) :
    ∃ t', t.update (.text e.id) (transitionUpdates status updated_at checkpoint (error.map .text))
        (some (allowedOldStatuses status)) = .ok (t', true) ∧
      t'.rows = pre ++ [Table.assign (transitionUpdates status updated_at checkpoint error) e] := by
  have hmatch := matching_allowed he
  obtain ⟨hok, hrows'⟩ := Table.set_last (transitionUpdates status updated_at checkpoint error)
    (some (allowedOldStatuses status)) hrows
  refine ⟨_, (Table.update_of_sets (transitionUpdates_sets hc ht error)).trans ?_, hrows'.trans ?_⟩
  · rw [hmatch] at hok
    exact congrArg Except.ok (Prod.ext rfl hok)
  · rw [Table.updated, if_pos hmatch, setFields_transitionUpdates]

lemma transition_row {t : Table} {e : LedgerEntry} {status : Status} {checkpoint : Option Dict}
    {updated_at : ℤ} (ht : int64 updated_at = true) (error : Option String) (hrow : t.find? e.id = some e)
    (he : Edge e.status status) (hc : checkpoint.bind refusedDict = none) :
    ∃ t', t.update (.text e.id) (transitionUpdates status updated_at checkpoint (error.map .text))
        (some (allowedOldStatuses status)) = .ok (t', true) ∧
      ∀ i, t'.find? i = if i = e.id then some (Table.assign (transitionUpdates status updated_at checkpoint error) e)
        else t.find? i := by
  have hmatch := matching_allowed he
  refine ⟨(t.set e.id (transitionUpdates status updated_at checkpoint error) (some (allowedOldStatuses status))).1,
    (Table.update_of_sets (transitionUpdates_sets hc ht error)).trans ?_, fun i => ?_⟩
  · exact congrArg Except.ok (Prod.ext rfl (Table.set_affects.mpr ⟨e, hrow, hmatch⟩))
  · split
    · rename_i hi
      rw [Table.find?_set, hi, hrow, Option.map_some, Table.updated, if_pos hmatch, setFields_transitionUpdates]
    · exact Table.set_other ‹_›

def transitionTo (entry_id : PyStr) (status : Status) (checkpoint : Option Dict)
    (error : Option PyStr) : Code LedgerEntry := do
  let updated_at ← utcMs
  let updates := transitionUpdates status updated_at checkpoint error
  if ← update entry_id updates (some (allowedOldStatuses status)) then
    getEntry entry_id
  else
    match ← get entry_id with
    | none => throw (.notFound entry_id.shown)
    | some entry => throw (.state (s!"invalid transition: {entry.status.text} -> {status.text} " ++
        "(possibly already updated by another agent)"))

def transition (entry_id status : PyStr) (checkpoint : Option Dict)
    (error : Option PyStr) : Code LedgerEntry :=
  match Status.of? status with
  | none => throw (.state s!"unsupported status: {status.shown}")
  | some status => transitionTo entry_id status checkpoint error

lemma transition_text (entry_id : PyStr) (status : Status) (checkpoint : Option Dict)
    (error : Option PyStr) :
    transition entry_id status.text checkpoint error = transitionTo entry_id status checkpoint error := by
  rw [transition, Status.of?, Status.ofText?_text]

def markRunning (entry_id : PyStr) (checkpoint : Option Dict) : Code LedgerEntry :=
  transition entry_id "running" checkpoint none

def updateCheckpoint (entry_id : PyStr) (checkpoint : Dict) : Code LedgerEntry := do
  let updated_at ← utcMs
  let updates : List (Assignment PyStr) := [.checkpoint checkpoint, .updated_at updated_at]
  if ← update entry_id updates (some [.pending, .running]) then getEntry entry_id
  else
    match ← get entry_id with
    | none => throw (.notFound entry_id.shown)
    | some entry => throw (.state s!"cannot checkpoint entry in status {entry.status.text}")

def markCompleted (entry_id : PyStr) (checkpoint : Option Dict) : Code LedgerEntry :=
  transition entry_id "completed" checkpoint none

/-- The alert that follows never reaches the storage and cannot fail the call. -/
def markFailed (entry_id : PyStr) (error : PyStr) (checkpoint : Option Dict) : Code LedgerEntry :=
  transition entry_id "failed" checkpoint (some error)

def deleteEntry (entry_id : PyStr) : Code Unit := do
  let _ ← getEntry entry_id
  delete entry_id

inductive Procedure
  | createEntry (action : PyStr) (entry_id accio_ref : Option PyStr) (checkpoint metadata : Option Dict)
  | transition (entry_id status : PyStr) (checkpoint : Option Dict) (error : Option PyStr)
  | markRunning (entry_id : PyStr) (checkpoint : Option Dict)
  | markCompleted (entry_id : PyStr) (checkpoint : Option Dict)
  | markFailed (entry_id error : PyStr) (checkpoint : Option Dict)
  | updateCheckpoint (entry_id : PyStr) (checkpoint : Dict)
  | deleteEntry (entry_id : PyStr)

def body : Procedure → Code (Option LedgerEntry)
  | .createEntry action entry_id accio_ref checkpoint metadata =>
    some <$> createEntry action entry_id accio_ref checkpoint metadata
  | .transition entry_id status checkpoint error => some <$> transition entry_id status checkpoint error
  | .markRunning entry_id checkpoint => some <$> markRunning entry_id checkpoint
  | .markCompleted entry_id checkpoint => some <$> markCompleted entry_id checkpoint
  | .markFailed entry_id error checkpoint => some <$> markFailed entry_id error checkpoint
  | .updateCheckpoint entry_id checkpoint => some <$> updateCheckpoint entry_id checkpoint
  | .deleteEntry entry_id => do deleteEntry entry_id; pure none

structure Oracle where
  clock : Int64 := 0
  uuid : String := ""

/-- One storage call with what it answered and the row of its id before and after it. -/
structure Record where
  process : ℕ
  call : Command
  entry_id : PyStr
  success : Bool
  before : Option LedgerEntry
  after : Option LedgerEntry

structure World where
  table : Table
  log : List Record

def World.write (w : World) (n : ℕ) (c : Command) (entry_id : PyStr) (t : Table) (success : Bool) :
    World where
  table := t
  log := w.log ++ [⟨n, c, entry_id, success, w.table.row? entry_id, t.row? entry_id⟩]

def exec (n : ℕ) (o : Oracle) (w : World) : (c : Command) → Option (World × Reply c)
  | .utcMs => some (w, o.clock)
  | .uuid4 => some (w, o.uuid)
  | .append entry =>
    match w.table.append entry with
    | .error e => some (w, .error e)
    | .ok t => some (w.write n (.append entry) entry.id t true, .ok ())
  | .update entry_id updates expected_statuses =>
    match w.table.update entry_id updates expected_statuses with
    | .error e => some (w, .error e)
    | .ok (t, success) =>
      some (w.write n (.update entry_id updates expected_statuses) entry_id t success, .ok success)
  | .get entry_id => some (w, w.table.get entry_id)
  | .delete entry_id =>
    match w.table.delete entry_id with
    | .error e => some (w, .error e)
    | .ok t => some (w.write n (.delete entry_id) entry_id t true, .ok ())

/-- A storage call brings no key into the table but that of the row it inserts. -/
lemma exec_keys {n : ℕ} {o : Oracle} {w w' : World} {c : Command} {y : Reply c}
    (h : exec n o w c = some (w', y)) {e : LedgerEntry} (he : e ∈ w'.table.rows) :
    (∃ f ∈ w.table.rows, f.key = e.key) ∨
      ∃ entry, c = .append entry ∧ entry.bind = .ok e ∧ w.table.find? e.id = none := by
  cases c with
  | utcMs => cases h; exact Or.inl ⟨e, he, rfl⟩
  | uuid4 => cases h; exact Or.inl ⟨e, he, rfl⟩
  | get entry_id => cases h; exact Or.inl ⟨e, he, rfl⟩
  | append entry =>
    simp only [exec] at h
    split at h <;> cases h
    · exact Or.inl ⟨e, he, rfl⟩
    · rename_i t ht
      obtain ⟨row, rfl, hrow, hinsert⟩ := Table.append_eq_ok.mp ht
      change e ∈ t.rows at he
      rw [Table.insert_rows hinsert] at he
      rcases List.mem_append.mp he with he | he
      · exact Or.inl ⟨e, he, rfl⟩
      · obtain rfl := List.mem_singleton.mp he
        exact Or.inr ⟨e, rfl, LedgerEntry.bind_toPy hrow, (Table.insert_ok hinsert).1⟩
  | update entry_id updates expected =>
    simp only [exec] at h
    split at h <;> cases h
    · exact Or.inl ⟨e, he, rfl⟩
    · rename_i t b ht
      rcases Table.update_eq_ok.mp ht with ⟨-, heq⟩ | ⟨i, fields, -, -, heq⟩
      · cases heq
        exact Or.inl ⟨e, he, rfl⟩
      · have hmem : e.key ∈ (w.table.set i fields expected).1.rows.map LedgerEntry.key :=
          heq ▸ List.mem_map_of_mem he
        rw [Table.set_keys] at hmem
        exact Or.inl (List.mem_map.mp hmem)
  | delete entry_id =>
    simp only [exec] at h
    split at h <;> cases h
    · exact Or.inl ⟨e, he, rfl⟩
    · rename_i t ht
      obtain ⟨i, -, ht⟩ := bind_eq_ok ht
      cases ht
      exact Or.inl ⟨e, List.mem_of_mem_filter he, rfl⟩

def opsLedger : Service Database ℕ World Procedure Oracle Empty Exc (Option LedgerEntry) where
  body _ := body
  exec := exec
  enter _ _ w := some w
  leave _ _ _ w := w
  crash _ w := some w
  environment e _ := e.elim

end OpsSentry.Ledger
