import OpsSentry.Foundation.Crashes
import OpsSentry.Ledger.StateMachine

/-! The calls of `OpsLedger` where nothing else reaches the ledger between their storage calls. -/

namespace OpsSentry.Ledger

open Foundation.Crashes Foundation.Programs Foundation.Strings Foundation.Values

def atOnce (clock : ℕ → Int64) (uuid : String) (i : ℕ) (w : World) (c : Command) : Option (World × Reply c) :=
  exec 0 ⟨clock i, uuid⟩ w c

/-- The row was inserted, or replaced the one of its id. -/
def Wrote (w v : World) (row : LedgerEntry) : Prop :=
  ∀ i, v.table.find? i = if i = row.id then some row else w.table.find? i

lemma Wrote.trans {u v w : World} {e f : LedgerEntry} (h : Wrote u v e) (h' : Wrote v w f)
    (hid : f.id = e.id) :
    Wrote u w f := by
  intro i
  rw [h', h, hid]
  split <;> rfl

section Calls

variable {clock : ℕ → Int64} {uuid : String} {w : World} {α : Type} {Q : Except Exc α → World → Prop}

abbrev Finishes (clock : ℕ → Int64) (uuid : String) (Q : Except Exc α → World → Prop) (p : Code α) (w : World) : Prop :=
  Ends (atOnce clock uuid) (fun _ => True) Q p w

lemma finishes_uuid4 {k : PyStr → Code α} (h : Finishes clock uuid Q (k uuid) w) :
    Finishes clock uuid Q (uuid4 >>= k) w :=
  ⟨trivial, fun _ => ⟨_, rfl, h⟩⟩

lemma finishes_utcMs {k : ℤ → Code α} (h : ∀ z : Int64, Finishes clock uuid Q (k z.toInt) w) :
    Finishes clock uuid Q (utcMs >>= k) w :=
  ⟨trivial, fun i => ⟨_, rfl, h (clock i)⟩⟩

lemma finishes_get {i : String} {k : Option LedgerEntry → Code α}
    (h : Finishes clock uuid Q (k ((w.table.find? i).map Table.rowToEntry)) w) :
    Finishes clock uuid Q (get i >>= k) w :=
  ⟨trivial, fun _ => ⟨_, rfl, h⟩⟩

lemma finishes_append {e : LedgerEntry} {k : Unit → Code α} (hfree : w.table.find? e.id = none) (hrow : e.Storable)
    (h : ∀ v, Wrote w v e → Finishes clock uuid Q (k ()) v) : Finishes clock uuid Q (append e >>= k) w := by
  obtain ⟨t, ht, hinsert⟩ := Table.append_free hfree hrow
  refine ⟨trivial, fun i => ⟨(w.write 0 (.append e) e.id t true, .ok ()), ?_, h _ (Table.insert_ok hinsert).2⟩⟩
  change exec 0 _ w (.append e) = _
  rw [exec, ht]
  rfl

lemma Wrote.find? {v : World} {row : LedgerEntry} (h : Wrote w v row) : v.table.find? row.id = some row := by
  rw [h, if_pos rfl]

lemma createEntry_finishes {action : String} {metadata : Dict} {Q : Except Exc LedgerEntry → World → Prop}
    (hmeta : refusedDict metadata = none)
    (hQ : ∀ row v, w.table.find? uuid = none → row.id = uuid → row.action = action → row.metadata = metadata →
      row.status = .pending → Wrote w v row → Q (.ok (Table.rowToEntry row)) v)
    (htaken : w.table.find? uuid ≠ none → ∀ e, Q (.error e) w) :
    Finishes clock uuid Q (createEntry action none none none (some metadata)) w := by
  apply finishes_uuid4
  apply finishes_get
  cases hfree : w.table.find? uuid with
  | some row => exact ⟨trivial, htaken (by simp [hfree]) _⟩
  | none =>
    apply finishes_utcMs
    intro created_at
    apply finishes_utcMs
    intro updated_at
    let row : LedgerEntry :=
      { id := uuid, action, status := .pending, checkpoint := [], created_at := created_at.toInt,
        updated_at := updated_at.toInt, accio_ref := none, metadata, last_error := none }
    have hrow : row.Storable := ⟨hmeta, int64_toInt _, int64_toInt _⟩
    apply finishes_append (e := row) hfree hrow
    intro v hv
    apply finishes_get (i := row.id)
    rw [hv.find?]
    exact ⟨trivial, hQ row v hfree rfl rfl rfl rfl hv⟩

/-- A row in a new status, with the columns that identify it unchanged. -/
structure Moved (e : LedgerEntry) (status : Status) (row : LedgerEntry) : Prop where
  same : SameIdentity e row
  status_eq : row.status = status

lemma finishes_update {e : LedgerEntry} {status : Status} {updated_at : ℤ} {checkpoint : Option Dict}
    {error : Option String} {k : Bool → Code α} (hrow : w.table.find? e.id = some e) (he : Edge e.status status)
    (hc : checkpoint.bind refusedDict = none) (ht : int64 updated_at = true)
    (h : ∀ row v, Moved e status row → Wrote w v row → Finishes clock uuid Q (k true) v) :
    Finishes clock uuid Q (update e.id (transitionUpdates status updated_at checkpoint (error.map .text))
      (some (allowedOldStatuses status)) >>= k) w := by
  obtain ⟨t, ht, hfind⟩ := transition_row ht error hrow he hc
  have hguarded := transition_guarded status updated_at checkpoint error
  have hmoved : Moved e status (Table.assign (transitionUpdates status updated_at checkpoint error) e) := by
    rw [← setFields_transitionUpdates]
    exact ⟨hguarded.fixed e, (hguarded.moves e (mem_allowedOldStatuses.mpr he)).2⟩
  refine ⟨trivial, fun i => ⟨(w.write 0 (.update e.id (transitionUpdates status updated_at checkpoint (error.map .text))
    (some (allowedOldStatuses status))) e.id t true, .ok true), ?_, h _ _ hmoved ?_⟩⟩
  · change exec 0 _ w (.update ..) = _
    rw [exec, ht]
  · intro i
    rw [hmoved.same.1]
    exact hfind i

lemma transitionTo_finishes {e : LedgerEntry} {status : Status} {checkpoint : Option Dict}
    {Q : Except Exc LedgerEntry → World → Prop} (error : Option String) (hrow : w.table.find? e.id = some e) (he : Edge e.status status)
    (hc : checkpoint.bind refusedDict = none)
    (hQ : ∀ row v, Moved e status row → Wrote w v row → Q (.ok (Table.rowToEntry row)) v) :
    Finishes clock uuid Q (transitionTo e.id status checkpoint (error.map .text)) w := by
  apply finishes_utcMs
  intro z
  apply finishes_update hrow he hc (int64_toInt z)
  intro row v hmoved hv
  apply finishes_get (i := e.id)
  have hfind := hv.find?
  rw [hmoved.same.1] at hfind
  rw [hfind]
  exact ⟨trivial, hQ row v hmoved hv⟩

lemma markRunning_finishes {e : LedgerEntry} {Q : Except Exc LedgerEntry → World → Prop}
    (hrow : w.table.find? e.id = some e) (he : e.status = .pending)
    (hQ : ∀ row v, Moved e .running row → Wrote w v row → Q (.ok (Table.rowToEntry row)) v) :
    Finishes clock uuid Q (markRunning e.id none) w := by
  rw [markRunning, show "running" = Status.running.text from rfl, transition_text]
  exact transitionTo_finishes none hrow (he ▸ by decide) rfl hQ

lemma markFailed_finishes {e : LedgerEntry} {error : String} {Q : Except Exc LedgerEntry → World → Prop}
    (hrow : w.table.find? e.id = some e) (he : e.status = .running)
    (hQ : ∀ row v, Moved e .failed row → Wrote w v row → Q (.ok (Table.rowToEntry row)) v) :
    Finishes clock uuid Q (markFailed e.id error none) w := by
  rw [markFailed, show "failed" = Status.failed.text from rfl, transition_text]
  exact transitionTo_finishes (some error) hrow (he ▸ by decide) rfl hQ

/-- A checkpoint that is not JSON leaves the row as it is. -/
lemma markCompleted_finishes {e : LedgerEntry} {checkpoint : Dict}
    {Q : Except Exc LedgerEntry → World → Prop}
    (hrow : w.table.find? e.id = some e) (he : e.status = .running)
    (hok : ∀ row v, Moved e .completed row → Wrote w v row → Q (.ok (Table.rowToEntry row)) v)
    (hraise : ∀ class_name, refusedDict checkpoint = some class_name → Q (.error (.type class_name)) w) :
    Finishes clock uuid Q (markCompleted e.id (some checkpoint)) w := by
  rw [markCompleted, show "completed" = Status.completed.text from rfl, transition_text]
  cases hc : refusedDict checkpoint with
  | none => exact transitionTo_finishes none hrow (he ▸ by decide) hc hok
  | some class_name =>
    apply finishes_utcMs
    intro z
    refine ⟨trivial, fun i => ⟨(w, .error (.type class_name)), ?_, trivial, hraise _ hc⟩⟩
    change exec 0 _ w (.update ..) = _
    rw [exec, Table.update, setFields_transitionUpdates, transitionUpdates_refused, Option.bind_some, hc]

end Calls

end OpsSentry.Ledger
