import OpsSentry.Ledger.Storage

/-! What `SQLiteLedgerStorage.update` promises, and when it does so: the row, the columns and the
answer. -/

namespace OpsSentry.Ledger.GuardedUpdate

open Foundation.Strings

inductive Column
  | id
  | action
  | status
  | checkpoint
  | created_at
  | updated_at
  | accio_ref
  | metadata
  | last_error
deriving DecidableEq

inductive Cell
  | text (v : Option PyStr)
  | status (v : Status)
  | json (v : Foundation.Values.Dict)
  | int (v : ℤ)

def Column.of {σ : Type} : Assignment σ → Column
  | .id _ => id
  | .action _ => action
  | .status _ => status
  | .checkpoint _ => checkpoint
  | .created_at _ => created_at
  | .updated_at _ => updated_at
  | .accio_ref _ => accio_ref
  | .metadata _ => metadata
  | .last_error _ => last_error

/-- The new value of the column. -/
def Cell.of : Assignment PyStr → Cell
  | .id v | .action v => text (some v)
  | .status v => status v
  | .checkpoint v | .metadata v => json v
  | .created_at v | .updated_at v => int v
  | .accio_ref v | .last_error v => text v

def Column.cell (row : LedgerEntry) : Column → Cell
  | id => .text (some (.text row.id))
  | action => .text (some (.text row.action))
  | status => .status row.status
  | checkpoint => .json row.checkpoint
  | created_at => .int row.created_at
  | updated_at => .int row.updated_at
  | accio_ref => .text (row.accio_ref.map .text)
  | metadata => .json row.metadata
  | last_error => .text (row.last_error.map .text)

/-- A dict has no key twice. -/
structure Updates where
  fields : List (Assignment PyStr)
  distinct : (fields.map Column.of).Nodup

/-- The row is there, in a status that is expected if any are. -/
def Admitted (t : Table) (entry_id : PyStr) (expected_statuses : Option (List Status)) : Prop :=
  ∃ row, t.row? entry_id = some row ∧ ∀ statuses, expected_statuses = some statuses → row.status ∈ statuses

/-- The columns named in the dict, apart from `id` and `created_at`, have their new values, and the
others those that they had. -/
structure Takes (updates : Updates) (row row' : LedgerEntry) : Prop where
  named : ∀ a ∈ updates.fields, a.immutable = false → (Column.of a).cell row' = Cell.of a
  others : ∀ column, (∀ a ∈ updates.fields, a.immutable = false → Column.of a ≠ column) →
    Column.cell row' column = Column.cell row column

/-- What is promised of a call that has come back, or has raised and left the table as it was. -/
def Promised (t : Table) (entry_id : PyStr) (updates : Updates) (expected_statuses : Option (List Status)) :
    Except Exc (Table × Bool) → Prop
  | .error _ => ¬ Admitted t entry_id expected_statuses
  | .ok (t', returned) =>
    (returned = true ↔ Admitted t entry_id expected_statuses) ∧
    (Admitted t entry_id expected_statuses → ∃ row row', t.row? entry_id = some row ∧
      t'.row? entry_id = some row' ∧ Takes updates row row') ∧
    (¬ Admitted t entry_id expected_statuses → t' = t) ∧
    ∀ i, i ≠ entry_id → t'.row? i = t.row? i

/-- `json.dumps` or `sqlite3` refuses the value. -/
def Unstorable (a : Assignment PyStr) : Bool := a.refused.isSome || !a.bind.isOk

/-- A value that is refused makes the call raise, so no row may match; a dict with nothing to set is
accepted, so a row must; and an empty sequence of statuses asks nothing of the row, so there may
be none. -/
def Condition (t : Table) (entry_id : PyStr) (updates : Updates) (expected_statuses : Option (List Status)) : Prop :=
  if (Table.setFields updates.fields).any Unstorable then ¬ Admitted t entry_id expected_statuses
  else if updates.fields.all Assignment.immutable then Admitted t entry_id expected_statuses
  else expected_statuses = some [] → t.row? entry_id = none

section Columns

variable {fields : List Assignment} {a : Assignment} {row : LedgerEntry} {column : Column}

lemma column_of_toPy (a : Assignment) : Column.of a.toPy = Column.of a := by cases a <;> rfl

lemma cell_apply_self : (Column.of a).cell (a.apply row) = Cell.of a.toPy := by
  cases a <;> rfl

lemma cell_apply_other (h : Column.of a ≠ column) : column.cell (a.apply row) = column.cell row := by
  cases a <;> cases column <;> first | rfl | exact absurd rfl h

lemma cell_assign_other (h : ∀ a ∈ fields, Column.of a ≠ column) :
    column.cell (Table.assign fields row) = column.cell row := by
  induction fields generalizing row with
  | nil => rfl
  | cons a fields ih =>
    have htail : ∀ b ∈ fields, Column.of b ≠ column := fun b hb => h b (List.mem_cons_of_mem a hb)
    calc column.cell (Table.assign (a :: fields) row) = column.cell (Table.assign fields (a.apply row)) := rfl
      _ = column.cell (a.apply row) := ih htail
      _ = column.cell row := cell_apply_other (h a List.mem_cons_self)

lemma cell_assign_mem (hdistinct : (fields.map Column.of).Nodup) (ha : a ∈ fields) :
    (Column.of a).cell (Table.assign fields row) = Cell.of a.toPy := by
  induction fields generalizing row with
  | nil => cases ha
  | cons b fields ih =>
    rw [List.map_cons, List.nodup_cons] at hdistinct
    obtain ⟨hnew, hdistinct⟩ := hdistinct
    rcases List.mem_cons.mp ha with rfl | ha
    · have hother : ∀ c ∈ fields, Column.of c ≠ Column.of a := fun c hc hsame =>
        hnew (hsame ▸ List.mem_map_of_mem hc)
      exact (cell_assign_other hother).trans cell_apply_self
    · exact ih hdistinct ha

lemma takes_nothing {updates : Updates} (h : Table.setFields updates.fields = []) (row : LedgerEntry) :
    Takes updates row row where
  named a ha hmutable := by
    have hmem : a ∈ Table.setFields updates.fields := List.mem_filter.mpr ⟨ha, by simp [hmutable]⟩
    rw [h] at hmem
    cases hmem
  others _ _ := rfl

lemma takes_assign {updates : Updates} (h : Table.Sets updates.fields fields) (row : LedgerEntry) :
    Takes updates row (Table.assign fields row) where
  named a ha hmutable := by
    have hmem : a ∈ fields.map Assignment.toPy := h.values ▸ List.mem_filter.mpr ⟨ha, by simp [hmutable]⟩
    obtain ⟨b, hb, rfl⟩ := List.mem_map.mp hmem
    rw [column_of_toPy]
    apply cell_assign_mem _ hb
    have hsub : (Table.setFields updates.fields).Sublist updates.fields := List.filter_sublist
    have hdistinct := updates.distinct.sublist (hsub.map Column.of)
    rw [h.values, List.map_map] at hdistinct
    have hsame : Column.of ∘ Assignment.toPy = Column.of := funext column_of_toPy
    rwa [hsame] at hdistinct
  others column hothers := by
    apply cell_assign_other
    intro a ha
    have hmem : a.toPy ∈ Table.setFields updates.fields := h.values ▸ List.mem_map_of_mem ha
    obtain ⟨hfield, hmutable⟩ := List.mem_filter.mp hmem
    rw [← column_of_toPy]
    exact hothers a.toPy hfield (by simpa using hmutable)

end Columns

section Values

variable {updates : List (Assignment PyStr)} {fields : List Assignment}

lemma unstorable_iff {a : Assignment PyStr} :
    Unstorable a = false ↔ ∃ b : Assignment, a = b.toPy ∧ b.Storable ∧ b.refused = none := by
  rw [Unstorable, Bool.or_eq_false_iff]
  constructor
  · rintro ⟨hjson, hbind⟩
    cases hb : a.bind with
    | error e =>
      rw [hb] at hbind
      cases hbind
    | ok b =>
      obtain ⟨rfl, hstorable⟩ := Assignment.bind_eq_ok.mp hb
      exact ⟨b, rfl, hstorable, by simpa using hjson⟩
  · rintro ⟨b, rfl, hstorable, hjson⟩
    simp [Assignment.bind_eq_ok.mpr ⟨rfl, hstorable⟩, hjson, Except.isOk, Except.toBool]

lemma exists_storable (h : ∀ a ∈ updates, Unstorable a = false) : ∃ fields : List Assignment,
    updates = fields.map Assignment.toPy ∧ (∀ b ∈ fields, b.Storable) ∧ ∀ b ∈ fields, b.refused = none := by
  induction updates with
  | nil => exact ⟨[], by simp⟩
  | cons a updates ih =>
    obtain ⟨ha, htail⟩ := List.forall_mem_cons.mp h
    obtain ⟨b, rfl, hstorable, hjson⟩ := unstorable_iff.mp ha
    obtain ⟨fields, rfl, hstorables, hjsons⟩ := ih htail
    exact ⟨b :: fields, rfl, List.forall_mem_cons.mpr ⟨hstorable, hstorables⟩, List.forall_mem_cons.mpr ⟨hjson, hjsons⟩⟩

/-- The UPDATE is executed if there is something to set and all of it can be stored. -/
lemma exists_sets_iff : (∃ fields, Table.Sets updates fields) ↔
    Table.setFields updates ≠ [] ∧ (Table.setFields updates).any Unstorable = false := by
  rw [List.any_eq_false]
  constructor
  · rintro ⟨fields, hvalues, hnonempty, hjson, hstorable⟩
    rw [hvalues]
    refine ⟨by simpa using hnonempty, fun a ha => ?_⟩
    obtain ⟨b, hb, rfl⟩ := List.mem_map.mp ha
    rw [Bool.not_eq_true, unstorable_iff]
    exact ⟨b, rfl, hstorable b hb, List.findSome?_eq_none_iff.mp hjson b hb⟩
  · rintro ⟨hne, hall⟩
    obtain ⟨fields, hvalues, hstorable, hjson⟩ := exists_storable fun a ha => Bool.eq_false_of_not_eq_true (hall a ha)
    refine ⟨fields, hvalues, ?_, List.findSome?_eq_none_iff.mpr hjson, hstorable⟩
    rintro rfl
    exact hne hvalues

lemma setFields_eq_nil_iff : Table.setFields updates = [] ↔ updates.all Assignment.immutable = true := by
  rw [Table.setFields, List.filter_eq_nil_iff, List.all_eq_true]
  simp

end Values

section Rows

variable {t : Table} {entry_id : String} {i : PyStr} {expected_statuses : Option (List Status)} {updates : Updates}
  {fields : List Assignment} {row : LedgerEntry}

/-- The WHERE clause holds of the rows that are admitted, if the statuses are not an empty sequence. -/
lemma matching_iff_of_ne (hrow : t.find? entry_id = some row) (hne : expected_statuses ≠ some []) :
    Table.matching entry_id expected_statuses row = true ↔ Admitted t entry_id expected_statuses := by
  have hid : row.id = entry_id := Table.find?_id hrow
  have hadmitted : Admitted t entry_id expected_statuses ↔
      ∀ statuses, expected_statuses = some statuses → row.status ∈ statuses := by
    constructor
    · rintro ⟨row', hrow', h⟩
      obtain rfl := Option.some.inj (hrow.symm.trans hrow')
      exact h
    · intro h
      exact ⟨row, hrow, h⟩
  rw [hadmitted]
  rcases expected_statuses with _ | (_ | ⟨status, statuses⟩)
  · simp [Table.matching, hid]
  · exact absurd rfl hne
  · simp [Table.matching, hid]

lemma not_admitted_of_absent (h : t.row? i = none) : ¬ Admitted t i expected_statuses := by
  rintro ⟨row, hrow, -⟩
  rw [h] at hrow
  cases hrow

lemma set_unmatched (hnone : ∀ row, t.find? entry_id = some row → Table.matching entry_id expected_statuses row = false) :
    t.set entry_id fields expected_statuses = (t, false) := by
  have hrow : ∀ row ∈ t.rows, Table.matching entry_id expected_statuses row = false := by
    intro row hmem
    by_cases hid : row.id = entry_id
    · exact hnone row (hid ▸ Table.find?_of_mem hmem)
    · simp [Table.matching, hid]
  have hsame : t.rows.map (Table.updated fields entry_id expected_statuses) = t.rows := by
    calc t.rows.map (Table.updated fields entry_id expected_statuses) = t.rows.map id :=
          List.map_congr_left fun row hmem => by simp [Table.updated, hrow row hmem]
      _ = t.rows := List.map_id _
  have hany : t.rows.any (Table.matching entry_id expected_statuses) = false :=
    List.any_eq_false.mpr fun row hmem => by simp [hrow row hmem]
  simp only [Table.set, hsame, hany]

lemma set_matched (fields : List Assignment) (hrow : t.find? entry_id = some row)
    (hmatch : Table.matching entry_id expected_statuses row = true) :
    (t.set entry_id fields expected_statuses).2 = true ∧
      (t.set entry_id fields expected_statuses).1.find? entry_id = some (Table.assign (Table.setFields fields) row) := by
  refine ⟨Table.set_affects.mpr ⟨row, hrow, hmatch⟩, ?_⟩
  rw [Table.find?_set, hrow, Option.map_some, Table.updated, if_pos hmatch]

lemma set_others (i : PyStr) (hi : i ≠ entry_id) :
    (t.set entry_id fields expected_statuses).1.row? i = t.row? i := by
  cases i with
  | text s =>
    apply Table.set_other
    exact fun h => hi (congrArg PyStr.text h)
  | lone s => rfl

lemma promised_iff_of_sets (hsets : Table.Sets updates.fields fields) :
    Promised t entry_id updates expected_statuses (.ok (t.set entry_id fields expected_statuses)) ↔
      (expected_statuses = some [] → t.find? entry_id = none) := by
  cases hrow : t.find? entry_id with
  | none =>
    have hnot : ¬ Admitted t entry_id expected_statuses := not_admitted_of_absent hrow
    have hsame : t.set entry_id fields expected_statuses = (t, false) := set_unmatched (by simp [hrow])
    rw [hsame]
    refine iff_of_true ⟨?_, fun hadmitted => absurd hadmitted hnot, fun _ => rfl, fun _ _ => rfl⟩ fun _ => rfl
    simp [hnot]
  | some row =>
    by_cases hempty : expected_statuses = some []
    · have hnot : ¬ Admitted t entry_id expected_statuses := by
        rintro ⟨row', -, hstatus⟩
        exact List.not_mem_nil (hstatus [] hempty)
      have hmatch : Table.matching entry_id expected_statuses row = true := by
        simp [Table.matching, hempty, Table.find?_id hrow]
      obtain ⟨hreturned, -⟩ := set_matched fields hrow hmatch
      exact iff_of_false (fun hpromised => hnot (hpromised.1.mp hreturned)) fun hnone => by cases hnone hempty
    · have hadmits := matching_iff_of_ne hrow hempty
      refine iff_of_true ?_ fun hsome => absurd hsome hempty
      by_cases hmatch : Table.matching entry_id expected_statuses row = true
      · have hadmitted := hadmits.mp hmatch
        obtain ⟨hreturned, hrow'⟩ := set_matched fields hrow hmatch
        rw [Table.setFields_eq_self hsets.mutable] at hrow'
        exact ⟨iff_of_true hreturned hadmitted, fun _ => ⟨row, _, hrow, hrow', takes_assign hsets row⟩,
          fun hnot => absurd hadmitted hnot, set_others⟩
      · have hnot : ¬ Admitted t entry_id expected_statuses := fun hadmitted => hmatch (hadmits.mpr hadmitted)
        have hsame : t.set entry_id fields expected_statuses = (t, false) :=
          set_unmatched (by simpa [hrow] using hmatch)
        rw [hsame]
        refine ⟨?_, fun hadmitted => absurd hadmitted hnot, fun _ => rfl, fun _ _ => rfl⟩
        simp [hnot]

/-- A dict with nothing to set: the call returns True and does nothing. -/
lemma promised_iff_of_nothing (hfields : Table.setFields updates.fields = []) :
    Promised t i updates expected_statuses (.ok (t, true)) ↔ Admitted t i expected_statuses := by
  constructor
  · intro hpromised
    exact hpromised.1.mp rfl
  · rintro ⟨row, hrow, hstatus⟩
    have hadmitted : Admitted t i expected_statuses := ⟨row, hrow, hstatus⟩
    exact ⟨iff_of_true rfl hadmitted, fun _ => ⟨row, row, hrow, hrow, takes_nothing hfields row⟩, fun _ => rfl,
      fun _ _ => rfl⟩

end Rows

section Unguarded

def backup : LedgerEntry where
  id := "e-1"
  action := "nightly_backup"
  status := .completed
  checkpoint := []
  created_at := 0
  updated_at := 0
  accio_ref := none
  metadata := []
  last_error := none

def oneRow : Table := ⟨[backup], by simp⟩

end Unguarded

end OpsSentry.Ledger.GuardedUpdate
