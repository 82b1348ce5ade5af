import OpsSentry.Foundation.Keyset
import OpsSentry.Ledger.Entry
import Mathlib.Data.List.Nodup

/-! `sqlite_ledger_storage.py`: each method is one SQL statement with its commit, a function
of the table. A `checkpoint` or `metadata` column holds the JSON text of a dict; the dict
stands for it here. -/

namespace OpsSentry.Ledger

open Foundation.Keyset Foundation.Programs Foundation.Strings Foundation.Values

/-- The table, whose primary key keeps the ids apart. -/
structure Table where
  rows : List LedgerEntry
  nodup : (rows.map LedgerEntry.id).Nodup

/-- A column with its new value, a Python string or the text that stands for it. -/
inductive Assignment (σ : Type := String)
  | id (v : σ)
  | action (v : σ)
  | status (v : Status)
  | checkpoint (v : Dict)
  | created_at (v : ℤ)
  | updated_at (v : ℤ)
  | accio_ref (v : Option σ)
  | metadata (v : Dict)
  | last_error (v : Option σ)

namespace Assignment

variable {σ : Type}

def immutable : Assignment σ → Bool
  | id _ | created_at _ => true
  | _ => false

def refused : Assignment σ → Option String
  | checkpoint v | metadata v => refusedDict v
  | _ => none

def apply (e : LedgerEntry) : Assignment → LedgerEntry
  | id v => { e with id := v }
  | action v => { e with action := v }
  | status v => { e with status := v }
  | checkpoint v => { e with checkpoint := v }
  | created_at v => { e with created_at := v }
  | updated_at v => { e with updated_at := v }
  | accio_ref v => { e with accio_ref := v }
  | metadata v => { e with metadata := v }
  | last_error v => { e with last_error := v }

def toPy : Assignment → Assignment PyStr
  | id v => id (.text v)
  | action v => action (.text v)
  | status v => status v
  | checkpoint v => checkpoint v
  | created_at v => created_at v
  | updated_at v => updated_at v
  | accio_ref v => accio_ref (v.map .text)
  | metadata v => metadata v
  | last_error v => last_error (v.map .text)

def bind : Assignment PyStr → Except Exc Assignment
  | id v => id <$> bindText v
  | action v => action <$> bindText v
  | status v => .ok (status v)
  | checkpoint v => .ok (checkpoint v)
  | created_at v => created_at <$> bindInt v
  | updated_at v => updated_at <$> bindInt v
  | accio_ref v => accio_ref <$> bindOptional v
  | metadata v => .ok (metadata v)
  | last_error v => last_error <$> bindOptional v

def Storable : Assignment → Prop
  | created_at v | updated_at v => int64 v = true
  | _ => True

@[simp] lemma immutable_toPy (a : Assignment) : a.toPy.immutable = a.immutable := by cases a <;> rfl

@[simp] lemma refused_toPy (a : Assignment) : a.toPy.refused = a.refused := by cases a <;> rfl

lemma toPy_injective : Function.Injective toPy := by
  intro a b h
  cases a <;> cases b <;> simp_all [toPy]
  all_goals exact Option.map_injective (fun _ _ => PyStr.text.inj) h

lemma bind_eq_ok {a : Assignment PyStr} {b : Assignment} : a.bind = .ok b ↔ a = b.toPy ∧ b.Storable := by
  cases a <;> cases b <;>
    simp [bind, toPy, Storable, map_eq_ok, bindText_eq_ok, bindInt_eq_ok, bindOptional_eq_ok]

/-- The values are bound in their order. -/
lemma mapM_bind_eq_ok {updates : List (Assignment PyStr)} {fields : List Assignment} :
    updates.mapM bind = .ok fields ↔ updates = fields.map toPy ∧ ∀ a ∈ fields, a.Storable := by
  induction updates generalizing fields with
  | nil =>
    rw [List.mapM_nil]
    cases fields <;> simp [pure, Except.pure]
  | cons a updates ih =>
    rw [List.mapM_cons]
    constructor
    · intro h
      obtain ⟨b, hb, h⟩ := Foundation.Programs.bind_eq_ok h
      obtain ⟨bs, hbs, h⟩ := Foundation.Programs.bind_eq_ok h
      cases h
      obtain ⟨rfl, hstorable⟩ := bind_eq_ok.mp hb
      obtain ⟨rfl, hall⟩ := ih.mp hbs
      exact ⟨rfl, List.forall_mem_cons.mpr ⟨hstorable, hall⟩⟩
    · rintro ⟨h, hall⟩
      cases fields with
      | nil => cases h
      | cons b bs =>
        obtain ⟨rfl, rfl⟩ := List.cons.inj h
        obtain ⟨hstorable, hall⟩ := List.forall_mem_cons.mp hall
        rw [bind_eq_ok.mpr ⟨rfl, hstorable⟩, ih.mpr ⟨rfl, hall⟩]
        rfl

end Assignment

namespace Table

def empty : Table := ⟨[], List.nodup_nil⟩

def find? (t : Table) (entry_id : String) : Option LedgerEntry := t.rows.find? (·.id == entry_id)

/-- `_row_to_entry` and `from_record`: an empty `accio_ref` reads back as `None`. -/
def rowToEntry (row : LedgerEntry) : LedgerEntry :=
  { row with accio_ref := row.accio_ref.filter (· ≠ "") }

/-- The row with this id; there is none under a string that cannot be bound. -/
def row? (t : Table) : PyStr → Option LedgerEntry
  | .text entry_id => t.find? entry_id
  | .lone _ => none

def get (t : Table) (entry_id : PyStr) : Except Exc (Option LedgerEntry) := do
  let entry_id ← bindText entry_id
  pure ((t.find? entry_id).map rowToEntry)

@[simp] lemma row?_text (t : Table) (entry_id : String) : t.row? (.text entry_id) = t.find? entry_id := rfl

@[simp] lemma get_text (t : Table) (entry_id : String) : t.get (.text entry_id) = .ok ((t.find? entry_id).map rowToEntry) := rfl

/-- `WHERE (created_at, id) > cursor ORDER BY created_at, id ASC LIMIT limit`. -/
def getIncremental (t : Table) (cursor : ℤ ×ₗ String) (limit : ℕ) : List LedgerEntry :=
  (page LedgerEntry.key t.rows cursor limit).map rowToEntry

@[simp] lemma rowToEntry_key (row : LedgerEntry) : (rowToEntry row).key = row.key := rfl

@[simp] lemma rowToEntry_id (row : LedgerEntry) : (rowToEntry row).id = row.id := rfl

lemma rowToEntry_eq_self {row : LedgerEntry} (h : row.accio_ref ≠ some "") : rowToEntry row = row := by
  have hfilter : row.accio_ref.filter (· ≠ "") = row.accio_ref := by
    cases haccio : row.accio_ref with
    | none => rfl
    | some s =>
      have hne : s ≠ "" := fun hs => h (hs ▸ haccio)
      simp [hne]
  rw [rowToEntry, hfilter]

lemma nodup_keys (t : Table) : (t.rows.map LedgerEntry.key).Nodup := by
  have h : (t.rows.map LedgerEntry.key).map (fun k => (ofLex k).2) = t.rows.map LedgerEntry.id := by
    rw [List.map_map]
    rfl
  exact List.Nodup.of_map _ (h ▸ t.nodup)

def insert (t : Table) (row : LedgerEntry) : Except Exc Table :=
  if h : row.id ∈ t.rows.map LedgerEntry.id then .error .integrity
  else .ok
    { rows := t.rows ++ [row]
      nodup := by
        rw [List.map_append, List.nodup_append]
        refine ⟨t.nodup, List.nodup_singleton _, ?_⟩
        intro a ha b hb hab
        rw [List.map_singleton, List.mem_singleton] at hb
        exact h (hb ▸ hab ▸ ha) }

def append (t : Table) (entry : LedgerEntry PyStr) : Except Exc Table := do
  let row ← entry.bind
  t.insert row

/-- The WHERE clause: an `expected_statuses` that is `None` or empty adds no condition. -/
def matching (entry_id : String) (expected_statuses : Option (List Status)) (e : LedgerEntry) : Bool :=
  e.id == entry_id &&
    match expected_statuses with
    | none | some [] => true
    | some ss => decide (e.status ∈ ss)

def assign (fields : List Assignment) (e : LedgerEntry) : LedgerEntry := fields.foldl Assignment.apply e

lemma assign_id {fields : List Assignment} (h : ∀ a ∈ fields, a.immutable = false) (e : LedgerEntry) :
    (assign fields e).id = e.id ∧ (assign fields e).created_at = e.created_at := by
  induction fields generalizing e with
  | nil => exact ⟨rfl, rfl⟩
  | cons a fields ih =>
    obtain ⟨hid, hcr⟩ := ih (fun b hb => h b (List.mem_cons_of_mem a hb)) (a.apply e)
    have ha := h a List.mem_cons_self
    refine ⟨hid.trans ?_, hcr.trans ?_⟩ <;> cases a <;> first | rfl | cases ha

def setFields {σ : Type} (updates : List (Assignment σ)) : List (Assignment σ) := updates.filter fun a => !a.immutable

lemma setFields_mutable {σ : Type} (updates : List (Assignment σ)) : ∀ a ∈ setFields updates, a.immutable = false := by
  intro a ha
  simpa using (List.mem_filter.mp ha).2

lemma setFields_eq_self {σ : Type} {fields : List (Assignment σ)} (h : ∀ a ∈ fields, a.immutable = false) :
    setFields fields = fields := by
  apply List.filter_eq_self.mpr
  intro a ha
  simp [h a ha]

def updated (fields : List Assignment) (entry_id : String) (expected_statuses : Option (List Status))
    (e : LedgerEntry) : LedgerEntry :=
  if matching entry_id expected_statuses e then assign (setFields fields) e else e

lemma updated_id (fields : List Assignment) (entry_id : String) (expected : Option (List Status))
    (e : LedgerEntry) : (updated fields entry_id expected e).id = e.id := by
  rw [updated]
  split
  · exact (assign_id (setFields_mutable fields) e).1
  · rfl

/-- The UPDATE with its values bound, and whether it affects a row. -/
def set (t : Table) (entry_id : String) (fields : List Assignment) (expected_statuses : Option (List Status)) :
    Table × Bool :=
  ({ rows := t.rows.map (updated fields entry_id expected_statuses)
     nodup := by
      rw [List.map_map, Function.comp_def]
      simpa only [updated_id] using t.nodup },
   t.rows.any (matching entry_id expected_statuses))

def update (t : Table) (entry_id : PyStr) (updates : List (Assignment PyStr))
    (expected_statuses : Option (List Status)) : Except Exc (Table × Bool) :=
  match (setFields updates).findSome? Assignment.refused with
  | some class_name => .error (.type class_name)
  | none =>
    if setFields updates = [] then .ok (t, true)
    else do
      let fields ← (setFields updates).mapM Assignment.bind
      let entry_id ← bindText entry_id
      pure (t.set entry_id fields expected_statuses)

/-- The rows that a DELETE leaves. -/
def remove (t : Table) (entry_id : String) : Table where
  rows := t.rows.filter (·.id != entry_id)
  nodup := t.nodup.sublist (List.filter_sublist.map _)

def delete (t : Table) (entry_id : PyStr) : Except Exc Table := do
  let entry_id ← bindText entry_id
  pure (t.remove entry_id)

lemma find?_id {t : Table} {i : String} {e : LedgerEntry} (h : t.find? i = some e) : e.id = i := by
  have hp := List.find?_some h
  exact eq_of_beq hp

lemma find?_of_mem {t : Table} {e : LedgerEntry} (h : e ∈ t.rows) : t.find? e.id = some e := by
  cases hf : t.find? e.id with
  | none =>
    have hn := List.find?_eq_none.mp hf e h
    exact absurd (beq_self_eq_true e.id) hn
  | some e' =>
    have hm : e' ∈ t.rows := List.mem_of_find?_eq_some hf
    rw [List.inj_on_of_nodup_map t.nodup hm h (find?_id hf)]

section Insertions

variable {t t' : Table} {row : LedgerEntry} {entry : LedgerEntry PyStr}

lemma insert_ok (h : t.insert row = .ok t') :
    t.find? row.id = none ∧ ∀ i, t'.find? i = if i = row.id then some row else t.find? i := by
  rw [insert] at h
  split at h
  · cases h
  · rename_i hnot
    have hnone : t.find? row.id = none := by
      apply List.find?_eq_none.mpr
      intro e he hid
      exact hnot (List.mem_map.mpr ⟨e, he, eq_of_beq hid⟩)
    refine ⟨hnone, ?_⟩
    intro i
    cases h
    simp only [find?] at hnone ⊢
    rw [List.find?_append]
    by_cases hi : i = row.id
    · subst i
      rw [hnone]
      simp
    · have hne : (row.id == i) = false := beq_false_of_ne (Ne.symm hi)
      simp [hi, hne]

lemma insert_free (h : t.find? row.id = none) : ∃ t', t.insert row = .ok t' := by
  have hnot : row.id ∉ t.rows.map LedgerEntry.id := by
    intro hmem
    obtain ⟨e, he, hid⟩ := List.mem_map.mp hmem
    rw [← hid, find?_of_mem he] at h
    cases h
  rw [insert]
  exact ⟨_, dif_neg hnot⟩

lemma insert_rows (h : t.insert row = .ok t') : t'.rows = t.rows ++ [row] := by
  rw [insert] at h
  split at h <;> cases h
  rfl

lemma append_eq_ok : t.append entry = .ok t' ↔ ∃ row, entry = row.toPy ∧ row.Storable ∧ t.insert row = .ok t' := by
  constructor
  · intro h
    rw [append] at h
    obtain ⟨row, hrow, hinsert⟩ := bind_eq_ok h
    obtain ⟨rfl, hstorable⟩ := LedgerEntry.bind_eq_ok.mp hrow
    exact ⟨row, rfl, hstorable, hinsert⟩
  · rintro ⟨row, rfl, hstorable, h⟩
    rw [append, LedgerEntry.bind_toPy hstorable]
    exact h

lemma append_free (h : t.find? row.id = none) (hrow : row.Storable) :
    ∃ t', t.append row.toPy = .ok t' ∧ t.insert row = .ok t' := by
  obtain ⟨t', ht⟩ := insert_free h
  exact ⟨t', append_eq_ok.mpr ⟨row, rfl, hrow, ht⟩, ht⟩

end Insertions

section Updates

variable {t t' : Table} {entry_id : String} {fields : List Assignment} {updates : List (Assignment PyStr)}
  {expected : Option (List Status)}

/-- What an UPDATE that is executed sets. -/
structure Sets (updates : List (Assignment PyStr)) (fields : List Assignment) : Prop where
  values : setFields updates = fields.map Assignment.toPy
  nonempty : fields ≠ []
  json : fields.findSome? Assignment.refused = none
  storable : ∀ a ∈ fields, a.Storable

lemma Sets.mutable (h : Sets updates fields) : ∀ a ∈ fields, a.immutable = false := by
  intro a ha
  have hmem : a.toPy ∈ setFields updates := h.values ▸ List.mem_map_of_mem ha
  rw [← Assignment.immutable_toPy]
  exact setFields_mutable updates _ hmem

lemma findSome?_toPy (fields : List Assignment) :
    (fields.map Assignment.toPy).findSome? Assignment.refused = fields.findSome? Assignment.refused := by
  rw [List.findSome?_map]
  congr 1
  exact funext Assignment.refused_toPy

lemma update_of_sets (h : Sets updates fields) :
    t.update (.text entry_id) updates expected = .ok (t.set entry_id fields expected) := by
  have hbind : (setFields updates).mapM Assignment.bind = .ok fields :=
    Assignment.mapM_bind_eq_ok.mpr ⟨h.values, h.storable⟩
  have hne : setFields updates ≠ [] := by
    rw [h.values]
    simpa using h.nonempty
  rw [update, h.values, findSome?_toPy, h.json, ← h.values]
  simp only [if_neg hne, hbind, bindText_text]
  rfl

/-- An update that raises nothing has nothing to set, or executes the UPDATE. -/
lemma update_eq_ok {i : PyStr} {r : Table × Bool} : t.update i updates expected = .ok r ↔
    setFields updates = [] ∧ r = (t, true) ∨
      ∃ entry_id fields, i = .text entry_id ∧ Sets updates fields ∧ r = t.set entry_id fields expected := by
  constructor
  · intro h
    rw [update] at h
    split at h
    · cases h
    · rename_i hjson
      split at h
      · rename_i hnil
        cases h
        exact .inl ⟨hnil, rfl⟩
      · rename_i hne
        obtain ⟨fields, hfields, h⟩ := bind_eq_ok h
        obtain ⟨entry_id, hid, h⟩ := bind_eq_ok h
        cases h
        obtain ⟨hvalues, hstorable⟩ := Assignment.mapM_bind_eq_ok.mp hfields
        refine .inr ⟨entry_id, fields, bindText_eq_ok.mp hid, ⟨hvalues, ?_, ?_, hstorable⟩, rfl⟩
        · rintro rfl
          exact hne hvalues
        · rw [← findSome?_toPy, ← hvalues, hjson]
  · rintro (⟨hnil, rfl⟩ | ⟨entry_id, fields, rfl, hsets, rfl⟩)
    · rw [update, hnil]
      rfl
    · exact update_of_sets hsets

lemma find?_set (i : String) :
    (t.set entry_id fields expected).1.find? i = (t.find? i).map (updated fields entry_id expected) := by
  simp only [set, find?, List.find?_map, Function.comp_def, updated_id]

lemma set_affects : (t.set entry_id fields expected).2 = true ↔
    ∃ e, t.find? entry_id = some e ∧ matching entry_id expected e = true := by
  change t.rows.any (matching entry_id expected) = true ↔ _
  rw [List.any_eq_true]
  constructor
  · rintro ⟨e, he, hm⟩
    have hid : e.id = entry_id := eq_of_beq (Bool.and_eq_true_iff.mp hm).1
    exact ⟨e, hid ▸ find?_of_mem he, hm⟩
  · rintro ⟨e, he, hm⟩
    exact ⟨e, List.mem_of_find?_eq_some he, hm⟩

lemma set_other {i : String} (hi : i ≠ entry_id) : (t.set entry_id fields expected).1.find? i = t.find? i := by
  rw [find?_set]
  cases hfind : t.find? i with
  | none => rfl
  | some e =>
    have hne : (e.id == entry_id) = false := by
      rw [find?_id hfind]
      exact beq_false_of_ne hi
    simp [updated, matching, hne]

end Updates

lemma assign_key {fields : List Assignment} (h : ∀ a ∈ fields, a.immutable = false) (e : LedgerEntry) :
    (assign fields e).key = e.key := by
  obtain ⟨hid, hcr⟩ := assign_id h e
  rw [LedgerEntry.key, hid, hcr]
  rfl

lemma set_keys (t : Table) (entry_id : String) (fields : List Assignment) (expected : Option (List Status)) :
    (t.set entry_id fields expected).1.rows.map LedgerEntry.key = t.rows.map LedgerEntry.key := by
  have hkey : ∀ e, (updated fields entry_id expected e).key = e.key := by
    intro e
    rw [updated]
    split
    · exact assign_key (setFields_mutable fields) e
    · rfl
  rw [set, List.map_map]
  exact List.map_congr_left fun e _ => hkey e

lemma find?_last {t : Table} {pre : List LedgerEntry} {e : LedgerEntry} (h : t.rows = pre ++ [e]) :
    t.find? e.id = some e := by
  apply find?_of_mem
  rw [h]
  exact List.mem_append_right pre (List.mem_singleton_self e)

lemma set_last {t : Table} {pre : List LedgerEntry} {e : LedgerEntry} (fields : List Assignment)
    (expected : Option (List Status)) (hrows : t.rows = pre ++ [e]) :
    (t.set e.id fields expected).2 = matching e.id expected e ∧
      (t.set e.id fields expected).1.rows = pre ++ [updated fields e.id expected e] := by
  have hother : ∀ f ∈ pre, (f.id == e.id) = false := by
    intro f hf
    apply beq_false_of_ne
    intro hid
    have hnodup := t.nodup
    rw [hrows, List.map_append, List.map_singleton] at hnodup
    exact List.disjoint_of_nodup_append hnodup (List.mem_map_of_mem hf) (hid ▸ List.mem_singleton_self _)
  have hsame : pre.map (updated fields e.id expected) = pre := by
    calc pre.map (updated fields e.id expected) = pre.map id :=
          List.map_congr_left fun f hf => by simp [updated, matching, hother f hf]
      _ = pre := List.map_id pre
  have hany : pre.any (matching e.id expected) = false := by
    apply List.any_eq_false.mpr
    intro f hf
    simp [matching, hother f hf]
  constructor
  · change t.rows.any (matching e.id expected) = _
    rw [hrows, List.any_append, hany, Bool.false_or]
    simp
  · change t.rows.map (updated fields e.id expected) = _
    rw [hrows, List.map_append, hsame, List.map_singleton]

lemma find?_remove (t : Table) (entry_id i : String) :
    (t.remove entry_id).find? i = if i = entry_id then none else t.find? i := by
  rw [find?, remove]
  rw [List.find?_filter]
  split
  · rename_i hi
    subst i
    apply List.find?_eq_none.mpr
    simp
  · rename_i hi
    congr 1
    funext e
    by_cases he : e.id = i
    · have hne : e.id ≠ entry_id := fun h => hi (he.symm.trans h)
      simp [he, hi]
    · simp [he]

end Table

end OpsSentry.Ledger
