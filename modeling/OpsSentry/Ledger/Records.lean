import OpsSentry.Foundation.JsonValues
import OpsSentry.Ledger.Migration

/-! The two encodings of a ledger entry, a row of `sqlite_ledger_storage.py` and the JSON text of its
record, and what `from_record` makes of them. -/

namespace OpsSentry.Ledger.Records

open Foundation.JsonText (Digits Floats)
open Foundation.JsonValues Foundation.Programs Foundation.Strings Foundation.Values
open Migration (Conversions fromRecord)

variable {F : Type} (fl : Floats F) (base : Conversions)

/-- `json.loads`, whose `JSONDecodeError` is a `ValueError`. -/
def loads (text : String) : Except Migration.Exc Value :=
  match read fl text with
  | some v => .ok v
  | none => .error .value

def conversions : Conversions := { base with loads := loads fl }

/-- The columns of the table `ledger`. -/
structure Row where
  id : String
  action : String
  status : String
  checkpoint : Option String
  created_at : ℤ
  updated_at : ℤ
  accio_ref : Option String
  metadata : Option String
  last_error : Option String

def Row.key (row : Row) : ℤ ×ₗ String := toLex (row.created_at, row.id)

structure Rows where
  rows : List Row
  nodup : (rows.map Row.id).Nodup

def dumps (v : Dict) : Except Exc String :=
  match refusedDict v with
  | some class_name => .error (.type class_name)
  | none => .ok (write fl (.dict v))

/-- The values of the INSERT statement. -/
def columns (entry : LedgerEntry PyStr) : Except Exc Row := do
  let checkpoint ← dumps fl entry.checkpoint
  let metadata ← dumps fl entry.metadata
  let id ← bindText entry.id
  let action ← bindText entry.action
  let created_at ← bindInt entry.created_at
  let updated_at ← bindInt entry.updated_at
  let accio_ref ← bindOptional entry.accio_ref
  let last_error ← bindOptional entry.last_error
  pure { id, action, status := entry.status.text, checkpoint := some checkpoint, created_at, updated_at, accio_ref,
         metadata := some metadata, last_error }

def optional : Option PyStr → Value
  | none => .null
  | some s => .ofStr s

/-- `json.loads(d[name]) if d[name] else {}`. -/
def column : Option String → Except Migration.Exc Value
  | none => .ok (.dict [])
  | some text => if text = "" then .ok (.dict []) else loads fl text

def dict (row : Row) (checkpoint metadata : Value) : Dict :=
  [("id", .str row.id), ("action", .str row.action), ("status", .str row.status), ("checkpoint", checkpoint),
    ("created_at", .int row.created_at), ("updated_at", .int row.updated_at), ("accio_ref", optional (row.accio_ref.map .text)),
    ("metadata", metadata), ("last_error", optional (row.last_error.map .text))]

/-- `_row_to_entry`; the clock is read for each row anew. -/
def rowToEntry (clock : Row → ℤ × ℤ) (row : Row) : Except Migration.Exc (LedgerEntry PyStr) := do
  let checkpoint ← column fl row.checkpoint
  let metadata ← column fl row.metadata
  fromRecord (conversions fl base) (clock row).1 (clock row).2 (dict row checkpoint metadata)

namespace Rows

def insert (t : Rows) (row : Row) : Except Exc Rows :=
  if h : row.id ∈ t.rows.map Row.id then .error .integrity
  else .ok
    { rows := t.rows ++ [row]
      nodup := by
        rw [List.map_append, List.nodup_append]
        refine ⟨t.nodup, List.nodup_singleton _, ?_⟩
        intro a ha b hb hab
        rw [List.map_singleton, List.mem_singleton] at hb
        exact h (hb ▸ hab ▸ ha) }

def append (t : Rows) (entry : LedgerEntry PyStr) : Except Exc Rows := do
  let row ← columns fl entry
  t.insert row

section Reads

variable (clock : Row → ℤ × ℤ) (t : Rows)

/-- A parameter of a SELECT. -/
def parameter {α : Type} (x : Except Exc α) : Except Migration.Exc α := x.mapError .ledger

def get (entry_id : PyStr) : Except Migration.Exc (Option (LedgerEntry PyStr)) := do
  let entry_id ← parameter (bindText entry_id)
  match t.rows.find? (·.id == entry_id) with
  | none => pure none
  | some row => (rowToEntry fl base clock row).map some

/-- `LIMIT`, which a negative number does not set. -/
def limited (limit : ℤ) (rows : List Row) : List Row := if limit < 0 then rows else rows.take limit.toNat

/-- `if status:` adds the WHERE clause. -/
def wanted (status : Option String) (row : Row) : Bool :=
  match status with
  | none => true
  | some s => s == "" || row.status == s

def listAll (status : Option PyStr) (limit : ℤ) : Except Migration.Exc (List (LedgerEntry PyStr)) := do
  let status ← parameter (bindOptional status)
  let limit ← parameter (bindInt limit)
  (limited limit ((t.rows.filter (wanted status)).mergeSort fun x y => y.key ≤ x.key)).mapM (rowToEntry fl base clock)

def getIncremental (last_created_at : ℤ) (last_id : PyStr) (limit : ℤ) :
    Except Migration.Exc (List (LedgerEntry PyStr)) := do
  let last_created_at ← parameter (bindInt last_created_at)
  let last_id ← parameter (bindText last_id)
  let limit ← parameter (bindInt limit)
  (limited limit ((t.rows.filter fun row => toLex (last_created_at, last_id) < row.key).mergeSort
    fun x y => x.key ≤ y.key)).mapM (rowToEntry fl base clock)

end Reads

end Rows

/-- `LedgerEntry.from_record(json.loads(text))`. -/
def fromText (now later : ℤ) (text : String) : Except Migration.Exc (LedgerEntry PyStr) := do
  match ← loads fl text with
  | .dict record => fromRecord (conversions fl base) now later record
  | _ => .error .type

section Statement

structure Valid {σ : Type} (e : LedgerEntry σ) : Prop where
  checkpoint : IsJson fl (.dict e.checkpoint)
  metadata : IsJson fl (.dict e.metadata)
  created_at : int64 e.created_at = true
  updated_at : int64 e.updated_at = true

/-- The entry is what the reads give of its row, wherever they meet it. -/
structure ReadsBack (e : LedgerEntry PyStr) : Prop where
  appended : ∀ t : Rows, (∀ row ∈ t.rows, e.id ≠ row.id) → ∃ t', t.append fl e = .ok t'
  get : ∀ (t t' : Rows) clock, t.append fl e = .ok t' → t'.get fl base clock e.id = .ok (some e)
  list_all : ∀ (t t' : Rows) clock (status : Option String) limit, int64 limit = true → t.append fl e = .ok t' →
    (∀ row ∈ t.rows, ∃ f, rowToEntry fl base clock row = .ok f) →
      ∃ es, t'.listAll fl base clock (status.map .text) limit = .ok es ∧ (∀ f ∈ es, f.id = e.id → f = e) ∧
        ((status = none ∨ status = some e.status.text) → limit < 0 ∨ t'.rows.length ≤ limit → e ∈ es)
  get_incremental : ∀ (t t' : Rows) clock last_created_at (last_id : String) limit,
    int64 last_created_at = true → int64 limit = true → t.append fl e = .ok t' →
    (∀ row ∈ t.rows, ∃ f, rowToEntry fl base clock row = .ok f) →
      ∃ es, t'.getIncremental fl base clock last_created_at last_id limit = .ok es ∧
        (∀ f ∈ es, f.id = e.id → f = e) ∧
        (∀ id : String, e.id = id → toLex (last_created_at, last_id) < toLex (e.created_at, id) →
          limit < 0 ∨ t'.rows.length ≤ limit → e ∈ es)

/-- The record of the entry survives its JSON text. -/
def RecordedBack (e : LedgerEntry PyStr) : Prop :=
  ∃ text, dumps fl e.toRecord = .ok text ∧ ∀ now later, fromText fl base now later text = .ok e

/-- Every text of the entry has its encoding. -/
def Encodable (e : LedgerEntry PyStr) : Prop := ∃ row : LedgerEntry, e = row

end Statement

/-- What both decoders make of an entry: an empty `accio_ref` reads back as `None`. -/
def reread (e : LedgerEntry PyStr) : LedgerEntry PyStr := { e with accio_ref := e.accio_ref.filter (· ≠ "") }

variable {fl} {base} {e : LedgerEntry} {record : Dict} {t t' : Rows} {clock : Row → ℤ × ℤ} {row : Row}

section Decoder

lemma toDict_dict (kvs : Dict) : Migration.toDict (.dict kvs) = .ok kvs := by
  cases kvs <;> rfl

lemma str_ofStr (conv : Conversions) (s : PyStr) : Migration.str conv (.ofStr s) = s := by
  cases s <;> rfl

lemma optionalStr_optional (v : Option PyStr) : Migration.optionalStr (optional v) = .ok v := by
  rcases v with _ | s | s <;> rfl

lemma optionalStr_orElse (v : Option PyStr) :
    Migration.optionalStr (Migration.orElse (optional v) .null) = .ok (v.filter (· ≠ "")) := by
  rcases v with _ | s | s
  · rfl
  · rw [Option.filter_some]
    by_cases hs : s = "" <;> simp [Migration.orElse, optional, Value.ofStr, Value.truthy, Migration.optionalStr, hs]
  · rfl

/-- The keys of an entry, under which both encodings keep its fields. -/
structure Holds (record : Dict) (e : LedgerEntry PyStr) : Prop where
  id : record.lookup (.text "id") = some (.ofStr e.id)
  action : record.lookup (.text "action") = some (.ofStr e.action)
  status : record.lookup (.text "status") = some (.str e.status.text)
  checkpoint : record.lookup (.text "checkpoint") = some (.dict e.checkpoint)
  created_at : record.lookup (.text "created_at") = some (.int e.created_at)
  updated_at : record.lookup (.text "updated_at") = some (.int e.updated_at)
  accio_ref : Migration.getD record "accio_ref" .null = optional e.accio_ref
  accio_task_ref : record.lookup (.text "accio_task_ref") = none
  metadata : record.lookup (.text "metadata") = some (.dict e.metadata)
  last_error : Migration.getD record "last_error" .null = optional e.last_error

lemma Holds.fromRecord {e : LedgerEntry PyStr} (h : Holds record e) (conv : Conversions) (now later : ℤ) :
    fromRecord conv now later record = .ok (reread e) := by
  have haccio := h.accio_ref
  have hlast := h.last_error
  rw [Migration.getD] at haccio hlast
  have hstatus : Status.of? (Migration.str conv (.str e.status.text)) = some e.status := Status.ofText?_text e.status
  rw [Migration.fromRecord]
  simp only [Migration.item, Migration.getD, h.id, h.action, h.status, h.checkpoint, h.created_at, h.updated_at,
    h.accio_task_ref, h.metadata, Option.getD_some, Option.getD_none, toDict_dict, Migration.int, hstatus]
  rw [haccio, hlast, optionalStr_orElse, optionalStr_optional]
  change Except.ok { reread e with
    id := Migration.str conv (.ofStr e.id)
    action := Migration.str conv (.ofStr e.action) } = _
  rw [str_ofStr, str_ofStr]
  rfl

lemma holds_toRecord (e : LedgerEntry PyStr) : Holds e.toRecord e := by
  obtain ⟨id, action, status, checkpoint, created_at, updated_at, accio_ref, metadata, last_error⟩ := e
  cases accio_ref <;> cases last_error <;> constructor <;> rfl

lemma valid_toPy_iff : Valid fl e.toPy ↔ Valid fl e :=
  ⟨fun h => ⟨h.checkpoint, h.metadata, h.created_at, h.updated_at⟩,
    fun h => ⟨h.checkpoint, h.metadata, h.created_at, h.updated_at⟩⟩

/-- The table of entries that the other modules read stands for this one. -/
lemma reread_toPy (e : LedgerEntry) : reread e = (Table.rowToEntry e).toPy := by
  cases haccio : e.accio_ref with
  | none => simp [reread, LedgerEntry.toPy, Table.rowToEntry, haccio]
  | some s => by_cases hs : s = "" <;> simp [reread, LedgerEntry.toPy, Table.rowToEntry, haccio, hs, Option.filter_some]

lemma isJson_toRecord (h : Valid fl e) : IsJson fl (.dict e.toPy.toRecord) := by
  obtain ⟨hcheckpoint, hmetadata, -, -⟩ := h
  obtain ⟨id, action, status, checkpoint, created_at, updated_at, accio_ref, metadata, last_error⟩ := e
  cases accio_ref <;> cases last_error <;>
    simp [IsJson, IsText, LedgerEntry.toRecord, LedgerEntry.toPy, Value.ofStr, IsJsonFields, hcheckpoint.1, hcheckpoint.2,
      hmetadata.1, hmetadata.2]

end Decoder

section Columns

lemma dumps_isJson {v : Dict} (h : IsJson fl (.dict v)) : dumps fl v = .ok (write fl (.dict v)) := by
  rw [dumps, refusedDict_isJson v h.2]

lemma loads_write {v : Value} (h : IsJson fl v) : loads fl (write fl v) = .ok v := by
  rw [loads, read_write h]

lemma write_ne_empty (kvs : Dict) : write fl (.dict kvs) ≠ "" := by
  intro h
  have hlist := congrArg String.toList h
  rw [write, String.toList_ofList] at hlist
  cases hlist

lemma column_write {kvs : Dict} (h : IsJson fl (.dict kvs)) :
    column fl (some (write fl (.dict kvs))) = .ok (.dict kvs) := by
  rw [column, if_neg (write_ne_empty kvs), loads_write h]

/-- The row that stands for the entry. -/
def rowOf (fl : Floats F) (e : LedgerEntry) : Row where
  id := e.id
  action := e.action
  status := e.status.text
  checkpoint := some (write fl (.dict e.checkpoint))
  created_at := e.created_at
  updated_at := e.updated_at
  accio_ref := e.accio_ref
  metadata := some (write fl (.dict e.metadata))
  last_error := e.last_error

lemma columns_eq (h : Valid fl e) : columns fl e = .ok (rowOf fl e) := by
  have hcreated : bindInt e.created_at = .ok e.created_at := bindInt_eq_ok.mpr ⟨rfl, h.created_at⟩
  have hupdated : bindInt e.updated_at = .ok e.updated_at := bindInt_eq_ok.mpr ⟨rfl, h.updated_at⟩
  rw [columns, LedgerEntry.toPy, dumps_isJson h.checkpoint, dumps_isJson h.metadata]
  simp only [bindText_text, bindOptional_text, hcreated, hupdated]
  rfl

lemma encodable_of_columns {e : LedgerEntry PyStr} (h : columns fl e = .ok row) : Encodable e := by
  obtain ⟨checkpoint, -, h⟩ := bind_eq_ok h
  obtain ⟨metadata, -, h⟩ := bind_eq_ok h
  obtain ⟨id, hid, h⟩ := bind_eq_ok h
  obtain ⟨action, haction, h⟩ := bind_eq_ok h
  obtain ⟨created_at, -, h⟩ := bind_eq_ok h
  obtain ⟨updated_at, -, h⟩ := bind_eq_ok h
  obtain ⟨accio_ref, haccio, h⟩ := bind_eq_ok h
  obtain ⟨last_error, hlast, -⟩ := bind_eq_ok h
  refine ⟨{ e with id, action, accio_ref, last_error }, ?_⟩
  rw [LedgerEntry.toPy, ← bindText_eq_ok.mp hid, ← bindText_eq_ok.mp haction, ← bindOptional_eq_ok.mp haccio,
    ← bindOptional_eq_ok.mp hlast]

lemma rowToEntry_rowOf (h : Valid fl e) :
    rowToEntry fl base clock (rowOf fl e) = .ok (Table.rowToEntry e).toPy := by
  rw [rowToEntry, rowOf, column_write h.checkpoint, column_write h.metadata]
  have hholds : Holds (dict (rowOf fl e) (.dict e.checkpoint) (.dict e.metadata)) e := by
    constructor <;> rfl
  rw [← reread_toPy]
  exact hholds.fromRecord _ _ _

lemma rowToEntry_id {f : LedgerEntry PyStr} (h : rowToEntry fl base clock row = .ok f) : f.id = row.id := by
  obtain ⟨checkpoint, -, h⟩ := bind_eq_ok h
  obtain ⟨metadata, -, h⟩ := bind_eq_ok h
  exact Migration.fromRecord_id h

lemma append_ok (h : Valid fl e) (happend : t.append fl e = .ok t') : t'.rows = t.rows ++ [rowOf fl e] := by
  rw [Rows.append, columns_eq h] at happend
  change t.insert (rowOf fl e) = _ at happend
  rw [Rows.insert] at happend
  split at happend <;> cases happend
  rfl

lemma append_free (h : Valid fl e) (hfree : e.id ∉ t.rows.map Row.id) : ∃ t', t.append fl e = .ok t' := by
  rw [Rows.append, columns_eq h]
  exact ⟨_, dif_neg hfree⟩

end Columns

section Reads

lemma mapM_ok {α β ε : Type} {f : α → Except ε β} (xs : List α) (h : ∀ x ∈ xs, ∃ y, f x = .ok y) :
    ∃ ys, xs.mapM f = .ok ys ∧ ∀ y, y ∈ ys ↔ ∃ x ∈ xs, f x = .ok y := by
  induction xs with
  | nil => exact ⟨[], rfl, by simp⟩
  | cons x xs ih =>
    obtain ⟨y, hy⟩ := h x List.mem_cons_self
    obtain ⟨ys, hys, hmem⟩ := ih fun z hz => h z (List.mem_cons_of_mem x hz)
    refine ⟨y :: ys, by rw [List.mapM_cons, hy, hys]; rfl, fun z => ?_⟩
    rw [List.mem_cons, hmem, List.exists_mem_cons_iff, hy, Except.ok.injEq, eq_comm]

lemma mem_limited {limit : ℤ} {rows : List Row} (h : row ∈ Rows.limited limit rows) : row ∈ rows := by
  rw [Rows.limited] at h
  split at h
  · exact h
  · exact List.mem_of_mem_take h

lemma limited_all {limit : ℤ} {rows : List Row} (h : limit < 0 ∨ rows.length ≤ limit) :
    Rows.limited limit rows = rows := by
  rw [Rows.limited]
  split
  · rfl
  · exact List.take_of_length_le (by omega)

/-- What a query that selects rows of the table makes of the row of `e`. -/
lemma selected_read {e : LedgerEntry PyStr} (hrow : rowToEntry fl base clock row = .ok e) (hmem : row ∈ t.rows)
    (hall : ∀ r ∈ t.rows, ∃ f, rowToEntry fl base clock r = .ok f) {selected : List Row}
    (hsub : ∀ r ∈ selected, r ∈ t.rows) : ∃ es, selected.mapM (rowToEntry fl base clock) = .ok es ∧
      (∀ f ∈ es, f.id = e.id → f = e) ∧ (row ∈ selected → e ∈ es) := by
  obtain ⟨es, hes, hin⟩ := mapM_ok selected fun r hr => hall r (hsub r hr)
  refine ⟨es, hes, ?_, fun hsel => (hin e).mpr ⟨row, hsel, hrow⟩⟩
  intro f hf hid
  obtain ⟨r, hr, hread⟩ := (hin f).mp hf
  rw [rowToEntry_id hread, rowToEntry_id hrow, PyStr.text.injEq] at hid
  obtain rfl := List.inj_on_of_nodup_map t.nodup (hsub r hr) hmem hid
  exact Except.ok.inj (hread.symm.trans hrow)

lemma readable_append {e : LedgerEntry PyStr} (hrow : rowToEntry fl base clock row = .ok e) (hrows : t'.rows = t.rows ++ [row])
    (hall : ∀ r ∈ t.rows, ∃ f, rowToEntry fl base clock r = .ok f) :
    ∀ r ∈ t'.rows, ∃ f, rowToEntry fl base clock r = .ok f := by
  rw [hrows, List.forall_mem_append, List.forall_mem_singleton]
  exact ⟨hall, e, hrow⟩

lemma find?_row (hrows : t'.rows = t.rows ++ [row]) : t'.rows.find? (·.id == row.id) = some row := by
  have hnodup := t'.nodup
  rw [hrows, List.map_append, List.map_singleton] at hnodup
  rw [hrows, List.find?_append, List.find?_eq_none.mpr]
  · simp
  · intro r hr hid
    have hmem : row.id ∈ t.rows.map Row.id := eq_of_beq hid ▸ List.mem_map_of_mem hr
    exact List.disjoint_of_nodup_append hnodup hmem (List.mem_singleton_self _)

lemma readsBack (h : Valid fl e) (href : Table.rowToEntry e = e) : ReadsBack fl base e where
  appended t hfree := by
    apply append_free h
    intro hmem
    obtain ⟨row, hrow, hid⟩ := List.mem_map.mp hmem
    exact hfree row hrow (congrArg PyStr.text hid.symm)
  get t t' clock happend := by
    have hfind := find?_row (append_ok h happend)
    have hrow : rowToEntry fl base clock (rowOf fl e) = .ok e.toPy := by rw [rowToEntry_rowOf h, href]
    change t'.rows.find? (·.id == e.id) = _ at hfind
    change (match t'.rows.find? (·.id == e.id) with
      | none => pure none
      | some row => (rowToEntry fl base clock row).map some) = _
    rw [hfind]
    change (rowToEntry fl base clock (rowOf fl e)).map some = _
    rw [hrow]
    rfl
  list_all t t' clock status limit hlimit64 happend hall := by
    have hrows := append_ok h happend
    have hrow : rowToEntry fl base clock (rowOf fl e) = .ok e.toPy := by rw [rowToEntry_rowOf h, href]
    have hmem : rowOf fl e ∈ t'.rows := hrows ▸ List.mem_append_right _ (List.mem_singleton_self _)
    obtain ⟨es, hes, honly, hsel⟩ := selected_read hrow hmem (readable_append hrow hrows hall)
      fun r hr => (List.mem_filter.mp (List.mem_mergeSort.mp (mem_limited hr))).1
    refine ⟨es, ?_, honly, fun hstatus hlimit => hsel ?_⟩
    · rw [Rows.listAll, bindOptional_text, bindInt_eq_ok.mpr ⟨rfl, hlimit64⟩]
      exact hes
    rw [limited_all]
    · rw [List.mem_mergeSort, List.mem_filter]
      refine ⟨hmem, ?_⟩
      rcases hstatus with rfl | rfl
      · rfl
      · simp [Rows.wanted, rowOf, LedgerEntry.toPy]
    · refine hlimit.imp_right fun hle => le_trans ?_ hle
      rw [List.length_mergeSort]
      exact_mod_cast List.length_filter_le _ _
  get_incremental t t' clock last_created_at last_id limit hcreated64 hlimit64 happend hall := by
    have hrows := append_ok h happend
    have hrow : rowToEntry fl base clock (rowOf fl e) = .ok e.toPy := by rw [rowToEntry_rowOf h, href]
    have hmem : rowOf fl e ∈ t'.rows := hrows ▸ List.mem_append_right _ (List.mem_singleton_self _)
    obtain ⟨es, hes, honly, hsel⟩ := selected_read hrow hmem (readable_append hrow hrows hall)
      fun r hr => (List.mem_filter.mp (List.mem_mergeSort.mp (mem_limited hr))).1
    refine ⟨es, ?_, honly, ?_⟩
    · rw [Rows.getIncremental, bindInt_eq_ok.mpr ⟨rfl, hcreated64⟩, bindText_text, bindInt_eq_ok.mpr ⟨rfl, hlimit64⟩]
      exact hes
    rintro id hid hafter hlimit
    obtain rfl := PyStr.text.inj hid
    apply hsel
    rw [limited_all]
    · rw [List.mem_mergeSort, List.mem_filter]
      exact ⟨hmem, decide_eq_true hafter⟩
    · refine hlimit.imp_right fun hle => le_trans ?_ hle
      rw [List.length_mergeSort]
      exact_mod_cast List.length_filter_le _ _

lemma ReadsBack.encodable {e : LedgerEntry PyStr} (h : ReadsBack fl base e) : Encodable e := by
  obtain ⟨t', ht⟩ := h.appended ⟨[], List.nodup_nil⟩ (by simp)
  obtain ⟨row, hrow, -⟩ := bind_eq_ok ht
  exact encodable_of_columns hrow

end Reads

lemma fromText_toRecord (h : Valid fl e) (now later : ℤ) :
    fromText fl base now later (write fl (.dict e.toPy.toRecord)) = .ok (Table.rowToEntry e).toPy := by
  rw [fromText, loads_write (isJson_toRecord h), ← reread_toPy]
  exact (holds_toRecord e).fromRecord _ _ _

lemma rowToEntry_eq_iff : Table.rowToEntry e = e ↔ e.accio_ref ≠ some "" := by
  constructor
  · intro h href
    have haccio := congrArg LedgerEntry.accio_ref h
    simp [Table.rowToEntry, href] at haccio
  · exact Table.rowToEntry_eq_self

lemma recordedBack_iff (h : Valid fl e) : RecordedBack fl base e ↔ Table.rowToEntry e = e := by
  constructor
  · rintro ⟨text, htext, hback⟩
    rw [dumps_isJson (isJson_toRecord h), Except.ok.injEq] at htext
    subst htext
    have hread := hback 0 0
    rw [fromText_toRecord h, Except.ok.injEq] at hread
    exact LedgerEntry.toPy_injective hread
  · intro href
    refine ⟨_, dumps_isJson (isJson_toRecord h), fun now later => ?_⟩
    rw [fromText_toRecord h, href]

section Sample

def tenths : Floats Unit where
  repr _ := "0.1".toList
  parse _ := ()
  float_text _ := ⟨[], ['0'], ['.', '1'], [],
    ⟨Or.inl rfl, Or.inl rfl, Or.inr ⟨['1'], by decide, by simp [Digits], rfl⟩, Or.inl rfl⟩, by decide, rfl⟩
  parse_repr _ := rfl

def entryOf (accio_ref : Option String) : LedgerEntry where
  id := "e-1"
  action := "disk_check"
  status := .running
  checkpoint := [("steps", .list [.str "df", .int 2]), ("load", .float "0.1")]
  created_at := 1700000000000
  updated_at := 1700000000500
  accio_ref := accio_ref
  metadata := []
  last_error := some ""

lemma valid_entryOf (accio_ref : Option String) : Valid tenths (entryOf accio_ref) where
  checkpoint := ⟨(by decide : ([.text "steps", .text "load"] : List PyStr).Nodup), ⟨trivial, trivial, trivial, trivial⟩,
    ⟨trivial, (), rfl⟩, trivial⟩
  metadata := ⟨List.nodup_nil, trivial⟩
  created_at := rfl
  updated_at := rfl

end Sample

/-- An entry survives its row and its record exactly if its texts have an encoding and its `accio_ref` is
not the empty string, which is read as no reference at all. -/
theorem entry_survives_iff (fl : Floats F) (base : Conversions) (e : LedgerEntry PyStr) (h : Valid fl e) :
    ReadsBack fl base e ∧ RecordedBack fl base e ↔ Encodable e ∧ e.accio_ref ≠ some "" := by
  constructor
  · rintro ⟨hreads, hrecorded⟩
    obtain ⟨row, rfl⟩ := hreads.encodable
    have href := rowToEntry_eq_iff.mp ((recordedBack_iff (valid_toPy_iff.mp h)).mp hrecorded)
    refine ⟨⟨row, rfl⟩, fun hempty => href ?_⟩
    exact Option.map_injective (fun _ _ => PyStr.text.inj) hempty
  · rintro ⟨⟨row, rfl⟩, haccio⟩
    have hrow := valid_toPy_iff.mp h
    have href := Table.rowToEntry_eq_self fun hempty => haccio (congrArg (Option.map PyStr.text) hempty)
    exact ⟨readsBack hrow href, (recordedBack_iff hrow).mpr href⟩

theorem referenced_survives : ReadsBack tenths Migration.twoRecords (entryOf (some "run-7")) ∧
    RecordedBack tenths Migration.twoRecords (entryOf (some "run-7")) :=
  (entry_survives_iff tenths Migration.twoRecords (entryOf (some "run-7"))
    (valid_toPy_iff.mpr (valid_entryOf _))).mpr
    ⟨⟨_, rfl⟩, by decide⟩

theorem empty_reference_lost : ¬ ∀ e : LedgerEntry PyStr, Valid tenths e →
    ReadsBack tenths Migration.twoRecords e ∧ RecordedBack tenths Migration.twoRecords e := by
  intro h
  have hback := (recordedBack_iff (valid_entryOf (some ""))).mp (h _ (valid_toPy_iff.mpr (valid_entryOf (some "")))).2
  exact rowToEntry_eq_iff.mp hback rfl

end OpsSentry.Ledger.Records
