import OpsSentry.Foundation.Crashes
import OpsSentry.Foundation.Text
import OpsSentry.Ledger.Storage

/-! `OpsLedger._migrate_from_jsonl`, which copies the records of the old file one commit at a
time, when the process may stop between any two of its steps. -/

namespace OpsSentry.Ledger.Migration

open Foundation.Crashes Foundation.Programs Foundation.Runs Foundation.Strings Foundation.Text Foundation.Values

inductive Exc
  | key (name : String)
  | value
  | type
  | os
  | ledger (e : Ledger.Exc)

/-- `json.loads`, and `str` and `int` of values that are not a string or an integer already. -/
structure Conversions where
  loads : String → Except Exc Value
  str : Value → String
  int : Value → Except Exc ℤ

section FromRecord

variable (conv : Conversions)

def str : Value → PyStr
  | .str s => s
  | .lone s => .lone s
  | v => conv.str v

def int : Value → Except Exc ℤ
  | .int n => .ok n
  | v => conv.int v

/-- What iterating over a value gives. -/
def elements : Value → Except Exc (List Value)
  | .list xs => .ok xs
  | .dict kvs => .ok (kvs.map fun p => .ofStr p.1)
  | .str s => .ok (s.toList.map fun c => .str (String.singleton c))
  | .lone s => .ok (s.points.map fun u => .ofStr (PyStr.ofPoints [u]))
  | _ => .error .type

def pair (v : Value) : Except Exc (PyStr × Value) := do
  match ← elements v with
  | [.str k, v] => .ok (k, v)
  | [.lone k, v] => .ok (.lone k, v)
  | [_, _] => .error .type
  | _ => .error .value

/-- `dict(v or {})`. A dict here has strings for keys. -/
def toDict (v : Value) : Except Exc Dict :=
  if v.truthy then
    match v with
    | .dict kvs => .ok kvs
    | v => do
      let pairs ← (← elements v).mapM pair
      pure (pairs.foldl (fun d p => put d p.1 p.2) [])
  else .ok []

def item (record : Dict) (name : String) : Except Exc Value :=
  match record.lookup (.text name) with
  | some v => .ok v
  | none => .error (.key name)

def getD (record : Dict) (name : String) (default : Value) : Value := (record.lookup (.text name)).getD default

def orElse (v w : Value) : Value := if v.truthy then v else w

/-- What an entry can hold for `accio_ref` and `last_error`. -/
def optionalStr : Value → Except Exc (Option PyStr)
  | .null => .ok none
  | .str s => .ok (some s)
  | .lone s => .ok (some (.lone s))
  | _ => .error .type

/-- `LedgerEntry.from_record`, with what the two calls of `utc_ms` give. -/
def fromRecord (now later : ℤ) (record : Dict) : Except Exc (LedgerEntry PyStr) := do
  let id ← item record "id"
  let action ← item record "action"
  let status := str conv (getD record "status" (.str "pending"))
  let checkpoint ← toDict (getD record "checkpoint" .null)
  let created_at ← int conv (getD record "created_at" (.int now))
  let updated_at ← int conv (getD record "updated_at" (.int later))
  let accio_ref ← optionalStr (orElse (getD record "accio_ref" .null) (getD record "accio_task_ref" .null))
  let metadata ← toDict (getD record "metadata" .null)
  let last_error ← optionalStr (getD record "last_error" .null)
  match Status.of? status with
  | none => .error (.ledger (.state s!"unsupported status: {status.shown}"))
  | some status =>
    pure { id := str conv id, action := str conv action, status, checkpoint, created_at, updated_at,
           accio_ref, metadata, last_error }

end FromRecord

structure Files where
  table : Table
  jsonl : Option (List String)
  bak : Option (List String)

inductive Command
  | jsonlExists
  | count
  | readLines
  | utcMs
  | append (entry : LedgerEntry PyStr)
  | bakExists
  | unlinkBak
  | rename

def Reply : Command → Type
  | .jsonlExists | .bakExists => Bool
  | .count => ℕ
  | .readLines => Except Exc (List String)
  | .utcMs => Int64
  | .append _ => Except Ledger.Exc Unit
  | .unlinkBak | .rename => Except Exc Unit

abbrev Disk : Interface := ⟨Command, Reply⟩

abbrev Code (α : Type) := Prog Disk Exc α

def disk (c : Command) : Code (Reply c) := Prog.perform (I := Disk) c

def jsonlExists : Code Bool := disk .jsonlExists
def count : Code ℕ := disk .count
def readLines : Code (Except Exc (List String)) := disk .readLines
def utcMs : Code Int64 := disk .utcMs
def append (entry : LedgerEntry PyStr) : Code (Except Ledger.Exc Unit) := disk (.append entry)
def bakExists : Code Bool := disk .bakExists
def unlinkBak : Code (Except Exc Unit) := disk .unlinkBak
def rename : Code (Except Exc Unit) := disk .rename

section Calls

variable {α : Type}

lemma jsonlExists_bind (f : Bool → Code α) :
    jsonlExists >>= f = Prog.call (I := Disk) .jsonlExists (fun y : Disk.Reply .jsonlExists => f y) := rfl
lemma count_bind (f : ℕ → Code α) :
    count >>= f = Prog.call (I := Disk) .count (fun y : Disk.Reply .count => f y) := rfl
lemma readLines_bind (f : Except Exc (List String) → Code α) :
    readLines >>= f = Prog.call (I := Disk) .readLines (fun y : Disk.Reply .readLines => f y) := rfl
lemma utcMs_bind (f : Int64 → Code α) :
    utcMs >>= f = Prog.call (I := Disk) .utcMs (fun y : Disk.Reply .utcMs => f y) := rfl
lemma bakExists_bind (f : Bool → Code α) :
    bakExists >>= f = Prog.call (I := Disk) .bakExists (fun y : Disk.Reply .bakExists => f y) := rfl
lemma rename_bind (f : Except Exc Unit → Code α) :
    rename >>= f = Prog.call (I := Disk) .rename (fun y : Disk.Reply .rename => f y) := rfl
lemma append_bind (e : LedgerEntry PyStr) (f : Except Ledger.Exc Unit → Code α) :
    append e >>= f = Prog.call (I := Disk) (.append e) (fun y : Disk.Reply (.append e) => f y) := rfl

end Calls

section Migrate

variable (conv : Conversions)

def decode (line : String) : Except Exc Dict := do
  match ← conv.loads line with
  | .dict record => .ok record
  | _ => .error .type

def migrateRecord (line : String) : Code Unit := do
  let record ← orThrow (decode conv line)
  let now ← utcMs
  let later ← utcMs
  let entry ← orThrow (fromRecord conv now.toInt later.toInt record)
  orThrow ((← append entry).mapError .ledger)

def migrateLine (line : String) : Code Unit :=
  if strip line = "" then pure ()
  else tryCatch (migrateRecord conv (strip line)) fun _ => pure ()

def migrateLines : List String → Code Unit
  | [] => pure ()
  | line :: lines => do
    migrateLine conv line
    migrateLines lines

def removeBak : Code Unit := do
  if ← bakExists then orThrow (← unlinkBak) else pure ()

def moveAway : Code Unit := do
  removeBak
  orThrow (← rename)

def migrateFromJsonl : Code Unit := do
  if ← jsonlExists then
    if 0 < (← count) then pure ()
    else
      migrateLines conv (← orThrow (← readLines))
      tryCatch moveAway fun _ => pure ()
  else pure ()

end Migrate

def exec (clock : ℕ → Int64) (i : ℕ) (w : Files) : (c : Command) → Option (Files × Reply c)
  | .jsonlExists => some (w, w.jsonl.isSome)
  | .count => some (w, w.table.rows.length)
  | .readLines => some (w, w.jsonl.elim (.error .os) .ok)
  | .utcMs => some (w, clock i)
  | .append entry =>
    match w.table.append entry with
    | .ok table => some ({ w with table }, .ok ())
    | .error e => some (w, .error e)
  | .bakExists => some (w, w.bak.isSome)
  | .unlinkBak =>
    match w.bak with
    | some _ => some ({ w with bak := none }, .ok ())
    | none => some (w, .error .os)
  | .rename =>
    match w.jsonl with
    | some lines => some ({ w with jsonl := none, bak := some lines }, .ok ())
    | none => some (w, .error .os)

def start (lines : List String) (bak : Option (List String)) : Files := ⟨Table.empty, some lines, bak⟩

structure Crash where
  after : ℕ
  clock : ℕ → Int64

section Statement

variable (conv : Conversions)

/-- The process stops while it constructs the ledger. -/
def crash (w : Files) (c : Crash) : Files := cut (exec c.clock) c.after 0 (migrateFromJsonl conv) w

def step (w : Files) (c : Crash) : Option Files := some (crash conv w c)

/-- The row is the entry of the record at some time. -/
def Copy (record : Dict) (row : LedgerEntry) : Prop :=
  ∃ (now later : Int64) (entry : LedgerEntry PyStr),
    fromRecord conv now.toInt later.toInt record = .ok entry ∧ entry.bind = .ok row

/-- The table can hold the entry of the record. -/
def Binds (record : Dict) : Prop := ∃ row, Copy conv record row

def identifier (record : Dict) : PyStr := str conv (getD record "id" .null)

/-- The lines are valid records with distinct ids. -/
structure Legacy (lines : List String) (records : List Dict) : Prop where
  decoded : ((lines.map strip).filter (· ≠ "")).map (decode conv) = records.map Except.ok
  accepted : ∀ r ∈ records, ∀ now later, ∃ e, fromRecord conv now later r = .ok e
  nodup : (records.map (identifier conv)).Nodup

/-- Every record is in the table exactly once. -/
def Migrated (records : List Dict) (t : Table) : Prop :=
  ∀ r ∈ records, ∃ e, t.rows.filter (fun f => f.id = identifier conv r) = [e] ∧ Copy conv r e

/-- The crash finds no record committed, or all of them. -/
def AllOrNone (records : List Dict) (w : Files) (c : Crash) : Prop :=
  (crash conv w c).table.rows.length = 0 ∨ (crash conv w c).table.rows.length = records.length

instance (records : List Dict) (w : Files) (c : Crash) : Decidable (AllOrNone conv records w c) :=
  inferInstanceAs (Decidable (_ ∨ _))

end Statement

variable {conv : Conversions} {lines : List String} {records done : List Dict} {r : Dict} {w : Files}
  {clock : ℕ → Int64} {C : Files → Prop}

section Copies

lemma int_clock {now c : ℤ} {name : String} (h : int conv (getD r name (.int now)) = .ok c) (now' : ℤ) :
    ∃ c', int conv (getD r name (.int now')) = .ok c' ∧ (int64 c = true → int64 now' = true → int64 c' = true) := by
  rw [getD] at h ⊢
  cases hv : r.lookup (.text name) with
  | none => exact ⟨now', rfl, fun _ hnow => hnow⟩
  | some v =>
    rw [hv] at h
    exact ⟨c, h, fun hc _ => hc⟩

/-- The two readings of the clock are all that the entry has besides the record. -/
lemma Copy.at {row : LedgerEntry} (h : Copy conv r row) (now later : Int64) :
    ∃ e row', fromRecord conv now.toInt later.toInt r = .ok e ∧ e.bind = .ok row' := by
  obtain ⟨now₀, later₀, e, he, hrow⟩ := h
  rw [fromRecord] at he
  obtain ⟨id, hid, he⟩ := bind_eq_ok he
  obtain ⟨action, haction, he⟩ := bind_eq_ok he
  obtain ⟨checkpoint, hcheckpoint, he⟩ := bind_eq_ok he
  obtain ⟨created_at, hcreated, he⟩ := bind_eq_ok he
  obtain ⟨updated_at, hupdated, he⟩ := bind_eq_ok he
  obtain ⟨accio_ref, haccio, he⟩ := bind_eq_ok he
  obtain ⟨metadata, hmetadata, he⟩ := bind_eq_ok he
  obtain ⟨last_error, hlast, he⟩ := bind_eq_ok he
  obtain ⟨created_at', hcreated', h64⟩ := int_clock hcreated now.toInt
  obtain ⟨updated_at', hupdated', h64'⟩ := int_clock hupdated later.toInt
  rw [fromRecord, hid, haction, hcheckpoint, hcreated', hupdated', haccio, hmetadata, hlast]
  dsimp only [bind, Except.bind]
  split at he
  · cases he
  · obtain ⟨heq, hstorable⟩ := LedgerEntry.bind_eq_ok.mp hrow
    cases he
    simp only [LedgerEntry.toPy, LedgerEntry.mk.injEq] at heq
    obtain ⟨hid', haction', hstatus', hcheckpoint', hcreatedAt, hupdatedAt, haccio', hmetadata', hlast'⟩ := heq
    let row' : LedgerEntry := { row with created_at := created_at', updated_at := updated_at' }
    have hstorable' : row'.Storable :=
      ⟨hstorable.json, h64 (hcreatedAt ▸ hstorable.created_at) (int64_toInt now),
        h64' (hupdatedAt ▸ hstorable.updated_at) (int64_toInt later)⟩
    refine ⟨row'.toPy, row', ?_, LedgerEntry.bind_toPy hstorable'⟩
    rw [hid', haction', hstatus', hcheckpoint', haccio', hmetadata', hlast']
    rfl

lemma fromRecord_id {now later : ℤ} {e : LedgerEntry PyStr} (h : fromRecord conv now later r = .ok e) :
    e.id = identifier conv r := by
  rw [fromRecord] at h
  obtain ⟨id, hid, h⟩ := bind_eq_ok h
  obtain ⟨action, -, h⟩ := bind_eq_ok h
  obtain ⟨checkpoint, -, h⟩ := bind_eq_ok h
  obtain ⟨created_at, -, h⟩ := bind_eq_ok h
  obtain ⟨updated_at, -, h⟩ := bind_eq_ok h
  obtain ⟨accio_ref, -, h⟩ := bind_eq_ok h
  obtain ⟨metadata, -, h⟩ := bind_eq_ok h
  obtain ⟨last_error, -, h⟩ := bind_eq_ok h
  split at h
  · cases h
  · cases h
    rw [item] at hid
    split at hid
    · rename_i v hv
      cases hid
      simp [identifier, getD, hv]
    · cases hid

lemma Copy.id {row : LedgerEntry} (h : Copy conv r row) : row.id = identifier conv r := by
  obtain ⟨now, later, e, h, hrow⟩ := h
  obtain ⟨rfl, -⟩ := LedgerEntry.bind_eq_ok.mp hrow
  exact fromRecord_id h

def ids (t : Table) : List PyStr := t.rows.map fun row => row.id

lemma ids_of_copies {t : Table} (h : List.Forall₂ (Copy conv) done t.rows) : ids t = done.map (identifier conv) := by
  rw [ids]
  generalize t.rows = rows at h
  induction h with
  | nil => rfl
  | cons hcopy _ ih => rw [List.map_cons, List.map_cons, hcopy.id, ih]

lemma find?_of_fresh {t : Table} {row : LedgerEntry} (hcopy : Copy conv r row) (hfresh : identifier conv r ∉ ids t) :
    t.find? row.id = none := by
  apply List.find?_eq_none.mpr
  intro f hf hid
  apply hfresh
  rw [← hcopy.id, ← eq_of_beq hid]
  exact List.mem_map_of_mem hf

end Copies

/-- The steps that append one record: the table is as before, or has its copy at the end. -/
lemma migrateRecord_ends {line : String} (hline : decode conv line = .ok r) (hr : Binds conv r)
    (hfresh : identifier conv r ∉ ids w.table) (hw : C w)
    (happend : ∀ e t, Copy conv r e → t.rows = w.table.rows ++ [e] → C { w with table := t }) :
    Ends (exec clock) C (fun x v => x = .ok () ∧ ∃ e t, Copy conv r e ∧ t.rows = w.table.rows ++ [e] ∧
      v = { w with table := t }) (migrateRecord conv line) w := by
  simp only [migrateRecord, hline, orThrow, Prog.ret_bind, utcMs_bind]
  refine ⟨hw, fun i => ⟨_, rfl, hw, fun j => ⟨_, rfl, ?_⟩⟩⟩
  obtain ⟨row₀, hrow₀⟩ := hr
  obtain ⟨e, row, he, hbind⟩ := hrow₀.at (clock i) (clock j)
  have hcopy : Copy conv r row := ⟨_, _, e, he, hbind⟩
  obtain ⟨rfl, hstorable⟩ := LedgerEntry.bind_eq_ok.mp hbind
  obtain ⟨t, ht, hinsert⟩ := Table.append_free (find?_of_fresh hcopy hfresh) hstorable
  have hrows := Table.insert_rows hinsert
  change Ends _ _ _ (orThrow (fromRecord conv (clock i).toInt (clock j).toInt r) >>= _) w
  simp only [he, orThrow, Prog.ret_bind, append_bind]
  refine ⟨hw, fun k => ⟨({ w with table := t }, .ok ()), by simp only [exec, ht], ?_⟩⟩
  exact ⟨happend row t hcopy hrows, rfl, row, t, hcopy, hrows, rfl⟩

/-- The first `k` records have been copied; the old file is there until all are. -/
structure Stands (conv : Conversions) (lines : List String) (records : List Dict) (k : ℕ) (w : Files) : Prop where
  copies : List.Forall₂ (Copy conv) (records.take k) w.table.rows
  le : k ≤ records.length
  jsonl : w.jsonl = some lines ∨ w.jsonl = none ∧ k = records.length

def Progress (conv : Conversions) (lines : List String) (records : List Dict) (w : Files) : Prop :=
  ∃ k, Stands conv lines records k w

lemma Stands.length {k : ℕ} (h : Stands conv lines records k w) : w.table.rows.length = k := by
  rw [← h.copies.length_eq, List.length_take, Nat.min_eq_left h.le]

lemma Stands.append {k : ℕ} {rest : List Dict} {e : LedgerEntry} {t : Table}
    (h : Stands conv lines records k w) (hjsonl : w.jsonl = some lines)
    (hrest : records.drop k = r :: rest) (hcopy : Copy conv r e) (ht : t.rows = w.table.rows ++ [e]) :
    Stands conv lines records (k + 1) { w with table := t } := by
  have hlt : k < records.length := by
    by_contra hge
    rw [List.drop_of_length_le (Nat.le_of_not_lt hge)] at hrest
    cases hrest
  have hget : records[k]? = some r := by
    rw [← List.head?_drop, hrest, List.head?_cons]
  refine ⟨?_, hlt, Or.inl hjsonl⟩
  rw [List.take_add_one, hget]
  change List.Forall₂ _ _ t.rows
  rw [ht]
  exact List.rel_append h.copies (List.Forall₂.cons hcopy List.Forall₂.nil)

lemma Stands.fresh {k : ℕ} {rest : List Dict} (hl : Legacy conv lines records)
    (h : Stands conv lines records k w) (hrest : records.drop k = r :: rest) :
    identifier conv r ∉ ids w.table := by
  rw [ids_of_copies h.copies]
  have hnodup := hl.nodup
  rw [← List.take_append_drop k records, hrest, List.map_append, List.map_cons] at hnodup
  intro hmem
  exact List.disjoint_of_nodup_append hnodup hmem List.mem_cons_self

lemma migrateLine_ends {line : String} {step : Code Unit} (hstep : migrateLine conv line = step)
    (hblank : strip line ≠ "") (hline : decode conv (strip line) = .ok r)
    (hr : Binds conv r) (hfresh : identifier conv r ∉ ids w.table) (hw : C w)
    (happend : ∀ e t, Copy conv r e → t.rows = w.table.rows ++ [e] → C { w with table := t }) :
    Ends (exec clock) C (fun x v => x = .ok () ∧ ∃ e t, Copy conv r e ∧ t.rows = w.table.rows ++ [e] ∧
      v = { w with table := t }) step w := by
  rw [migrateLine, if_neg hblank] at hstep
  subst hstep
  apply Ends.handle
  refine (migrateRecord_ends hline hr hfresh hw happend).mono ?_
  rintro x v - ⟨rfl, hv⟩
  exact ⟨rfl, hv⟩

/-- A line that is not blank holds the next record. -/
lemma next_record {k : ℕ} {line : String} {rest : List String} (hblank : strip line ≠ "")
    (hdecoded : (((line :: rest).map strip).filter (· ≠ "")).map (decode conv) = (records.drop k).map Except.ok) :
    ∃ r tail, records.drop k = r :: tail ∧ decode conv (strip line) = .ok r ∧
      ((rest.map strip).filter (· ≠ "")).map (decode conv) = (records.drop (k + 1)).map Except.ok := by
  cases hd : records.drop k with
  | nil => simp [hblank, hd] at hdecoded
  | cons r tail =>
    obtain ⟨hdecode, htail⟩ : decode conv (strip line) = .ok r ∧
        ((rest.map strip).filter (· ≠ "")).map (decode conv) = tail.map Except.ok := by
      simpa [hblank, hd] using hdecoded
    have hnext : records.drop (k + 1) = tail := by
      rw [← List.drop_drop, hd, List.drop_one, List.tail_cons]
    exact ⟨r, tail, rfl, hdecode, hnext ▸ htail⟩

lemma migrateLines_ends {k : ℕ} {rest : List String} (hl : Legacy conv lines records) (hb : ∀ r ∈ records, Binds conv r)
    (hdecoded : ((rest.map strip).filter (· ≠ "")).map (decode conv) = (records.drop k).map Except.ok)
    (h : Stands conv lines records k w) (hjsonl : w.jsonl = some lines) :
    Ends (exec clock) (Progress conv lines records)
      (fun x v => x = .ok () ∧ Stands conv lines records records.length v ∧ v.jsonl = some lines)
      (migrateLines conv rest) w := by
  induction rest generalizing k w with
  | nil =>
    have hk : records.length ≤ k := by simpa using hdecoded
    obtain rfl := le_antisymm h.le hk
    exact ⟨⟨_, h⟩, rfl, h, hjsonl⟩
  | cons line rest ih =>
    rw [migrateLines]
    generalize hstep : migrateLine conv line = step
    rcases eq_or_ne (strip line) "" with hblank | hblank
    · rw [migrateLine, if_pos hblank] at hstep
      subst hstep
      exact ih (by simpa [hblank] using hdecoded) h hjsonl
    · obtain ⟨r, tail, hrest, hdecode, htail⟩ := next_record hblank hdecoded
      have hr : r ∈ records := List.mem_of_mem_drop (hrest ▸ List.mem_cons_self)
      refine Ends.bind ((migrateLine_ends hstep hblank hdecode (hb r hr) (h.fresh hl hrest) ⟨k, h⟩ ?_).mono ?_)
      · intro e t hcopy ht
        exact ⟨k + 1, h.append hjsonl hrest hcopy ht⟩
      · rintro x v - ⟨rfl, e, t, hcopy, ht, rfl⟩
        exact ih htail (h.append hjsonl hrest hcopy ht) hjsonl

lemma rename_ends (h : Stands conv lines records records.length w) :
    Ends (exec clock) (Progress conv lines records) (fun _ v => Stands conv lines records records.length v)
      (rename >>= orThrow) w := by
  rw [rename_bind]
  refine ⟨⟨_, h⟩, fun i => ?_⟩
  cases hj : w.jsonl with
  | none => exact ⟨(w, .error .os), by simp only [exec, hj], ⟨_, h⟩, h⟩
  | some l =>
    have hmoved : Stands conv lines records records.length { w with jsonl := none, bak := some l } :=
      ⟨h.copies, h.le, Or.inr ⟨rfl, rfl⟩⟩
    exact ⟨(_, .ok ()), by simp only [exec, hj], ⟨_, hmoved⟩, hmoved⟩

lemma removeBak_ends (h : Stands conv lines records records.length w) :
    Ends (exec clock) (Progress conv lines records)
      (fun x v => x = .ok () ∧ Stands conv lines records records.length v) removeBak w := by
  rw [removeBak, bakExists_bind]
  refine ⟨⟨_, h⟩, fun i => ⟨_, rfl, ?_⟩⟩
  cases hb : w.bak with
  | none => exact ⟨⟨_, h⟩, rfl, h⟩
  | some l =>
    have hgone : Stands conv lines records records.length { w with bak := none } := ⟨h.copies, h.le, h.jsonl⟩
    exact ⟨⟨_, h⟩, fun j => ⟨({ w with bak := none }, .ok ()), by simp only [exec, hb], ⟨_, hgone⟩, rfl, hgone⟩⟩

lemma moveAway_ends (h : Stands conv lines records records.length w) :
    Ends (exec clock) (Progress conv lines records) (fun _ v => Stands conv lines records records.length v)
      moveAway w := by
  rw [moveAway]
  apply Ends.bind
  refine (removeBak_ends h).mono ?_
  rintro x v - ⟨rfl, hv⟩
  exact rename_ends hv

/-- A construction that finds the table empty loads it; one that finds a record there does nothing. -/
lemma migrate_ends {k : ℕ} (hl : Legacy conv lines records) (hb : ∀ r ∈ records, Binds conv r) (h : Stands conv lines records k w) :
    Ends (exec clock) (fun v => ∃ m, Stands conv lines records m v ∧ (k = 0 ∨ m = k))
      (fun x v => x = .ok () ∧ Stands conv lines records (if k = 0 then records.length else k) v)
      (migrateFromJsonl conv) w := by
  rw [migrateFromJsonl, jsonlExists_bind]
  refine ⟨⟨k, h, Or.inr rfl⟩, fun i => ⟨_, rfl, ?_⟩⟩
  rcases h.jsonl with hj | ⟨hj, rfl⟩
  · simp only [hj, Option.isSome_some, ↓reduceIte, count_bind]
    refine ⟨⟨k, h, Or.inr rfl⟩, fun i => ⟨_, rfl, ?_⟩⟩
    rw [h.length]
    change Ends _ _ _ (if 0 < k then _ else _) w
    rcases Nat.eq_zero_or_pos k with rfl | hpos
    · rw [if_pos rfl, if_neg (Nat.lt_irrefl 0), readLines_bind]
      refine Ends.weaken (C := Progress conv lines records) ?_ fun v ⟨m, hm⟩ => ⟨m, hm, Or.inl rfl⟩
      refine ⟨⟨0, h⟩, fun i => ⟨_, rfl, ?_⟩⟩
      rw [hj]
      change Ends _ _ _ (migrateLines conv lines >>= fun _ => tryCatch moveAway _) w
      apply Ends.bind
      refine (migrateLines_ends hl hb hl.decoded h hj).mono ?_
      rintro x v - ⟨rfl, hv, -⟩
      apply Ends.handle
      refine (moveAway_ends hv).mono ?_
      intro x u hu hdone
      cases x with
      | ok _ => exact ⟨rfl, hdone⟩
      | error e => exact ⟨hu, rfl, hdone⟩
    · rw [if_pos hpos, if_neg (Nat.ne_of_gt hpos)]
      exact ⟨⟨k, h, Or.inr rfl⟩, rfl, h⟩
  · simp only [hj, Option.isSome_none, Bool.false_eq_true, ↓reduceIte]
    refine ⟨⟨_, h, Or.inr rfl⟩, rfl, ?_⟩
    split
    · exact h
    · exact h

lemma crash_stands {k : ℕ} (hl : Legacy conv lines records) (hb : ∀ r ∈ records, Binds conv r)
    (h : Stands conv lines records k w) (c : Crash) :
    ∃ m, Stands conv lines records m (crash conv w c) ∧ (k = 0 ∨ m = k) :=
  (migrate_ends hl hb h).cut c.after 0

lemma filter_id {t : Table} {e : LedgerEntry} (he : e ∈ t.rows) :
    t.rows.filter (fun f => PyStr.text f.id = e.id) = [e] := by
  simp only [PyStr.text.injEq]
  obtain ⟨pre, post, hrows⟩ := List.append_of_mem he
  have hnodup := t.nodup
  rw [hrows, List.map_append, List.map_cons] at hnodup
  obtain ⟨-, hpost, hdisjoint⟩ := List.nodup_append.mp hnodup
  have hbefore : pre.filter (fun f => f.id = e.id) = [] := by
    rw [List.filter_eq_nil_iff]
    intro f hf
    simpa using hdisjoint f.id (List.mem_map_of_mem hf) e.id List.mem_cons_self
  have hafter : post.filter (fun f => f.id = e.id) = [] := by
    rw [List.filter_eq_nil_iff]
    intro f hf hid
    exact (List.nodup_cons.mp hpost).1 (of_decide_eq_true hid ▸ List.mem_map_of_mem hf)
  rw [hrows, List.filter_append, List.filter_cons, hbefore, hafter]
  simp

lemma migrated_iff {k : ℕ} (hl : Legacy conv lines records) (h : Stands conv lines records k w) :
    Migrated conv records w.table ↔ k = records.length := by
  constructor
  · intro hm
    refine le_antisymm h.le (Nat.le_of_not_lt fun hlt => ?_)
    have hrest : records.drop k = records[k] :: records.drop (k + 1) := List.drop_eq_getElem_cons hlt
    obtain ⟨e, he, hcopy⟩ := hm records[k] (List.getElem_mem hlt)
    have hmem : e ∈ w.table.rows := List.mem_of_mem_filter (he ▸ List.mem_singleton_self e)
    exact h.fresh hl hrest (hcopy.id ▸ List.mem_map_of_mem (f := fun row => PyStr.text row.id) hmem)
  · rintro rfl r hr
    have hcopies := h.copies
    rw [List.take_length] at hcopies
    obtain ⟨i, hi, rfl⟩ := List.mem_iff_getElem.mp hr
    have hi' : i < w.table.rows.length := hcopies.length_eq ▸ hi
    have hcopy : Copy conv records[i] w.table.rows[i] := hcopies.get hi hi'
    refine ⟨_, ?_, hcopy⟩
    rw [← hcopy.id]
    exact filter_id (List.getElem_mem hi')

lemma stands_start (bak : Option (List String)) : Stands conv lines records 0 (start lines bak) :=
  ⟨List.Forall₂.nil, Nat.zero_le _, Or.inl rfl⟩

section Completion

/-- Whatever a line holds, and whether or not its record gets into the table, the next one follows. -/
lemma migrateRecord_stops (line : String) (w : Files) :
    Ends (exec clock) (fun v => v.jsonl = w.jsonl) (fun _ _ => True) (migrateRecord conv line) w := by
  rw [migrateRecord]
  cases decode conv line with
  | error e => exact ⟨rfl, trivial⟩
  | ok record =>
    refine ⟨rfl, fun i => ⟨_, rfl, rfl, fun j => ⟨_, rfl, ?_⟩⟩⟩
    change Ends _ _ _ (orThrow (fromRecord conv (clock i).toInt (clock j).toInt record) >>= _) w
    cases fromRecord conv (clock i).toInt (clock j).toInt record with
    | error e => exact ⟨rfl, trivial⟩
    | ok entry =>
      refine ⟨rfl, fun k => ?_⟩
      cases ht : w.table.append entry with
      | error e => exact ⟨(w, .error e), by simp only [exec, ht], rfl, trivial⟩
      | ok t => exact ⟨({ w with table := t }, .ok ()), by simp only [exec, ht], rfl, trivial⟩

lemma migrateLines_stops (rest : List String) (w : Files) :
    Ends (exec clock) (fun v => v.jsonl = w.jsonl) (fun x _ => x = .ok ()) (migrateLines conv rest) w := by
  induction rest generalizing w with
  | nil => exact ⟨rfl, rfl⟩
  | cons line rest ih =>
    rw [migrateLines]
    apply Ends.bind
    rw [migrateLine]
    split
    · exact ⟨rfl, ih w⟩
    · apply Ends.handle
      refine (migrateRecord_stops _ w).mono ?_
      intro x v hv _
      have hrest : Ends (exec clock) (fun u => u.jsonl = w.jsonl) (fun x _ => x = .ok ()) (migrateLines conv rest) v :=
        (ih v).weaken fun u hu => hu.trans hv
      cases x with
      | ok _ => exact hrest
      | error e => exact ⟨hv, hrest⟩

lemma moveAway_stops (w : Files) : Ends (exec clock) (fun _ => True) (fun _ _ => True) moveAway w := by
  have hrename : ∀ v, Ends (exec clock) (fun _ => True) (fun _ _ => True) (rename >>= orThrow) v := by
    intro v
    refine ⟨trivial, fun i => ?_⟩
    cases hj : v.jsonl with
    | none => exact ⟨(v, .error .os), by simp only [exec, hj], trivial, trivial⟩
    | some l => exact ⟨({ v with jsonl := none, bak := some l }, .ok ()), by simp only [exec, hj], trivial, trivial⟩
  rw [moveAway]
  apply Ends.bind
  rw [removeBak, bakExists_bind]
  refine ⟨trivial, fun i => ⟨_, rfl, ?_⟩⟩
  cases hb : w.bak with
  | none => exact ⟨trivial, hrename w⟩
  | some l => exact ⟨trivial, fun j => ⟨({ w with bak := none }, .ok ()), by simp only [exec, hb], trivial, hrename _⟩⟩

/-- A construction that is not interrupted completes. -/
lemma migrate_completes (conv : Conversions) (clock : ℕ → Int64) (w : Files) :
    Ends (exec clock) (fun _ => True) (fun x _ => x = .ok ()) (migrateFromJsonl conv) w := by
  rw [migrateFromJsonl, jsonlExists_bind]
  refine ⟨trivial, fun i => ⟨_, rfl, ?_⟩⟩
  cases hj : w.jsonl with
  | none => exact ⟨trivial, rfl⟩
  | some lines =>
    simp only [Option.isSome_some, ↓reduceIte, count_bind]
    refine ⟨trivial, fun i => ⟨_, rfl, ?_⟩⟩
    change Ends _ _ _ (if 0 < w.table.rows.length then _ else _) w
    split
    · exact ⟨trivial, rfl⟩
    · rw [readLines_bind]
      refine ⟨trivial, fun i => ⟨_, rfl, ?_⟩⟩
      rw [hj]
      change Ends _ _ _ (migrateLines conv lines >>= fun _ => tryCatch moveAway _) w
      apply Ends.bind
      refine ((migrateLines_stops lines w).weaken fun _ _ => trivial).mono ?_
      rintro x v - rfl
      apply Ends.handle
      refine (moveAway_stops v).mono ?_
      rintro (e | _) u - -
      · exact ⟨trivial, rfl⟩
      · rfl

end Completion

lemma migration_from {k : ℕ} (clock : ℕ → Int64) (hl : Legacy conv lines records) (hb : ∀ r ∈ records, Binds conv r)
    (h : Stands conv lines records k w) (cs : List Crash) :
    ∃ u v, run (step conv) w cs = some u ∧
      (migrateFromJsonl conv).alone (exec clock) 0 u = some (v, .ok ()) ∧
        (Migrated conv records v.table ↔
          (k = 0 ∨ k = records.length) ∧ Along (step conv) (AllOrNone conv records) w cs) := by
  induction cs generalizing k w with
  | nil =>
    obtain ⟨v, x, hv, -, rfl, hdone⟩ := (migrate_ends hl hb h).alone 0
    refine ⟨w, v, rfl, hv, ?_⟩
    rw [migrated_iff hl hdone]
    by_cases hk : k = 0
    · simp [hk, Along]
    · simp [hk, Along]
  | cons c cs ih =>
    obtain ⟨m, hm, hkm⟩ := crash_stands hl hb h c
    obtain ⟨u, v, hu, hv, hiff⟩ := ih hm
    refine ⟨u, v, hu, hv, hiff.trans ?_⟩
    have hall : AllOrNone conv records w c ↔ m = 0 ∨ m = records.length := by rw [AllOrNone, hm.length]
    simp only [Along, step, Option.some.injEq, forall_eq', hall]
    rcases hkm with rfl | rfl
    · simp
    · simp

lemma run_steps (conv : Conversions) (w : Files) (cs : List Crash) : ∃ u, run (step conv) w cs = some u := by
  induction cs generalizing w with
  | nil => exact ⟨w, rfl⟩
  | cons c cs ih => exact ih (crash conv w c)

def recordOf (id : String) : Dict :=
  [("id", .str id), ("action", .str "disk_check")]

def lineOf (id : String) : String :=
  "\x7b\"id\": \"" ++ id ++ "\", \"action\": \"disk_check\"\x7d\n"

def twoIds : List String := ["e-1", "e-2"]

def twoRecords : Conversions where
  loads line :=
    match (twoIds.map fun id => (strip (lineOf id), recordOf id)).lookup line with
    | some record => .ok (.dict record)
    | none => .error .value
  str _ := ""
  int _ := .error .value

lemma legacy_two : Legacy twoRecords (twoIds.map lineOf) (twoIds.map recordOf) where
  decoded := by rfl
  accepted := by
    intro r hr now later
    obtain ⟨id, -, rfl⟩ := List.mem_map.mp hr
    exact ⟨_, rfl⟩
  nodup := by decide

lemma binds_two : ∀ r ∈ twoIds.map recordOf, Binds twoRecords r := by
  intro r hr
  obtain ⟨id, -, rfl⟩ := List.mem_map.mp hr
  exact ⟨_, 0, 0, _, rfl, rfl⟩

/-- The process stops before it commits anything. -/
def early : Crash := ⟨5, fun _ => 0⟩

/-- Constructions that stop anywhere leave the next one that does not stop with every record
copied exactly when the table can hold the records, and no crash found some of them committed and
some not. -/
theorem migration_complete_iff (conv : Conversions) (clock : ℕ → Int64) (bak : Option (List String))
    (hl : Legacy conv lines records) (cs : List Crash) :
    ∃ u w, run (step conv) (start lines bak) cs = some u ∧
      (migrateFromJsonl conv).alone (exec clock) 0 u = some (w, .ok ()) ∧
        (Migrated conv records w.table ↔ (∀ r ∈ records, Binds conv r) ∧
          Along (step conv) (AllOrNone conv records) (start lines bak) cs) := by
  by_cases hb : ∀ r ∈ records, Binds conv r
  · obtain ⟨u, w, hu, hw, hiff⟩ := migration_from clock hl hb (stands_start bak) cs
    refine ⟨u, w, hu, hw, hiff.trans (and_congr ?_ Iff.rfl)⟩
    exact iff_of_true (Or.inl rfl) hb
  · obtain ⟨u, hu⟩ := run_steps conv (start lines bak) cs
    obtain ⟨w, x, hw, -, rfl⟩ := (migrate_completes conv clock u).alone 0
    refine ⟨u, w, hu, hw, iff_of_false (fun hm => hb ?_) fun h => hb h.1⟩
    intro r hr
    obtain ⟨e, -, hcopy⟩ := hm r hr
    exact ⟨e, hcopy⟩

theorem early_migrated : ∃ u w, run (step twoRecords) (start (twoIds.map lineOf) none) [early] = some u ∧
    (migrateFromJsonl twoRecords).alone (exec fun _ => 0) 0 u = some (w, .ok ()) ∧
      Migrated twoRecords (twoIds.map recordOf) w.table := by
  obtain ⟨u, w, hu, hw, hiff⟩ :=
    migration_complete_iff twoRecords (fun _ => 0) none legacy_two [early]
  exact ⟨u, w, hu, hw, hiff.mpr ⟨binds_two, by decide⟩⟩

/-- The process stops after it has committed the first record: `count` is then 1 at the next start. -/
def midway : Crash := ⟨6, fun _ => 0⟩

theorem midway_not_migrated :
    ¬ ∀ (conv : Conversions) (lines : List String) (records : List Dict), Legacy conv lines records →
      ∀ (cs : List Crash) (clock : ℕ → Int64) (u w : Files),
        run (step conv) (start lines none) cs = some u →
          (migrateFromJsonl conv).alone (exec clock) 0 u = some (w, .ok ()) →
            Migrated conv records w.table := by
  intro h
  obtain ⟨u, w, hu, hw, hiff⟩ := migration_from (fun _ => 0) legacy_two binds_two (stands_start none) [midway]
  have hmigrated := h _ _ _ legacy_two [midway] _ u w hu hw
  have hall := (hiff.mp hmigrated).2.head
  exact absurd hall (by decide)

end OpsSentry.Ledger.Migration
