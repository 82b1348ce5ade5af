import OpsSentry.Foundation.JsonKeys
import OpsSentry.Foundation.Splits
import OpsSentry.Ledger.Records

/-! `scripts/verify_ledger_migration.py`: the old file and the table have one fingerprint, the hash of the records
of all their entries in the order of the ids. -/

namespace OpsSentry.Ledger.Fingerprints

open Foundation.Crashes Foundation.JsonText Foundation.JsonValues Foundation.Markup Foundation.Programs Foundation.Runs
open Foundation.Splits Foundation.Strings Foundation.Text Foundation.Values
open Migration (AllOrNone Binds Conversions Copy Crash Files Legacy Migrated Stands)
open Records (Row Rows Valid conversions fromText rowOf rowToEntry)

def isHexDigit (c : Char) : Bool := c.isDigit || (97 ≤ c.toNat && c.toNat ≤ 102)

/-- `hashlib.sha256(message).hexdigest()`. -/
structure Sha256 where
  hexdigest : ByteArray → String
  length : ∀ message, (hexdigest message).length = 64
  hex : ∀ message, (hexdigest message).toList.all isHexDigit = true

section Script

variable {F : Type} (fl : Floats F) (base : Conversions) (sha : Sha256)

/-- `json.dumps(entry.to_record(), sort_keys=True)`. -/
def serialized (entry : LedgerEntry PyStr) : String := String.ofList (dumpsSorted fl (toJson fl (.dict entry.toRecord)))

/-- All that `content_hash.update` has been given. -/
def content (entries : List (LedgerEntry PyStr)) : ByteArray :=
  entries.foldl (fun bytes entry => bytes ++ (serialized fl entry).toUTF8) ByteArray.empty

def fingerprint (count : ℕ) (entries : List (LedgerEntry PyStr)) : String :=
  s!"Count: {count}, Hash: {sha.hexdigest (content fl entries)}"

/-- The entries of the lines; the clock is read for each record anew. -/
def readEntries (clock : ℕ → ℤ × ℤ) : ℕ → List String → Except Migration.Exc (List (LedgerEntry PyStr))
  | _, [] => .ok []
  | i, line :: lines =>
    if strip line = "" then readEntries clock (i + 1) lines
    else do
      let entry ← fromText fl base (clock i).1 (clock i).2 line
      let entries ← readEntries clock (i + 1) lines
      pure (entry :: entries)

/-- Python compares strings by their code points. -/
def sortById (entries : List (LedgerEntry PyStr)) : List (LedgerEntry PyStr) :=
  entries.mergeSort fun x y => x.id.points ≤ y.id.points

/-- A line that is no record raises, so those counted are those read. -/
def getJsonlFingerprint (clock : ℕ → ℤ × ℤ) : Option (List String) → Except Migration.Exc String
  | none => .ok "N/A (File not found)"
  | some lines => do
    let entries ← readEntries fl base clock 0 lines
    pure (fingerprint fl sha entries.length (sortById entries))

/-- `SELECT * FROM ledger ORDER BY id ASC`. -/
def ordered (t : Rows) : List Row := t.rows.mergeSort fun x y => x.id ≤ y.id

def getSqliteFingerprint (clock : Row → ℤ × ℤ) : Option Rows → Except Migration.Exc String
  | none => .ok "N/A (Database not found)"
  | some t => do
    let entries ← (ordered t).mapM (rowToEntry fl base clock)
    pure (fingerprint fl sha t.rows.length entries)

/-- Whether it prints `[AUDIT SUCCESS]`. -/
def verifyMigration (clock : ℕ → ℤ × ℤ) (clock' : Row → ℤ × ℤ) (jsonl : Option (List String)) (db : Option Rows) :
    Except Migration.Exc Bool := do
  let jsonl_info ← getJsonlFingerprint fl base sha clock jsonl
  let sqlite_info ← getSqliteFingerprint fl base sha clock' db
  pure (jsonl_info = sqlite_info && (before "N/A".toList jsonl_info.toList).isNone)

end Script

section Statement

variable {F : Type} (fl : Floats F) (sha : Sha256)

/-- One by one the entries have the same record, up to the order of its keys. -/
def SameRecords (entries entries' : List (LedgerEntry PyStr)) : Prop :=
  List.Forall₂ (fun e f => Same (toJson fl (.dict e.toRecord)) (toJson fl (.dict f.toRecord))) entries entries'

/-- Different records, as many of them, have one hash. -/
def Collision (entries entries' : List (LedgerEntry PyStr)) : Prop :=
  entries.length = entries'.length ∧ content fl entries ≠ content fl entries' ∧
    sha.hexdigest (content fl entries) = sha.hexdigest (content fl entries')

/-- The fields of the entry are what `json.loads` can give. -/
def Textual (e : LedgerEntry PyStr) : Prop := IsJson fl (.dict e.toRecord)

/-- The rows that stand for the entries of the table. -/
def stored (t : Table) : Rows where
  rows := t.rows.map (rowOf fl)
  nodup := by
    rw [List.map_map]
    exact t.nodup

/-- The script reads the lines as the migration does: nothing but blanks of JSON is stripped from them, no record
takes its times from the clock, the table can hold it, and its entry is one that its row gives back. -/
structure Auditable (base : Conversions) (lines : List String) (records : List Dict) : Prop where
  plain : ∀ line ∈ lines, Records.loads fl line = Records.loads fl (strip line)
  dated : ∀ r ∈ records, (r.lookup (.text "created_at")).isSome ∧ (r.lookup (.text "updated_at")).isSome
  binds : ∀ r ∈ records, Binds (conversions fl base) r
  valid : ∀ r ∈ records, ∀ e, Copy (conversions fl base) r e → Valid fl e ∧ e.accio_ref ≠ some ""

/-- The process that stops leaves the table empty, or the old file renamed. -/
def Settled (conv : Conversions) (w : Files) (c : Crash) : Prop :=
  (Migration.crash conv w c).table.rows.length = 0 ∨ (Migration.crash conv w c).jsonl = none

instance (conv : Conversions) (w : Files) (c : Crash) : Decidable (Settled conv w c) :=
  inferInstanceAs (Decidable (_ ∨ _))

end Statement

variable {F : Type} {fl : Floats F} {base : Conversions} {sha : Sha256} {es fs : List (LedgerEntry PyStr)}
  {e : LedgerEntry} {rows : List LedgerEntry}

section Content

/-- The fields of the record, as JSON. -/
def fields (fl : Floats F) (e : LedgerEntry PyStr) : List (Str × Json F) := toJsonFields fl e.toRecord

lemma wf_fields {e : LedgerEntry PyStr} (h : Textual fl e) : WF (.obj (fields fl e)) := wf_toJson (.dict e.toRecord) h

lemma foldl_update (bytes : ByteArray) (es : List (LedgerEntry PyStr)) :
    es.foldl (fun bytes entry => bytes ++ (serialized fl entry).toUTF8) bytes =
      bytes ++ (String.ofList ((es.map (fields fl)).flatMap fun kvs => dumpsSorted fl (.obj kvs))).toByteArray := by
  induction es generalizing bytes with
  | nil => simp
  | cons e es ih =>
    rw [List.foldl_cons, ih, List.map_cons, List.flatMap_cons, String.ofList_append, String.toByteArray_append,
      ByteArray.append_assoc]
    rfl

lemma content_eq_iff (hes : ∀ e ∈ es, Textual fl e) (hfs : ∀ f ∈ fs, Textual fl f) :
    content fl es = content fl fs ↔ SameRecords fl es fs := by
  have hwf : ∀ gs : List (LedgerEntry PyStr), (∀ g ∈ gs, Textual fl g) → ∀ kvs ∈ gs.map (fields fl), WF (.obj kvs) := by
    intro gs hgs
    rw [List.forall_mem_map]
    exact fun g hg => wf_fields (hgs g hg)
  have hsame := flatMap_dumpsSorted_eq_iff fl (hwf es hes) (hwf fs hfs)
  rw [List.forall₂_map_left_iff, List.forall₂_map_right_iff] at hsame
  rw [content, content, foldl_update, foldl_update, ByteArray.append_right_inj, String.toByteArray_inj,
    String.ofList_inj, hsame]
  exact Iff.rfl

end Content

section Texts

lemma fingerprint_toList (count : ℕ) (es : List (LedgerEntry PyStr)) : (fingerprint fl sha count es).toList =
    "Count: ".toList ++ Nat.toDigits 10 count ++ ", Hash: ".toList ++ (sha.hexdigest (content fl es)).toList := by
  simp [fingerprint, toString, Nat.repr, List.append_assoc]

lemma fingerprint_eq_iff (count count' : ℕ) (es fs : List (LedgerEntry PyStr)) :
    fingerprint fl sha count es = fingerprint fl sha count' fs ↔
      count = count' ∧ sha.hexdigest (content fl es) = sha.hexdigest (content fl fs) := by
  constructor
  · intro h
    have hlist := congrArg String.toList h
    rw [fingerprint_toList, fingerprint_toList] at hlist
    obtain ⟨hcount, hdigest⟩ := List.append_inj' hlist (by
      rw [String.length_toList, String.length_toList, sha.length, sha.length])
    have hdigits := List.append_cancel_left (List.append_cancel_right hcount)
    have hvalue := congrArg (fun digits => Nat.ofDigitChars 10 digits 0) hdigits
    simp only [Nat.ofDigitChars_toDigits (by decide : 1 < 10) (by decide : 10 ≤ 10)] at hvalue
    exact ⟨hvalue, String.toList_inj.mp hdigest⟩
  · rintro ⟨rfl, hdigest⟩
    rw [fingerprint, fingerprint, hdigest]

lemma available (count : ℕ) (es : List (LedgerEntry PyStr)) :
    before "N/A".toList (fingerprint fl sha count es).toList = none := by
  by_contra hsome
  obtain ⟨pre, hpre⟩ := Option.ne_none_iff_exists'.mp hsome
  obtain ⟨rest, htext⟩ := eq_of_before hpre
  have hmem : 'N' ∈ (fingerprint fl sha count es).toList := by
    rw [htext]
    exact List.mem_append_right _ (List.mem_append_left _ (by decide))
  rw [fingerprint_toList, List.mem_append, List.mem_append, List.mem_append] at hmem
  rcases hmem with ((htext | hdigit) | htext) | hhex
  · exact absurd htext (by decide)
  · exact absurd (Nat.isDigit_of_mem_toDigits (by decide) (by decide) hdigit) (by decide)
  · exact absurd htext (by decide)
  · exact absurd (List.all_eq_true.mp (sha.hex _) _ hhex) (by decide)

end Texts

section Verdict

variable {now : ℕ → ℤ × ℤ} {now' : Row → ℤ × ℤ} {lines : List String} {t : Rows}

lemma length_of_mapM {α β ε : Type} {f : α → Except ε β} {xs : List α} {ys : List β} (h : xs.mapM f = .ok ys) :
    ys.length = xs.length := by
  induction xs generalizing ys with
  | nil =>
    cases h
    rfl
  | cons x xs ih =>
    rw [List.mapM_cons] at h
    obtain ⟨y, -, h⟩ := bind_eq_ok h
    obtain ⟨zs, hzs, h⟩ := bind_eq_ok h
    cases h
    rw [List.length_cons, List.length_cons, ih hzs]

lemma verify_eq (hread : readEntries fl base now 0 lines = .ok es)
    (hrows : (ordered t).mapM (rowToEntry fl base now') = .ok fs) :
    verifyMigration fl base sha now now' (some lines) (some t) = .ok (decide (es.length = fs.length ∧
      sha.hexdigest (content fl (sortById es)) = sha.hexdigest (content fl fs))) := by
  have hlength : fs.length = t.rows.length := by rw [length_of_mapM hrows, ordered, List.length_mergeSort]
  rw [verifyMigration, getJsonlFingerprint, hread, getSqliteFingerprint, hrows, hlength]
  change Except.ok (decide (fingerprint fl sha _ _ = _) && (before _ (fingerprint fl sha _ _).toList).isNone) = _
  rw [available, Option.isNone_none, Bool.and_true, decide_eq_decide.mpr (fingerprint_eq_iff _ _ _ _)]

end Verdict

section Readings

variable {lines : List String} {records : List Dict} {r : Dict} {t : Table}

lemma fromRecord_dated {conv : Conversions} (hcreated : (r.lookup (.text "created_at")).isSome)
    (hupdated : (r.lookup (.text "updated_at")).isSome) (now later now' later' : ℤ) :
    Migration.fromRecord conv now later r = Migration.fromRecord conv now' later' r := by
  obtain ⟨created_at, hcreated⟩ := Option.isSome_iff_exists.mp hcreated
  obtain ⟨updated_at, hupdated⟩ := Option.isSome_iff_exists.mp hupdated
  rw [Migration.fromRecord, Migration.fromRecord]
  simp only [Migration.getD, hcreated, hupdated, Option.getD_some]

lemma loads_of_decode {conv : Conversions} {line : String} (h : Migration.decode conv line = .ok r) :
    conv.loads line = .ok (.dict r) := by
  rw [Migration.decode] at h
  obtain ⟨v, hloads, hdict⟩ := bind_eq_ok h
  cases v with
  | dict record => rw [hloads, Except.ok.inj hdict]
  | _ => cases hdict

lemma fromText_line {line : String} (ha : Auditable fl base lines records) (hline : line ∈ lines) (hr : r ∈ records)
    (hdecode : Migration.decode (conversions fl base) (strip line) = .ok r)
    (hcopy : Copy (conversions fl base) r e) (now later : ℤ) : fromText fl base now later line = .ok e.toPy := by
  obtain ⟨now', later', entry, hread, hbind⟩ := hcopy
  obtain ⟨rfl, -⟩ := LedgerEntry.bind_eq_ok.mp hbind
  obtain ⟨hcreated, hupdated⟩ := ha.dated r hr
  have hloads := loads_of_decode hdecode
  have hconv : (conversions fl base).loads = Records.loads fl := rfl
  rw [hconv] at hloads
  rw [fromText, ha.plain line hline, hloads]
  exact (fromRecord_dated hcreated hupdated now later now'.toInt later'.toInt).trans hread

lemma readEntries_copies (ha : Auditable fl base lines records) (now : ℕ → ℤ × ℤ) {rest : List String}
    {rs : List Dict} (hrest : ∀ line ∈ rest, line ∈ lines) (hrs : ∀ r ∈ rs, r ∈ records)
    (hdecoded : ((rest.map strip).filter (· ≠ "")).map (Migration.decode (conversions fl base)) = rs.map Except.ok)
    (hcopies : List.Forall₂ (Copy (conversions fl base)) rs rows) (i : ℕ) :
    readEntries fl base now i rest = .ok (rows.map LedgerEntry.toPy) := by
  induction rest generalizing rs rows i with
  | nil =>
    obtain rfl : rs = [] := List.map_eq_nil_iff.mp hdecoded.symm
    cases hcopies
    rfl
  | cons line rest ih =>
    rw [List.forall_mem_cons] at hrest
    rw [readEntries]
    rcases eq_or_ne (strip line) "" with hblank | hblank
    · rw [if_pos hblank]
      exact ih hrest.2 hrs (by simpa [hblank] using hdecoded) hcopies (i + 1)
    · rw [if_neg hblank]
      cases hcopies with
      | nil => simp [hblank] at hdecoded
      | @cons r e rs rows hcopy hcopies =>
        obtain ⟨hdecode, htail⟩ : Migration.decode (conversions fl base) (strip line) = .ok r ∧
            ((rest.map strip).filter (· ≠ "")).map (Migration.decode (conversions fl base)) = rs.map Except.ok := by
          simpa [hblank] using hdecoded
        rw [List.forall_mem_cons] at hrs
        rw [fromText_line ha hrest.1 hrs.1 hdecode hcopy, ih hrest.2 hrs.2 htail hcopies (i + 1)]
        rfl

lemma mapM_rowOf {now' : Row → ℤ × ℤ} (hrows : ∀ e ∈ rows, Valid fl e ∧ e.accio_ref ≠ some "") :
    (rows.map (rowOf fl)).mapM (rowToEntry fl base now') = .ok (rows.map LedgerEntry.toPy) := by
  induction rows with
  | nil => rfl
  | cons e rows ih =>
    rw [List.forall_mem_cons] at hrows
    rw [List.map_cons, List.mapM_cons, Records.rowToEntry_rowOf hrows.1.1, Table.rowToEntry_eq_self hrows.1.2, ih hrows.2]
    rfl

lemma points_le_iff {s t : String} : (PyStr.text s).points ≤ (PyStr.text t).points ↔ s ≤ t := by
  have hmono : StrictMono (List.map Char.toNat) := fun l l' h => List.map_lt (fun c d hcd => hcd) h
  rw [PyStr.points, PyStr.points, hmono.le_iff_le, String.le_iff_toList_le]

lemma sortById_toPy (rows : List LedgerEntry) :
    sortById (rows.map LedgerEntry.toPy) = (rows.mergeSort fun x y => x.id ≤ y.id).map LedgerEntry.toPy := by
  symm
  apply List.map_mergeSort
  intro x _ y _
  exact decide_eq_decide.mpr points_le_iff.symm

lemma ordered_stored (t : Table) :
    ordered (stored fl t) = (t.rows.mergeSort fun x y => x.id ≤ y.id).map (rowOf fl) := by
  symm
  apply List.map_mergeSort
  intro x _ y _
  rfl

lemma stored_readable {now' : Row → ℤ × ℤ} (ht : ∀ e ∈ t.rows, Valid fl e ∧ e.accio_ref ≠ some "") :
    (ordered (stored fl t)).mapM (rowToEntry fl base now') = .ok (sortById (t.rows.map LedgerEntry.toPy)) := by
  rw [ordered_stored, sortById_toPy]
  exact mapM_rowOf fun e he => ht e (List.mem_mergeSort.mp he)

/-- The rows of the table grow as the table does. -/
lemma stored_append {t' : Table} (he : Valid fl e) (happend : t.append e = .ok t') :
    (stored fl t).append fl e = .ok (stored fl t') := by
  obtain ⟨row, hrow, -, hinsert⟩ := Table.append_eq_ok.mp happend
  obtain rfl := LedgerEntry.toPy_injective hrow
  have hrows := Table.insert_rows hinsert
  have hfree : e.id ∉ (stored fl t).rows.map Row.id := by
    have hnodup := t'.nodup
    rw [hrows, List.map_append, List.map_singleton] at hnodup
    change e.id ∉ (t.rows.map (rowOf fl)).map Row.id
    rw [List.map_map]
    exact fun hmem => List.disjoint_of_nodup_append hnodup hmem (List.mem_singleton_self _)
  obtain ⟨s, hs⟩ := Records.append_free he hfree
  have hs' : s.rows = (stored fl t').rows := by
    rw [Records.append_ok he hs]
    change t.rows.map (rowOf fl) ++ [rowOf fl e] = t'.rows.map (rowOf fl)
    rw [hrows, List.map_append, List.map_singleton]
  obtain ⟨rows, hnodup⟩ := s
  subst hs'
  exact hs

lemma copies_valid {k : ℕ} {w : Files} (ha : Auditable fl base lines records)
    (h : Stands (conversions fl base) lines records k w) : ∀ e ∈ w.table.rows, Valid fl e ∧ e.accio_ref ≠ some "" := by
  intro e he
  obtain ⟨i, hi, rfl⟩ := List.mem_iff_getElem.mp he
  have hi' : i < (records.take k).length := h.copies.length_eq ▸ hi
  exact ha.valid _ (List.mem_of_mem_take (List.getElem_mem hi')) _ (h.copies.get hi' hi)

end Readings

section Lines

lemma loads_line {kvs : Dict} (h : IsJson fl (.dict kvs)) :
    Records.loads fl (write fl (.dict kvs) ++ "\n") = .ok (.dict kvs) := by
  rw [Records.loads, read_line h]

lemma strip_line (kvs : Dict) : strip (write fl (.dict kvs) ++ "\n") = write fl (.dict kvs) := by
  rw [strip, write, String.toList_append, String.toList_ofList, toJson, dumps]
  generalize ", ".toList.intercalate _ = body
  simp [List.dropWhile, isSpace]

end Lines

section Sample

/-- The hash of the records of `e-1` and `e-2`; that of no bytes stands for all others. -/
def sampleDigest (message : ByteArray) : String :=
  if message.size = 0 then "e3b0c44298fc1c149afbf4c8996fb92427ae41e4649b934ca495991b7852b855"
  else "36dde34225d7b034ba9d7d4d9eb44217b252dd712ce2cde3c026ef289acafb63"

def sampleSha : Sha256 where
  hexdigest := sampleDigest
  length message := by
    rw [sampleDigest]
    split <;> rfl
  hex message := by
    rw [sampleDigest]
    split <;> rfl

def recordOf (id : String) : Dict :=
  [("id", .str id), ("action", .str "disk_check"), ("created_at", .int 1700000000000),
    ("updated_at", .int 1700000000000)]

def entryOf (id : String) : LedgerEntry where
  id := id
  action := "disk_check"
  status := .pending
  checkpoint := []
  created_at := 1700000000000
  updated_at := 1700000000000
  accio_ref := none
  metadata := []
  last_error := none

/-- The later id comes first in the file. -/
def twoIds : List String := ["e-2", "e-1"]

def twoEntries : Table := ⟨twoIds.map entryOf, by decide⟩

/-- The line that `json.dumps` writes of the record. -/
def lineOf (id : String) : String := write Records.tenths (.dict (recordOf id)) ++ "\n"

lemma isJson_recordOf (id : String) : IsJson Records.tenths (.dict (recordOf id)) :=
  ⟨(by decide : ([.text "id", .text "action", .text "created_at", .text "updated_at"] : List PyStr).Nodup),
    ⟨trivial, trivial⟩, ⟨trivial, trivial⟩, ⟨trivial, trivial⟩, ⟨trivial, trivial⟩, trivial⟩

lemma valid_entryOf (id : String) : Valid Records.tenths (entryOf id) where
  checkpoint := ⟨List.nodup_nil, trivial⟩
  metadata := ⟨List.nodup_nil, trivial⟩
  created_at := rfl
  updated_at := rfl

lemma fromRecord_recordOf (id : String) (now later : ℤ) :
    Migration.fromRecord (conversions Records.tenths Migration.twoRecords) now later (recordOf id) =
      .ok (entryOf id).toPy := rfl

lemma copy_recordOf (id : String) :
    Copy (conversions Records.tenths Migration.twoRecords) (recordOf id) (entryOf id) :=
  ⟨0, 0, _, fromRecord_recordOf id _ _, LedgerEntry.bind_toPy ⟨rfl, rfl, rfl⟩⟩

lemma legacy_twoIds : Legacy (conversions Records.tenths Migration.twoRecords) (twoIds.map lineOf) (twoIds.map recordOf) where
  decoded := by
    have hstrip : (twoIds.map lineOf).map strip = twoIds.map fun id => write Records.tenths (.dict (recordOf id)) := by
      rw [List.map_map]
      exact List.map_congr_left fun id _ => strip_line (recordOf id)
    rw [hstrip, List.filter_eq_self.mpr, List.map_map, List.map_map]
    · refine List.map_congr_left fun id _ => ?_
      change Migration.decode _ (write Records.tenths (.dict (recordOf id))) = _
      have hloads := Records.loads_write (isJson_recordOf id)
      have hconv : (conversions Records.tenths Migration.twoRecords).loads = Records.loads Records.tenths := rfl
      rw [Migration.decode, hconv, hloads]
      rfl
    · rw [List.forall_mem_map]
      exact fun id _ => decide_eq_true (Records.write_ne_empty _)
  accepted := by
    intro r hr now later
    obtain ⟨id, -, rfl⟩ := List.mem_map.mp hr
    exact ⟨_, fromRecord_recordOf id now later⟩
  nodup := by decide

lemma auditable_twoIds :
    Auditable Records.tenths Migration.twoRecords (twoIds.map lineOf) (twoIds.map recordOf) where
  plain := by
    rw [List.forall_mem_map]
    intro id _
    rw [lineOf, loads_line (isJson_recordOf id), strip_line, Records.loads_write (isJson_recordOf id)]
  dated := by
    rw [List.forall_mem_map]
    exact fun id _ => ⟨rfl, rfl⟩
  binds := by
    rw [List.forall_mem_map]
    exact fun id _ => ⟨_, copy_recordOf id⟩
  valid := by
    rw [List.forall_mem_map]
    rintro id - e ⟨now, later, entry, hread, hbind⟩
    rw [fromRecord_recordOf, Except.ok.injEq] at hread
    subst hread
    obtain ⟨heq, -⟩ := LedgerEntry.bind_eq_ok.mp hbind
    obtain rfl := LedgerEntry.toPy_injective heq
    exact ⟨valid_entryOf id, fun href => (by cases href)⟩

lemma copies_twoIds : List.Forall₂ (Copy (conversions Records.tenths Migration.twoRecords)) (twoIds.map recordOf)
    (twoIds.map entryOf) := by
  rw [List.forall₂_map_left_iff, List.forall₂_map_right_iff, List.forall₂_same]
  exact fun id _ => copy_recordOf id

end Sample

/-- The audit reports success exactly if the table has the records of the file, one by one in the order of their
ids, or if other records have their hash. -/
theorem audit_success_iff {now : ℕ → ℤ × ℤ} {now' : Row → ℤ × ℤ} {lines : List String} {t : Rows}
    (hread : readEntries fl base now 0 lines = .ok es) (hrows : (ordered t).mapM (rowToEntry fl base now') = .ok fs)
    (hes : ∀ e ∈ es, Textual fl e) (hfs : ∀ f ∈ fs, Textual fl f) :
    verifyMigration fl base sha now now' (some lines) (some t) = .ok true ↔
      SameRecords fl (sortById es) fs ∨ Collision fl sha (sortById es) fs := by
  have hlength : (sortById es).length = es.length := List.length_mergeSort es
  have hcontent : content fl (sortById es) = content fl fs ↔ SameRecords fl (sortById es) fs :=
    content_eq_iff (fun e he => hes e (List.mem_mergeSort.mp he)) hfs
  rw [verify_eq hread hrows, Except.ok.injEq, decide_eq_true_iff]
  constructor
  · rintro ⟨hcount, hdigest⟩
    by_cases hsame : content fl (sortById es) = content fl fs
    · exact .inl (hcontent.mp hsame)
    · exact .inr ⟨hlength.trans hcount, hsame, hdigest⟩
  · rintro (hsame | ⟨hcount, -, hdigest⟩)
    · exact ⟨hlength.symm.trans hsame.length_eq, by rw [hcontent.mpr hsame]⟩
    · exact ⟨hlength.symm.trans hcount, hdigest⟩

theorem two_records_audited : verifyMigration Records.tenths Migration.twoRecords sampleSha (fun _ => (0, 0))
    (fun _ => (0, 0)) (some (twoIds.map lineOf)) (some (stored Records.tenths twoEntries)) = .ok true := by
  have hread : readEntries Records.tenths Migration.twoRecords (fun _ => (0, 0)) 0 (twoIds.map lineOf) =
      .ok ((twoIds.map entryOf).map LedgerEntry.toPy) :=
    readEntries_copies auditable_twoIds _ (fun _ h => h) (fun _ h => h) legacy_twoIds.decoded copies_twoIds 0
  have htextual : ∀ e ∈ (twoIds.map entryOf).map LedgerEntry.toPy, Textual Records.tenths e := by
    rw [List.forall_mem_map, List.forall_mem_map]
    exact fun id _ => Records.isJson_toRecord (valid_entryOf id)
  have hsorted : ∀ e ∈ sortById ((twoIds.map entryOf).map LedgerEntry.toPy), Textual Records.tenths e :=
    fun e he => htextual e (List.mem_mergeSort.mp he)
  have hrows : (ordered (stored Records.tenths twoEntries)).mapM
      (rowToEntry Records.tenths Migration.twoRecords fun _ => (0, 0)) =
        .ok (sortById ((twoIds.map entryOf).map LedgerEntry.toPy)) := by
    refine stored_readable (t := twoEntries) (List.forall_mem_map.mpr fun id _ => ⟨valid_entryOf id, fun href => ?_⟩)
    cases href
  exact (audit_success_iff hread hrows htextual hsorted).mpr (.inl ((content_eq_iff hsorted hsorted).mp rfl))

section Renaming

variable {conv : Conversions} {lines : List String} {records : List Dict} {w v : Files} {clock : ℕ → Int64} {k : ℕ}

/-- The old file is where it was, or it is the backup. -/
def Backed (lines : List String) (w : Files) : Prop :=
  w.jsonl = some lines ∧ w.bak = none ∨ w.jsonl = none ∧ w.bak = some lines

def SameFiles (w v : Files) : Prop := v.jsonl = w.jsonl ∧ v.bak = w.bak

lemma Backed.same (h : Backed lines w) (hsame : SameFiles w v) : Backed lines v := by
  obtain ⟨hjsonl, hbak⟩ := hsame
  rwa [Backed, hjsonl, hbak]

lemma migrateRecord_files {u : Files} (h : SameFiles w u) (line : String) :
    Ends (Migration.exec clock) (SameFiles w) (fun _ v => SameFiles w v) (Migration.migrateRecord conv line) u := by
  rw [Migration.migrateRecord]
  apply Ends.bind
  cases Migration.decode conv line with
  | error e => exact ⟨h, h⟩
  | ok record =>
    refine ⟨h, ?_⟩
    simp only [Migration.utcMs_bind]
    refine ⟨h, fun i => ⟨_, rfl, h, fun j => ⟨_, rfl, ?_⟩⟩⟩
    apply Ends.bind
    cases Migration.fromRecord conv (clock i).toInt (clock j).toInt record with
    | error e => exact ⟨h, h⟩
    | ok entry =>
      refine ⟨h, ?_⟩
      simp only [Migration.append_bind]
      refine ⟨h, fun n => ?_⟩
      cases htable : u.table.append entry with
      | ok table => exact ⟨({ u with table }, .ok ()), by simp only [Migration.exec, htable], h, h⟩
      | error e => exact ⟨(u, .error e), by simp only [Migration.exec, htable], h, h⟩

lemma migrateLines_files {u : Files} (h : SameFiles w u) (rest : List String) :
    Ends (Migration.exec clock) (SameFiles w) (fun x v => x = .ok () ∧ SameFiles w v)
      (Migration.migrateLines conv rest) u := by
  induction rest generalizing u with
  | nil => exact ⟨h, rfl, h⟩
  | cons line rest ih =>
    rw [Migration.migrateLines]
    apply Ends.bind
    rw [Migration.migrateLine]
    split
    · exact ⟨h, ih h⟩
    · apply Ends.handle
      refine (migrateRecord_files h (strip line)).mono ?_
      intro x v hv _
      cases x with
      | ok _ => exact ih hv
      | error e => exact ⟨hv, ih hv⟩

lemma moveAway_files (h : Backed lines w) (hjsonl : w.jsonl = some lines) :
    Ends (Migration.exec clock) (Backed lines) (fun x v => x = .ok () ∧ v.jsonl = none ∧ v.bak = some lines)
      Migration.moveAway w := by
  have hbak : w.bak = none := by
    rcases h with ⟨-, hbak⟩ | ⟨hnone, -⟩
    · exact hbak
    · rw [hjsonl] at hnone
      cases hnone
  have hmoved : Backed lines { w with jsonl := none, bak := some lines } := .inr ⟨rfl, rfl⟩
  rw [Migration.moveAway, Migration.removeBak, Migration.bakExists_bind]
  refine ⟨h, fun i => ⟨_, rfl, ?_⟩⟩
  rw [hbak]
  simp only [Option.isSome_none, Bool.false_eq_true, ↓reduceIte, Prog.pure_eq, Migration.rename_bind]
  exact ⟨h, fun j => ⟨(_, .ok ()), by simp only [Migration.exec, hjsonl], hmoved, rfl, rfl, rfl⟩⟩

/-- A construction renames the old file exactly if it finds it there and the table empty. -/
lemma migrate_files (h : Backed lines w) :
    Ends (Migration.exec clock)
      (fun v => Backed lines v ∧ (0 < w.table.rows.length → v.jsonl = w.jsonl))
      (fun _ v => Backed lines v ∧ (v.jsonl = none ↔ w.table.rows.length = 0 ∨ w.jsonl = none))
      (Migration.migrateFromJsonl conv) w := by
  rw [Migration.migrateFromJsonl, Migration.jsonlExists_bind]
  refine ⟨⟨h, fun _ => rfl⟩, fun i => ⟨_, rfl, ?_⟩⟩
  cases hjsonl : w.jsonl with
  | none => exact ⟨⟨h, fun _ => hjsonl⟩, h, iff_of_true hjsonl (.inr rfl)⟩
  | some l =>
    obtain rfl : l = lines := by
      rcases h with ⟨hsome, -⟩ | ⟨hnone, -⟩
      · exact Option.some.inj (hjsonl.symm.trans hsome)
      · rw [hjsonl] at hnone
        cases hnone
    simp only [Option.isSome_some, ↓reduceIte, Migration.count_bind]
    refine ⟨⟨h, fun _ => hjsonl⟩, fun i => ⟨_, rfl, ?_⟩⟩
    change Ends _ _ _ (if 0 < w.table.rows.length then _ else _) w
    split
    · rename_i hpos
      exact ⟨⟨h, fun _ => hjsonl⟩, h, by simp [hjsonl, Nat.ne_of_gt hpos]⟩
    · rename_i hempty
      rw [Migration.readLines_bind]
      refine Ends.weaken (C := Backed l) ?_ fun v hv => ⟨hv, fun hpos => (hempty hpos).elim⟩
      refine ⟨h, fun j => ⟨_, rfl, ?_⟩⟩
      rw [hjsonl]
      change Ends _ _ _ (Migration.migrateLines conv l >>= fun _ => tryCatch Migration.moveAway _) w
      apply Ends.bind
      refine ((migrateLines_files ⟨rfl, rfl⟩ l).weaken fun v hv => h.same hv).mono ?_
      rintro x v - ⟨rfl, hv⟩
      apply Ends.handle
      refine (moveAway_files (h.same hv) (hv.1.trans hjsonl)).mono ?_
      rintro x u hu ⟨rfl, hnone, -⟩
      exact ⟨hu, iff_of_true hnone (.inl (Nat.eq_zero_of_not_pos hempty))⟩

lemma settled_from (clock : ℕ → Int64) (hl : Legacy conv lines records) (hbinds : ∀ r ∈ records, Binds conv r)
    (h : Stands conv lines records k w) (hb : Backed lines w) (cs : List Crash) :
    ∃ u v m, run (Migration.step conv) w cs = some u ∧
      (Migration.migrateFromJsonl conv).alone (Migration.exec clock) 0 u = some (v, .ok ()) ∧
        Stands conv lines records m v ∧ Backed lines v ∧
          (v.jsonl = none ↔ (w.table.rows.length = 0 ∨ w.jsonl = none) ∧
            Along (Migration.step conv) (Settled conv) w cs) := by
  induction cs generalizing k w with
  | nil =>
    obtain ⟨v, x, hv, -, ⟨rfl, hstands⟩, hbacked, hnone⟩ :=
      ((Migration.migrate_ends hl hbinds h).and (migrate_files hb)).alone 0
    exact ⟨w, v, _, rfl, hv, hstands, hbacked, hnone.trans (and_iff_left trivial).symm⟩
  | cons c cs ih =>
    obtain ⟨⟨m, hm, hkm⟩, hbacked, hkeep⟩ := ((Migration.migrate_ends hl hbinds h).and (migrate_files hb)).cut c.after 0
    obtain ⟨u, v, n, hu, hv, hstands, hback, hnone⟩ := ih hm hbacked
    refine ⟨u, v, n, hu, hv, hstands, hback, hnone.trans ?_⟩
    have hbefore : Settled conv w c → w.table.rows.length = 0 ∨ w.jsonl = none := by
      intro hsettled
      rcases Nat.eq_zero_or_pos w.table.rows.length with hempty | hpos
      · exact .inl hempty
      · have hm' := hm.length
        rw [h.length] at hpos
        rcases hsettled with hzero | hgone
        · change (Migration.crash conv w c).table.rows.length = m at hm'
          omega
        · exact .inr ((hkeep (h.length.symm ▸ hpos)).symm.trans hgone)
    change Settled conv w c ∧ _ ↔ _ ∧ Settled conv w c ∧ ∀ t, Migration.step conv w c = some t → _
    simp only [Migration.step, Option.some.injEq, forall_eq']
    exact ⟨fun hc => ⟨hbefore hc.1, hc⟩, fun hc => hc.2⟩

end Renaming

/-- After constructions that stop anywhere and one that does not, the audit reports success exactly if each of
them that stopped left the table empty or the old file renamed; the table is then complete. -/
theorem audit_confirms_renamed (clock : ℕ → Int64) (now : ℕ → ℤ × ℤ) (now' : Row → ℤ × ℤ) {lines : List String}
    {records : List Dict} (hl : Legacy (conversions fl base) lines records) (ha : Auditable fl base lines records)
    (cs : List Crash) :
    ∃ u w b, run (Migration.step (conversions fl base)) (Migration.start lines none) cs = some u ∧
      (Migration.migrateFromJsonl (conversions fl base)).alone (Migration.exec clock) 0 u = some (w, .ok ()) ∧
        verifyMigration fl base sha now now' w.bak (some (stored fl w.table)) = .ok b ∧
          (b = true ↔ Along (Migration.step (conversions fl base)) (Settled (conversions fl base))
            (Migration.start lines none) cs) ∧
          (b = true → Migrated (conversions fl base) records w.table) := by
  obtain ⟨u, w, m, hu, hw, hstands, hbacked, hnone⟩ :=
    settled_from clock hl ha.binds (Migration.stands_start none) (.inl ⟨rfl, rfl⟩) cs
  have hiff : w.jsonl = none ↔ Along (Migration.step (conversions fl base)) (Settled (conversions fl base))
      (Migration.start lines none) cs := hnone.trans (and_iff_right (.inl rfl))
  have hrows : (ordered (stored fl w.table)).mapM (rowToEntry fl base now') =
      .ok (sortById (w.table.rows.map LedgerEntry.toPy)) :=
    stored_readable (copies_valid ha hstands)
  rcases hbacked with ⟨hjsonl, hbak⟩ | ⟨hjsonl, hbak⟩
  · refine ⟨u, w, false, hu, hw, ?_, ?_, fun h => (by cases h)⟩
    · have hmissing : (before "N/A".toList "N/A (File not found)".toList).isNone = false := by decide
      rw [verifyMigration, hbak, getSqliteFingerprint, hrows]
      change Except.ok (_ && (before "N/A".toList "N/A (File not found)".toList).isNone) = _
      rw [hmissing, Bool.and_false]
    · rw [← hiff, hjsonl]
      simp
  · have hall : m = records.length := by
      rcases hstands.jsonl with hsome | ⟨-, hall⟩
      · rw [hjsonl] at hsome
        cases hsome
      · exact hall
    have hcopies := hstands.copies
    rw [hall, List.take_length] at hcopies
    have hread : readEntries fl base now 0 lines = .ok (w.table.rows.map LedgerEntry.toPy) :=
      readEntries_copies ha now (fun _ h => h) (fun _ h => h) hl.decoded hcopies 0
    refine ⟨u, w, true, hu, hw, ?_, iff_of_true rfl (hiff.mp hjsonl), fun _ => (Migration.migrated_iff hl hstands).mpr hall⟩
    rw [hbak, verify_eq hread hrows]
    simp [sortById, List.length_mergeSort]

/-- The process stops when it has read the old file. -/
def reading : Crash := ⟨3, fun _ => 0⟩

theorem two_records_confirmed : ∃ u w,
    run (Migration.step (conversions Records.tenths Migration.twoRecords)) (Migration.start (twoIds.map lineOf) none)
        [reading] = some u ∧
      (Migration.migrateFromJsonl (conversions Records.tenths Migration.twoRecords)).alone
        (Migration.exec fun _ => 0) 0 u = some (w, .ok ()) ∧
      verifyMigration Records.tenths Migration.twoRecords sampleSha (fun _ => (0, 0)) (fun _ => (0, 0)) w.bak
        (some (stored Records.tenths w.table)) = .ok true := by
  obtain ⟨u, w, b, hu, hw, hverify, hiff, -⟩ := @audit_confirms_renamed _ _ _ sampleSha (fun _ => 0)
    (fun _ => (0, 0)) (fun _ => (0, 0)) _ _ legacy_twoIds auditable_twoIds [reading]
  have hb : b = true := hiff.mpr (by decide)
  exact ⟨u, w, hu, hw, hb ▸ hverify⟩

end OpsSentry.Ledger.Fingerprints
