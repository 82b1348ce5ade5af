import OpsSentry.Cluster.Shipper

/-! Shipping a ledger that does not change: failed attempts and restarts repeat entries in
the stream, but leave none out and never put one before its turn. -/

namespace OpsSentry.Cluster.Resume

open Foundation.Keyset Foundation.Programs Foundation.Runs
open Ledger (LedgerEntry Table)

/-- No call writes to the ledger. -/
def Unwritten (_ : Actor) (_ : World) : Command → Prop
  | .ledger (.append _) | .ledger (.update ..) | .ledger (.delete _) => False
  | _ => True

instance (a : Actor) (w : World) : (c : Command) → Decidable (Unwritten a w c)
  | .ledger (.append _) | .ledger (.update ..) | .ledger (.delete _) => instDecidableFalse
  | .ledger .utcMs | .ledger .uuid4 | .ledger (.get _) => instDecidableTrue
  | .readCursor | .getIncremental .. | .execute _ | .setCursor _ | .saveCheckpoint _ => instDecidableTrue

def ids (table : Table) : List String := (ordered LedgerEntry.key table.rows).map LedgerEntry.id

def Sent (w : World) (e : LedgerEntry) : Prop := payload (Table.rowToEntry e) ∈ w.stream

structure Resumable (table : Table) (w : World) : Prop where
  static : w.ledger.table = table
  behind_cursor : ∀ e ∈ table.rows, e.key ≤ w.cursor → Sent w e
  checkpoint_le : loadCheckpoint w.checkpoint ≤ w.cursor
  payloads : ∀ p ∈ w.stream, ∃ e ∈ table.rows, p = payload (Table.rowToEntry e)
  in_order : (w.stream.map Payload.id).eraseDups <+: ids table
  drained : w.drained = true → ∀ e ∈ table.rows, Sent w e

/-- The stream has the first `k` rows, the cursor stands behind `m` of them and the
checkpoint behind `d`. -/
structure Progress (table : Table) (w : World) (k m d : ℕ) : Prop where
  static : w.ledger.table = table
  cursor : Splits LedgerEntry.key table.rows m w.cursor
  checkpoint : Splits LedgerEntry.key table.rows d (loadCheckpoint w.checkpoint)
  checkpoint_le : loadCheckpoint w.checkpoint ≤ w.cursor
  d_le_m : d ≤ m
  m_le_k : m ≤ k
  sent : (w.stream.map Payload.id).eraseDups = (ids table).take k
  payloads : ∀ p ∈ w.stream, ∃ e ∈ table.rows, p = payload (Table.rowToEntry e)
  drained : w.drained = true → ∀ e ∈ table.rows, Sent w e

def Inv (table : Table) (w : World) : Prop := ∃ k m d, Progress table w k m d

variable {table : Table} {w : World} {k m d limit : ℕ}

lemma ids_nodup (table : Table) : (ids table).Nodup := by
  have hperm : (ordered LedgerEntry.key table.rows).Perm table.rows := List.perm_insertionSort _ _
  exact (hperm.map LedgerEntry.id).nodup_iff.mpr table.nodup

lemma Progress.sent_of_le (h : Progress table w k m d) {e : LedgerEntry} (he : e ∈ table.rows)
    (hc : e.key ≤ w.cursor) : Sent w e := by
  have hmem : e ∈ (ordered LedgerEntry.key table.rows).take m := by
    have hall : e ∈ ordered LedgerEntry.key table.rows := mem_ordered.mpr he
    rw [← List.take_append_drop m (ordered LedgerEntry.key table.rows)] at hall
    rcases List.mem_append.mp hall with htake | hdrop
    · exact htake
    · exact absurd (h.cursor.2 e hdrop) (not_lt.mpr hc)
  have hid : e.id ∈ (ids table).take k := by
    rw [ids, ← List.map_take]
    exact List.mem_map_of_mem (List.take_subset_take_left _ h.m_le_k hmem)
  rw [← h.sent, List.mem_eraseDups] at hid
  obtain ⟨p, hp, hpe⟩ := List.mem_map.mp hid
  obtain ⟨f, hf, rfl⟩ := h.payloads p hp
  have hfe : f = e := List.inj_on_of_nodup_map table.nodup hf he hpe
  exact hfe ▸ hp

lemma Progress.resumable (h : Progress table w k m d) : Resumable table w where
  static := h.static
  behind_cursor _ he hc := h.sent_of_le he hc
  checkpoint_le := h.checkpoint_le
  payloads := h.payloads
  in_order := h.sent ▸ List.take_prefix k _
  drained := h.drained

def batch (table : Table) (m limit : ℕ) : List LedgerEntry :=
  ((ordered LedgerEntry.key table.rows).drop m |>.take limit).map Table.rowToEntry

lemma Progress.select (h : Progress table w k m d) (limit : ℕ) :
    w.ledger.table.getIncremental w.cursor limit = batch table m limit := by
  rw [Table.getIncremental, h.static, page_eq table.nodup_keys h.cursor, batch]

lemma Progress.select_nil (h : Progress table w k m d) (hl : 0 < limit) (hb : batch table m limit = [])
    {e : LedgerEntry} (he : e ∈ table.rows) : Sent w e := by
  apply h.sent_of_le he
  rw [batch, List.map_eq_nil_iff, ← page_eq table.nodup_keys h.cursor] at hb
  exact le_of_page_eq_nil hl hb he

lemma Progress.execute (h : Progress table w k m d) (limit : ℕ) :
    Progress table { w with stream := w.stream ++ (batch table m limit).map payload }
      (max k (m + limit)) m d := by
  have hids : ((batch table m limit).map payload).map Payload.id = ((ids table).drop m).take limit := by
    rw [batch, List.map_map, List.map_map, ids, ← List.map_drop, ← List.map_take]
    rfl
  refine { h with m_le_k := le_max_of_le_left h.m_le_k, sent := ?_, payloads := ?_, drained := ?_ }
  · rw [List.map_append, hids]
    exact eraseDups_append_stretch (ids_nodup table) h.m_le_k h.sent
  · intro p hp
    rcases List.mem_append.mp hp with hp | hp
    · exact h.payloads p hp
    · obtain ⟨f, hf, rfl⟩ := List.mem_map.mp hp
      obtain ⟨e, he, rfl⟩ := List.mem_map.mp hf
      exact ⟨e, mem_ordered.mp (List.mem_of_mem_drop (List.mem_of_mem_take he)), rfl⟩
  · intro hd e he
    exact List.mem_append_left _ (h.drained hd e he)

lemma Progress.setCursor (h : Progress table w k m d) {last : LedgerEntry}
    (hlast : (batch table m limit).getLast? = some last) (hk : m + (batch table m limit).length ≤ k) :
    Progress table { w with cursor := last.key, inflight := [] } k (m + (batch table m limit).length) d := by
  have hpage : page LedgerEntry.key table.rows w.cursor limit =
      ((ordered LedgerEntry.key table.rows).drop m).take limit := page_eq table.nodup_keys h.cursor
  rw [batch, List.getLast?_map] at hlast
  obtain ⟨row, hrow, rfl⟩ := Option.map_eq_some_iff.mp hlast
  rw [← hpage] at hrow
  have hsplit := splits_getLast_page table.nodup_keys h.cursor hrow
  have hlt := (mem_page (List.mem_of_getLast? hrow)).2
  rw [hpage] at hsplit
  refine { h with cursor := ?_, checkpoint_le := ?_, d_le_m := ?_, m_le_k := hk }
  · rw [batch, List.length_map]
    exact hsplit
  · exact h.checkpoint_le.trans hlt.le
  · exact h.d_le_m.trans (Nat.le_add_right _ _)

lemma Progress.saveCheckpoint (h : Progress table w k m d) :
    Progress table { w with checkpoint := some w.cursor } k m m :=
  { h with checkpoint := h.cursor, checkpoint_le := le_rfl, d_le_m := le_rfl }

lemma Progress.restart (h : Progress table w k m d) :
    Progress table { w with cursor := loadCheckpoint w.checkpoint, inflight := [] } k d d :=
  { h with cursor := h.checkpoint, checkpoint_le := le_rfl, d_le_m := le_rfl,
           m_le_k := h.d_le_m.trans h.m_le_k }

lemma Progress.discard (h : Progress table w k m d) {b : Bool}
    (hb : b = true → ∀ e ∈ table.rows, Sent w e) :
    Progress table { w with inflight := [], drained := b } k m d :=
  { h with drained := hb }

lemma Progress.inflight (h : Progress table w k m d) (entries : List LedgerEntry) :
    Progress table { w with inflight := entries } k m d :=
  { h with }

/-- While the ledger stands still, nothing at all happens to the node but what its shipper does. -/
def contract (table : Table) : Contract Node Actor World Procedure where
  Inv := Inv table
  Rely a s t := a = .shipper → t = s
  Guard := Unwritten
  Pre a p _ := Runs a p
  refl _ _ _ := rfl
  trans h h' ha := (h' ha).trans (h ha)

instance (a : Actor) (w : World) (c : Command) : Decidable ((contract table).Guard a w c) :=
  inferInstanceAs (Decidable (Unwritten a w c))

lemma yields_shipper {s t : World} (h : Progress table t k m d) : (contract table).Yields .shipper s t :=
  ⟨⟨k, m, d, h⟩, fun _ hb hs => absurd hs hb⟩

/-- The commands of a caller that writes nothing leave the whole node as it is. -/
lemma ledger_yields {n : ℕ} {o : Oracle} {s w : World} {c : Ledger.Command} {y : Ledger.Reply c}
    (hi : Inv table s)
    (hg : Unwritten (.caller n) s (.ledger c)) (h : exec (.caller n) o s (.ledger c) = some (w, y)) :
    (contract table).Yields (.caller n) s w := by
  obtain ⟨⟨l, y'⟩, hl, hw⟩ := Option.map_eq_some_iff.mp h
  cases hw
  cases c <;> first | exact hg.elim | (cases hl; exact Contract.Yields.refl hi)

section Shipper

variable {batch_size : ℕ} {s : World}

lemma finishes {x : Except Exc Result} (h : Progress table s k m d)
    (hx : x = .ok (.shipped 0) → ∀ e ∈ table.rows, Sent s e) :
    (contract table).Finishes (auditNode batch_size) .shipper .shipBatch x s := by
  intro t ht _
  obtain rfl := ht rfl
  change (contract table).Yields .shipper t (leave .shipper .shipBatch x t)
  simp only [leave]
  split
  · exact yields_shipper (h.discard fun _ => hx rfl)
  · exact yields_shipper (h.discard h.drained)
  · contradiction

lemma deliver_safe (h : Progress table s k m d) {last : LedgerEntry}
    (hlast : (batch table m batch_size).getLast? = some last) :
    (contract table).wp (auditNode batch_size) .shipper ((contract table).Pre .shipper .shipBatch)
      ((contract table).Finishes (auditNode batch_size) .shipper .shipBatch)
      (Result.shipped <$> deliver (batch table m batch_size) last) s := by
  have hlength : (batch table m batch_size).length ≤ batch_size := by
    rw [batch, List.length_map]
    exact List.length_take_le _ _
  have hexec := h.execute batch_size
  intro t ht _ _ o w y hw
  obtain rfl := ht rfl
  change exec .shipper o t (.execute ((batch table m batch_size).map payload)) = some (w, y) at hw
  simp only [exec] at hw
  split at hw
  · cases hw
    refine ⟨yields_shipper hexec, ?_⟩
    intro u hu _ _ o w y hw
    obtain rfl := hu rfl
    cases hw
    have hset := hexec.setCursor hlast (le_max_of_le_right (by omega))
    refine ⟨yields_shipper hset, ?_⟩
    intro v hv _ _ o w y hw
    obtain rfl := hv rfl
    change exec .shipper o _ (.saveCheckpoint last.key) = some (w, y) at hw
    simp only [exec] at hw
    split at hw <;> cases hw
    · exact ⟨yields_shipper hset, finishes hset (by simp)⟩
    · refine ⟨yields_shipper hset.saveCheckpoint, finishes hset.saveCheckpoint ?_⟩
      intro hzero
      -- a batch with a last entry is not empty
      simp only [Except.ok.injEq, Result.shipped.injEq, List.length_eq_zero_iff] at hzero
      rw [hzero] at hlast
      cases hlast
  · cases hw
    exact ⟨yields_shipper h, finishes h (by simp)⟩
  · cases hw
    exact ⟨yields_shipper hexec, finishes hexec (by simp)⟩

lemma shipEntries_safe (hb : 0 < batch_size) (h : Progress table s k m d) :
    (contract table).wp (auditNode batch_size) .shipper ((contract table).Pre .shipper .shipBatch)
      ((contract table).Finishes (auditNode batch_size) .shipper .shipBatch)
      (Result.shipped <$> shipEntries (batch table m batch_size)) s := by
  rw [shipEntries]
  split
  · rename_i hnil
    apply finishes h
    intro _ e he
    exact h.select_nil hb (List.getLast?_eq_none_iff.mp hnil) he
  · exact deliver_safe h ‹_›

lemma shipBatch_safe (hb : 0 < batch_size) (hi : Inv table s) :
    (contract table).Safe (auditNode batch_size) .shipper .shipBatch (body batch_size .shipBatch) s := by
  obtain ⟨k, m, d, h⟩ := hi
  intro t ht _ _ o w y hw
  obtain rfl := ht rfl
  cases hw
  refine ⟨yields_shipper h, ?_⟩
  intro u hu _ _ o w y hw
  obtain rfl := hu rfl
  change exec .shipper o u (.getIncremental u.cursor batch_size) = some (w, y) at hw
  simp only [exec] at hw
  split at hw <;> cases hw
  · exact ⟨yields_shipper h, finishes h (by simp)⟩
  · rw [h.select batch_size]
    exact ⟨yields_shipper (h.inflight _), shipEntries_safe hb (h.inflight _)⟩

end Shipper

lemma auditNode_meets {batch_size : ℕ} (hb : 0 < batch_size) :
    (contract table).Meets (auditNode batch_size) := by
  apply meets_of_parts rfl
  · intro n o s w d y hi hg hw
    exact ledger_yields hi hg hw
  · intro s hi
    exact shipBatch_safe hb hi
  · rintro s ⟨k, m, d, h⟩
    exact yields_shipper h.restart

lemma initialCursor_lt {e : LedgerEntry} (hc : 0 ≤ e.created_at) (hid : e.id ≠ "") :
    initialCursor < e.key := by
  have hempty : "" < e.id := by
    rcases lt_or_gt_of_ne hid with h | h
    · rw [String.lt_iff_toList_lt] at h
      exact absurd h (List.not_lt_nil _)
    · exact h
  rw [initialCursor, LedgerEntry.key, Prod.Lex.toLex_lt_toLex]
  rcases hc.lt_or_eq with h | h
  · exact Or.inl h
  · exact Or.inr ⟨h, hempty⟩

lemma unshipped_progress (hrows : ∀ e ∈ table.rows, 0 ≤ e.created_at ∧ e.id ≠ "") :
    Progress table (unshipped table) 0 0 0 := by
  have hsplit : Splits LedgerEntry.key table.rows 0 initialCursor := by
    refine ⟨by simp, fun e he => ?_⟩
    obtain ⟨hc, hid⟩ := hrows e (mem_ordered.mp he)
    exact initialCursor_lt hc hid
  exact
    { static := rfl
      cursor := hsplit
      checkpoint := hsplit
      checkpoint_le := le_rfl
      d_le_m := le_rfl
      m_le_k := le_rfl
      sent := rfl
      payloads := by simp [unshipped]
      drained := by simp [unshipped] }

/-- Whatever attempts fail, stop half way or are repeated after a restart. -/
theorem resumable_of_unwritten {batch_size : ℕ} (hb : 0 < batch_size)
    (hrows : ∀ e ∈ table.rows, 0 ≤ e.created_at ∧ e.id ≠ "")
    {ls : List (Label Actor Procedure Oracle Empty)} {t : Pool Node Actor World Procedure Exc Result}
    (hc : Along (auditNode batch_size).step (contract table).Respects (Pool.idle (unshipped table)) ls)
    (hr : run (auditNode batch_size).step (Pool.idle (unshipped table)) ls = some t) :
    Resumable table t.shared := by
  have hi : Inv table (unshipped table) := ⟨0, 0, 0, unshipped_progress hrows⟩
  obtain ⟨k, m, d, h⟩ := (contract table).sound (auditNode_meets hb) hi hc hr
  exact h.resumable

section Runs

def row (entry_id : String) (created_at : ℤ) : LedgerEntry :=
  { id := entry_id, action := "deploy", status := .pending, checkpoint := [], created_at,
    updated_at := created_at, accio_ref := none, metadata := [], last_error := none }

def threeRows : Table := ⟨[row "b" 7, row "c" 5, row "a" 7], by decide⟩

def attempt (k : ℕ) (o : Oracle) : List (Label Actor Procedure Oracle Empty) :=
  .invoke .shipper .shipBatch :: List.replicate k (.advance .shipper o)

/-- A batch whose checkpoint is not written, a restart, a batch that is applied but reported
as failed, and then attempts until one returns 0. -/
def troubled : List (Label Actor Procedure Oracle Empty) :=
  attempt 6 { writeFails := true } ++ [.crash .shipper] ++ attempt 4 { delivery := .unreported } ++
    attempt 6 {} ++ attempt 6 {} ++ attempt 3 {}

theorem troubled_resumable :
    ∃ t, run (auditNode 2).step (Pool.idle (unshipped threeRows)) troubled = some t ∧
      t.shared.stream.map Payload.id = ["c", "a", "c", "a", "c", "a", "b"] ∧ t.shared.drained = true ∧
      Resumable threeRows t.shared := by
  obtain ⟨t, ht, hs⟩ := exists_of_run_any (auditNode 2).step (Pool.idle (unshipped threeRows)) troubled
    (fun t => decide (t.shared.stream.map Payload.id = ["c", "a", "c", "a", "c", "a", "b"] ∧
      t.shared.drained = true)) (by decide +kernel)
  obtain ⟨hstream, hd⟩ := of_decide_eq_true hs
  exact ⟨t, ht, hstream, hd,
    resumable_of_unwritten (by decide) (by decide +kernel) (by decide +kernel) ht⟩

end Runs

end OpsSentry.Cluster.Resume
