import OpsSentry.Cluster.Shipper

/-! No entry is lost between the ledger and the stream, as long as no insert lands behind the
cursor or behind a batch that is under way. -/

namespace OpsSentry.Cluster.Loss

open Foundation.Keyset Foundation.Programs Foundation.Runs
open Ledger (LedgerEntry Table)

/-- Each row is in the stream or ahead of the cursor. -/
def NoLoss (w : World) : Prop := ∀ e ∈ w.ledger.table.rows, e.key ∈ w.sent ∨ w.cursor < e.key

def Ahead (w : World) (k : Cursor) : Prop := w.cursor < k ∧ ∀ b ∈ w.inflight, b.key < k

/-- An INSERT puts its row after the cursor and after the batch that has been selected. -/
def InsertsAhead (_ : Actor) (w : World) : Command → Prop
  | .ledger (.append entry) => ∀ e, entry.bind = .ok e → w.ledger.table.find? e.id = none → Ahead w e.key
  | _ => True

instance (w : World) (k : Cursor) : Decidable (Ahead w k) :=
  inferInstanceAs (Decidable (_ ∧ ∀ b ∈ w.inflight, b.key < k))

instance (o : Option LedgerEntry) : Decidable (o = none) := decidable_of_iff (o.isNone = true) (by simp)

instance decidableForallOk {ε α : Type} {P : α → Prop} [∀ v, Decidable (P v)] : (x : Except ε α) → Decidable (∀ v, x = .ok v → P v)
  | .ok v => decidable_of_iff (P v) (by simp)
  | .error _ => isTrue nofun

instance (a : Actor) (w : World) : (c : Command) → Decidable (InsertsAhead a w c)
  | .ledger (.append entry) =>
    inferInstanceAs (Decidable (∀ e, entry.bind = .ok e → w.ledger.table.find? e.id = none → Ahead w e.key))
  | .ledger .utcMs | .ledger .uuid4 | .ledger (.update ..) | .ledger (.get _) => instDecidableTrue
  | .ledger (.delete _) => instDecidableTrue
  | .readCursor | .getIncremental .. | .execute _ | .setCursor _ | .saveCheckpoint _ => instDecidableTrue

structure Inv (w : World) : Prop where
  reached : ∀ e ∈ w.ledger.table.rows,
    e.key ∈ w.sent ∨ (∃ b ∈ w.inflight, b.key = e.key) ∨ Ahead w e.key
  selected : ∀ b ∈ w.inflight, w.cursor < b.key
  saved : loadCheckpoint w.checkpoint ≤ w.cursor

lemma Inv.noLoss {w : World} (h : Inv w) : NoLoss w := by
  intro e he
  rcases h.reached e he with hs | ⟨b, hb, hk⟩ | ha
  · exact Or.inl hs
  · exact Or.inr (hk ▸ h.selected b hb)
  · exact Or.inr ha.1

lemma NoLoss.inv {w : World} (h : NoLoss w) (hn : w.inflight = [])
    (hc : loadCheckpoint w.checkpoint ≤ w.cursor) : Inv w := by
  refine ⟨fun e he => ?_, by simp [hn], hc⟩
  rcases h e he with hs | ha
  · exact Or.inl hs
  · exact Or.inr (Or.inr ⟨ha, by simp [hn]⟩)

def contract : Contract Node Actor World Procedure where
  Inv := Inv
  Rely a s t := a = .shipper → t.cursor = s.cursor ∧ t.inflight = s.inflight ∧ t.stream = s.stream
  Guard := InsertsAhead
  Pre a p _ := Runs a p
  refl _ _ _ := ⟨rfl, rfl, rfl⟩
  trans h h' ha :=
    ⟨(h' ha).1.trans (h ha).1, (h' ha).2.1.trans (h ha).2.1, (h' ha).2.2.trans (h ha).2.2⟩

instance (a : Actor) (w : World) (c : Command) : Decidable (contract.Guard a w c) :=
  inferInstanceAs (Decidable (InsertsAhead a w c))

lemma yields_shipper {s t : World} (h : Inv t) : contract.Yields .shipper s t :=
  ⟨h, fun _ hb hs => absurd hs hb⟩

section Callers

lemma ledger_yields {n : ℕ} {o : Oracle} {s w : World} {c : Ledger.Command} {y : Ledger.Reply c}
    (hi : Inv s) (hg : InsertsAhead (.caller n) s (.ledger c))
    (h : exec (.caller n) o s (.ledger c) = some (w, y)) : contract.Yields (.caller n) s w := by
  obtain ⟨⟨l, y'⟩, hl, hw⟩ := Option.map_eq_some_iff.mp h
  cases hw
  refine ⟨⟨?_, hi.selected, hi.saved⟩, fun _ _ _ => ⟨rfl, rfl, rfl⟩⟩
  intro e he
  rcases Ledger.exec_keys hl he with ⟨f, hf, hk⟩ | ⟨entry, rfl, hbind, hnone⟩
  · exact hk ▸ hi.reached f hf
  · exact Or.inr (Or.inr (hg e hbind hnone))

end Callers

section Shipper

variable {s : World} {entries : List LedgerEntry} {cursor : Cursor} {limit : ℕ}

lemma select_inv (hi : Inv s) :
    Inv { s with inflight := s.ledger.table.getIncremental s.cursor limit } := by
  have hkey : ∀ b ∈ s.ledger.table.getIncremental s.cursor limit,
      ∃ e ∈ page LedgerEntry.key s.ledger.table.rows s.cursor limit, e.key = b.key := by
    intro b hb
    obtain ⟨e, he, rfl⟩ := List.mem_map.mp hb
    exact ⟨e, he, rfl⟩
  refine ⟨fun e he => ?_, fun b hb => ?_, hi.saved⟩
  · rcases hi.noLoss e he with hs | ha
    · exact Or.inl hs
    · rcases mem_page_or_lt s.ledger.table.nodup_keys he ha with hp | hp
      · exact Or.inr (Or.inl ⟨_, List.mem_map_of_mem hp, rfl⟩)
      · refine Or.inr (Or.inr ⟨ha, fun b hb => ?_⟩)
        obtain ⟨f, hf, hk⟩ := hkey b hb
        exact hk ▸ hp f hf
  · obtain ⟨e, he, hk⟩ := hkey b hb
    exact hk ▸ (mem_page he).2

lemma execute_inv (hi : Inv s) (pipe : List Payload) : Inv { s with stream := s.stream ++ pipe } := by
  refine ⟨fun e he => ?_, hi.selected, hi.saved⟩
  rcases hi.reached e he with hs | h
  · left
    rw [World.sent, List.map_append]
    exact List.mem_append_left _ hs
  · exact Or.inr h

lemma setCursor_inv (hi : Inv s) (hsent : ∀ b ∈ s.inflight, b.key ∈ s.sent)
    {last : LedgerEntry} (hlast : last ∈ s.inflight) :
    Inv { s with cursor := last.key, inflight := [] } := by
  refine NoLoss.inv (fun e he => ?_) rfl (hi.saved.trans (hi.selected last hlast).le)
  rcases hi.reached e he with hs | ⟨b, hb, hk⟩ | ha
  · exact Or.inl hs
  · exact Or.inl (hk ▸ hsent b hb)
  · exact Or.inr (ha.2 last hlast)

lemma discard_inv (hi : Inv s) {drained : Bool} : Inv { s with inflight := [], drained } :=
  NoLoss.inv (w := { s with inflight := [], drained }) hi.noLoss rfl hi.saved

lemma restart_inv (hi : Inv s) :
    Inv { s with cursor := loadCheckpoint s.checkpoint, inflight := [] } := by
  refine NoLoss.inv (fun e he => ?_) rfl le_rfl
  rcases hi.noLoss e he with hs | ha
  · exact Or.inl hs
  · exact Or.inr (hi.saved.trans_lt ha)

lemma finishes {batch_size : ℕ} {x : Except Exc Result} :
    contract.Finishes (auditNode batch_size) .shipper .shipBatch x s := by
  intro t _ hit
  apply yields_shipper
  change Inv (leave .shipper .shipBatch x t)
  simp only [leave]
  split
  · exact discard_inv hit
  · exact discard_inv hit
  · contradiction

lemma deliver_safe {batch_size : ℕ} {last : LedgerEntry} (hlast : s.inflight.getLast? = some last) :
    contract.wp (auditNode batch_size) .shipper (contract.Pre .shipper .shipBatch)
      (contract.Finishes (auditNode batch_size) .shipper .shipBatch)
      (Result.shipped <$> deliver s.inflight last) s := by
  intro t ht hit _ o w y hw
  obtain ⟨-, hflight, -⟩ := ht rfl
  change exec .shipper o t (.execute (s.inflight.map payload)) = some (w, y) at hw
  have hexec := execute_inv hit (s.inflight.map payload)
  simp only [exec] at hw
  split at hw
  · cases hw
    refine ⟨yields_shipper hexec, ?_⟩
    intro u hu hiu _ o w y hw
    cases hw
    obtain ⟨-, hflight', hstream⟩ := hu rfl
    have hset : Inv { u with cursor := last.key, inflight := [] } := by
      apply setCursor_inv hiu
      · intro b hb
        rw [World.sent, hstream, List.map_append, List.map_map]
        exact List.mem_append_right _ (List.mem_map_of_mem (hflight ▸ hflight' ▸ hb))
      · rw [hflight', hflight]
        exact List.mem_of_getLast? hlast
    refine ⟨yields_shipper hset, ?_⟩
    intro v hv hiv _ o w y hw
    obtain ⟨hcursor, -, -⟩ := hv rfl
    change exec .shipper o v (.saveCheckpoint last.key) = some (w, y) at hw
    have hsave : Inv { v with checkpoint := some last.key } :=
      ⟨hiv.reached, hiv.selected, hcursor.symm.le⟩
    simp only [exec] at hw
    split at hw <;> cases hw
    · exact ⟨yields_shipper hiv, finishes⟩
    · exact ⟨yields_shipper hsave, finishes⟩
  · cases hw
    exact ⟨yields_shipper hit, finishes⟩
  · cases hw
    exact ⟨yields_shipper hexec, finishes⟩

lemma shipEntries_safe {batch_size : ℕ} :
    contract.wp (auditNode batch_size) .shipper (contract.Pre .shipper .shipBatch)
      (contract.Finishes (auditNode batch_size) .shipper .shipBatch)
      (Result.shipped <$> shipEntries s.inflight) s := by
  rw [shipEntries]
  split
  · exact finishes
  · exact deliver_safe ‹_›

lemma shipBatch_safe {batch_size : ℕ} :
    contract.Safe (auditNode batch_size) .shipper .shipBatch (body batch_size .shipBatch) s := by
  intro t _ hit _ o w y hw
  cases hw
  refine ⟨Contract.Yields.refl hit, ?_⟩
  -- the cursor that was read is still the cursor when the batch is selected
  intro u hu hiu _ o w y hw
  obtain ⟨hcursor, -, -⟩ := hu rfl
  change exec .shipper o u (.getIncremental t.cursor batch_size) = some (w, y) at hw
  simp only [exec] at hw
  split at hw <;> cases hw
  · exact ⟨Contract.Yields.refl hiu, finishes⟩
  · rw [← hcursor]
    have hselect : Inv { u with inflight := u.ledger.table.getIncremental u.cursor batch_size } :=
      select_inv hiu
    exact ⟨yields_shipper hselect, shipEntries_safe
      (s := { u with inflight := u.ledger.table.getIncremental u.cursor batch_size })⟩

end Shipper

lemma auditNode_meets (batch_size : ℕ) : contract.Meets (auditNode batch_size) := by
  apply meets_of_parts rfl
  · intro n o s w d y hi hg hw
    exact ledger_yields hi hg hw
  · intro s _
    exact shipBatch_safe
  · intro s hi
    exact yields_shipper (restart_inv hi)

/-- In a run whose inserts all land ahead, from a ledger of rows after the initial cursor,
no row is ever lost. -/
theorem no_loss_of_inserts_ahead (batch_size : ℕ) {table : Table}
    (htable : ∀ e ∈ table.rows, initialCursor < e.key) {ls : List (Label Actor Procedure Oracle Empty)}
    {t : Pool Node Actor World Procedure Exc Result}
    (hc : Along (auditNode batch_size).step contract.Respects (Pool.idle (unshipped table)) ls)
    (hr : run (auditNode batch_size).step (Pool.idle (unshipped table)) ls = some t) :
    NoLoss t.shared := by
  have hi : Inv (unshipped table) := NoLoss.inv (fun e he => Or.inr (htable e he)) rfl le_rfl
  exact (contract.sound (auditNode_meets batch_size) hi hc hr).noLoss

section Runs

def creating (n : ℕ) (entry_id : String) : Label Actor Procedure Oracle Empty :=
  .invoke (.caller n) (.ledger (.createEntry "deploy" (some entry_id) none none none))

def steps (a : Actor) (k : ℕ) (clock : Int64) : List (Label Actor Procedure Oracle Empty) :=
  List.replicate k (.advance a { ledger := { clock } })

def shipping : List (Label Actor Procedure Oracle Empty) :=
  .invoke .shipper .shipBatch :: steps .shipper 6 0

/-- Two entries are created one after the other, with a batch shipped after each. -/
def inTurn : List (Label Actor Procedure Oracle Empty) :=
  [creating 0 "a"] ++ steps (.caller 0) 6 5 ++ shipping ++ [creating 1 "b"] ++ steps (.caller 1) 6 6 ++
    shipping

theorem in_turn_no_loss :
    ∃ t, run (auditNode 10).step (Pool.idle (unshipped Table.empty)) inTurn = some t ∧
      t.shared.sent = [toLex (5, "a"), toLex (6, "b")] ∧ NoLoss t.shared := by
  obtain ⟨t, ht, hs⟩ := exists_of_run_any (auditNode 10).step (Pool.idle (unshipped Table.empty)) inTurn
    (fun t => decide (t.shared.sent = [toLex (5, "a"), toLex (6, "b")])) (by decide +kernel)
  exact ⟨t, ht, of_decide_eq_true hs,
    no_loss_of_inserts_ahead 10 (by simp [Table.empty]) (by decide +kernel) ht⟩

/-- Caller 0 stamps its entry at 5 and is overtaken: the entry that caller 1 stamps at 6 is
inserted and shipped first, and the insert of caller 0 lands behind the cursor. -/
def overtaken : List (Label Actor Procedure Oracle Empty) :=
  [creating 0 "a", creating 1 "b"] ++ steps (.caller 0) 3 5 ++ steps (.caller 1) 6 6 ++ shipping ++
    steps (.caller 0) 3 7

theorem overtaken_loses :
    ¬ ∀ ls t, run (auditNode 10).step (Pool.idle (unshipped Table.empty)) ls = some t →
      NoLoss t.shared := by
  intro h
  obtain ⟨t, ht, hs⟩ := exists_of_run_any (auditNode 10).step (Pool.idle (unshipped Table.empty)) overtaken
    (fun t => decide (¬ ∀ k ∈ t.shared.ledger.table.rows.map LedgerEntry.key,
      k ∈ t.shared.sent ∨ t.shared.cursor < k)) (by decide +kernel)
  apply of_decide_eq_true hs
  intro k hk
  obtain ⟨e, he, rfl⟩ := List.mem_map.mp hk
  exact h _ t ht e he

end Runs

end OpsSentry.Cluster.Loss
