import OpsSentry.Cluster.Shipper

/-! Whether the last record of an entry in the stream is what the ledger has of it. -/

namespace OpsSentry.Cluster.Convergence

open Foundation.Keyset Foundation.Programs Foundation.Runs Foundation.Strings
open Ledger (LedgerEntry Table)

def lastRecord (stream : List Payload) (entry_id : String) : Option Payload :=
  (stream.filter fun p => p.id = entry_id).getLast?

/-- What `to_record` makes of the entry that is read from a row. -/
def record (row : LedgerEntry) : Foundation.Values.Dict := (Table.rowToEntry row).toRecord

/-- The last record of each entry that is in the stream and in the ledger is its current one. -/
def Converged (w : World) : Prop :=
  ∀ entry_id row p, w.ledger.table.find? entry_id = some row → lastRecord w.stream entry_id = some p → p.data = record row

/-- `_ship_batch` is about to select a batch, and there is nothing to select. -/
def nothingLeft (t : Pool Node Actor World Procedure Exc Result) : Bool :=
  match t.active .shipper with
  | some (_, .call (.getIncremental cursor limit) _) => (t.shared.ledger.table.getIncremental cursor limit).isEmpty
  | _ => false

/-- The entry is in the stream, or in the batch that is under way. -/
def Taken (w : World) (entry_id : PyStr) : Prop :=
  (∃ p ∈ w.stream, p.id = entry_id) ∨ ∃ b ∈ w.inflight, b.id = entry_id

/-- What has been taken for the stream is not changed any more. -/
def LeavesTaken (_ : Actor) (w : World) : Command → Prop
  | .ledger (.update entry_id updates expected) =>
    Taken w entry_id → ∀ row, w.ledger.table.row? entry_id = some row → ∀ fields, Table.Sets updates fields →
      record (Table.updated fields row.id expected row) = record row
  | .ledger (.delete entry_id) => ¬ Taken w entry_id
  | _ => True

structure Inv (w : World) : Prop where
  current : Converged w
  selected : ∀ b ∈ w.inflight, ∃ row, w.ledger.table.find? b.id = some row ∧ b.toRecord = record row
  known : ∀ p ∈ w.stream, w.ledger.table.find? p.id ≠ none

def contract : Contract Node Actor World Procedure where
  Inv := Inv
  Rely a s t := a = .shipper → t.inflight = s.inflight
  Guard := LeavesTaken
  Pre a p _ := Runs a p
  refl _ _ _ := rfl
  trans h h' ha := (h' ha).trans (h ha)

section Stream

variable {stream pipe : List Payload} {entry_id : String} {p : Payload}

lemma mem_of_lastRecord (h : lastRecord stream entry_id = some p) : p ∈ stream ∧ p.id = entry_id := by
  have hmem := List.mem_of_getLast? h
  obtain ⟨hstream, hid⟩ := List.mem_filter.mp hmem
  exact ⟨hstream, of_decide_eq_true hid⟩

lemma lastRecord_append (h : lastRecord (stream ++ pipe) entry_id = some p) :
    lastRecord pipe entry_id = some p ∨ lastRecord stream entry_id = some p := by
  rw [lastRecord, List.filter_append, List.getLast?_append] at h
  rcases Option.or_eq_some_iff.mp h with h | ⟨-, h⟩
  · exact Or.inl h
  · exact Or.inr h

end Stream

section Ledger

variable {w : World} {table : Table} {log : List Ledger.Record}

lemma Inv.change (hi : Inv w) (htaken : ∀ (i : String) row, Taken w i → w.ledger.table.find? i = some row →
      ∃ row', table.find? i = some row' ∧ record row' = record row) :
    Inv { w with ledger := ⟨table, log⟩ } where
  current entry_id row p hrow hp := by
    obtain ⟨hmem, hid⟩ := mem_of_lastRecord hp
    have htaken' : Taken w entry_id := Or.inl ⟨p, hmem, congrArg PyStr.text hid⟩
    obtain ⟨old, hold⟩ := Option.ne_none_iff_exists'.mp (hid ▸ hi.known p hmem)
    obtain ⟨row', hrow', hsame⟩ := htaken entry_id old htaken' hold
    obtain rfl := Option.some.inj (hrow'.symm.trans hrow)
    exact (hi.current entry_id old p hold hp).trans hsame.symm
  selected b hb := by
    obtain ⟨row, hrow, hrecord⟩ := hi.selected b hb
    obtain ⟨row', hrow', hsame⟩ := htaken b.id row (Or.inr ⟨b, hb, rfl⟩) hrow
    exact ⟨row', hrow', hrecord.trans hsame.symm⟩
  known p hp := by
    obtain ⟨old, hold⟩ := Option.ne_none_iff_exists'.mp (hi.known p hp)
    obtain ⟨row', hrow', -⟩ := htaken p.id old (Or.inl ⟨p, hp, rfl⟩) hold
    simp [hrow']

lemma append_inv {entry : LedgerEntry PyStr} (hi : Inv w) (h : w.ledger.table.append entry = .ok table) :
    Inv { w with ledger := ⟨table, log⟩ } := by
  obtain ⟨e, rfl, -, hinsert⟩ := Table.append_eq_ok.mp h
  obtain ⟨hfree, hfind⟩ := Table.insert_ok hinsert
  apply hi.change
  intro i row _ hrow
  refine ⟨row, ?_, rfl⟩
  rw [hfind, if_neg]
  · exact hrow
  · rintro rfl
    rw [hfree] at hrow
    cases hrow

lemma update_inv {entry_id : PyStr} {updates : List (Ledger.Assignment PyStr)}
    {expected : Option (List Ledger.Status)}
    {success : Bool} (hi : Inv w) (h : w.ledger.table.update entry_id updates expected = .ok (table, success))
    (hleaves : LeavesTaken .shipper w (.ledger (.update entry_id updates expected))) :
    Inv { w with ledger := ⟨table, log⟩ } := by
  apply hi.change
  intro i row htaken hrow
  rcases Table.update_eq_ok.mp h with ⟨-, hsame⟩ | ⟨j, fields, rfl, hsets, hset⟩
  · cases hsame
    exact ⟨row, hrow, rfl⟩
  · obtain rfl : table = (w.ledger.table.set j fields expected).1 := congrArg Prod.fst hset
    by_cases hij : i = j
    · subst hij
      obtain rfl := Table.find?_id hrow
      refine ⟨Table.updated fields row.id expected row, ?_, hleaves htaken row hrow fields hsets⟩
      rw [Table.find?_set, hrow, Option.map_some]
    · exact ⟨row, (Table.set_other hij).trans hrow, rfl⟩

lemma delete_inv {entry_id : PyStr} (hi : Inv w) (h : w.ledger.table.delete entry_id = .ok table)
    (hfree : ¬ Taken w entry_id) : Inv { w with ledger := ⟨table, log⟩ } := by
  obtain ⟨j, hj, h⟩ := bind_eq_ok h
  obtain rfl := Ledger.bindText_eq_ok.mp hj
  cases h
  apply hi.change
  intro i row htaken hrow
  refine ⟨row, ?_, rfl⟩
  rw [Table.find?_remove, if_neg]
  · exact hrow
  · rintro rfl
    exact hfree htaken

lemma ledger_yields {n : ℕ} {o : Oracle} {s : World} {c : Ledger.Command} {y : Ledger.Reply c} (hi : Inv s)
    (hg : LeavesTaken (.caller n) s (.ledger c)) (h : exec (.caller n) o s (.ledger c) = some (w, y)) :
    contract.Yields (.caller n) s w := by
  obtain ⟨⟨l, y'⟩, hl, hw⟩ := Option.map_eq_some_iff.mp h
  cases hw
  refine ⟨?_, fun _ _ _ => rfl⟩
  cases c with
  | utcMs =>
    cases hl
    exact hi
  | uuid4 =>
    cases hl
    exact hi
  | get entry_id =>
    cases hl
    exact hi
  | append entry =>
    rw [Ledger.exec] at hl
    split at hl
    · cases hl
      exact hi
    · cases hl
      exact append_inv hi ‹_›
  | update entry_id updates expected =>
    rw [Ledger.exec] at hl
    split at hl
    · cases hl
      exact hi
    · cases hl
      exact update_inv hi ‹_› hg
  | delete entry_id =>
    rw [Ledger.exec] at hl
    split at hl
    · cases hl
      exact hi
    · cases hl
      exact delete_inv hi ‹_› hg

end Ledger

section Shipper

variable {s : World} {batch_size limit : ℕ} {cursor : Cursor}

lemma yields_shipper {s t : World} (h : Inv t) : contract.Yields .shipper s t :=
  ⟨h, fun _ hb hs => absurd hs hb⟩

lemma select_inv (hi : Inv s) : Inv { s with inflight := s.ledger.table.getIncremental cursor limit } where
  current := hi.current
  known := hi.known
  selected b hb := by
    obtain ⟨row, hrow, rfl⟩ := List.mem_map.mp hb
    exact ⟨row, Table.find?_of_mem (mem_page hrow).1, rfl⟩

/-- The records of the batch are the current ones when they get into the stream. -/
lemma execute_inv {entries : List LedgerEntry} (hi : Inv s) (hentries : s.inflight = entries) :
    Inv { s with stream := s.stream ++ entries.map payload } where
  current entry_id row p hrow hp := by
    rcases lastRecord_append hp with hp | hp
    · obtain ⟨hmem, hid⟩ := mem_of_lastRecord hp
      obtain ⟨b, hb, rfl⟩ := List.mem_map.mp hmem
      obtain ⟨row', hrow', hrecord⟩ := hi.selected b (hentries ▸ hb)
      change b.id = entry_id at hid
      rw [hid] at hrow'
      obtain rfl := Option.some.inj (hrow'.symm.trans hrow)
      exact hrecord
    · exact hi.current entry_id row p hrow hp
  selected := hi.selected
  known p hp := by
    rcases List.mem_append.mp hp with hp | hp
    · exact hi.known p hp
    · obtain ⟨b, hb, rfl⟩ := List.mem_map.mp hp
      obtain ⟨row, hrow, -⟩ := hi.selected b (hentries ▸ hb)
      change s.ledger.table.find? b.id ≠ none
      simp [hrow]

lemma discard_inv (hi : Inv s) {cursor : Cursor} {checkpoint : Option Cursor} {drained : Bool} :
    Inv { s with cursor, checkpoint, drained, inflight := [] } :=
  ⟨hi.current, List.forall_mem_nil _, hi.known⟩

lemma finishes {x : Except Exc Result} :
    contract.Finishes (auditNode batch_size) .shipper .shipBatch x s := by
  intro t _ hit
  apply yields_shipper
  change Inv (leave .shipper .shipBatch x t)
  simp only [leave]
  split
  · exact discard_inv hit
  · exact discard_inv hit
  · contradiction

lemma deliver_safe {last : LedgerEntry} :
    contract.wp (auditNode batch_size) .shipper (contract.Pre .shipper .shipBatch)
    (contract.Finishes (auditNode batch_size) .shipper .shipBatch)
    (Result.shipped <$> deliver s.inflight last) s := by
  intro t ht hit _ o w y hw
  have hexec := execute_inv hit (ht rfl)
  change exec .shipper o t (.execute (s.inflight.map payload)) = some (w, y) at hw
  simp only [exec] at hw
  split at hw
  · cases hw
    refine ⟨yields_shipper hexec, ?_⟩
    intro u _ hiu _ o w y hw
    cases hw
    refine ⟨yields_shipper (discard_inv hiu), ?_⟩
    intro v _ hiv _ o w y hw
    change exec .shipper o v (.saveCheckpoint last.key) = some (w, y) at hw
    simp only [exec] at hw
    split at hw <;> cases hw
    · exact ⟨yields_shipper hiv, finishes⟩
    · exact ⟨yields_shipper ⟨hiv.current, hiv.selected, hiv.known⟩, finishes⟩
  · cases hw
    exact ⟨yields_shipper hit, finishes⟩
  · cases hw
    exact ⟨yields_shipper hexec, finishes⟩

lemma shipBatch_safe :
    contract.Safe (auditNode batch_size) .shipper .shipBatch (body batch_size .shipBatch) s := by
  intro t _ hit _ o w y hw
  cases hw
  refine ⟨Contract.Yields.refl hit, ?_⟩
  intro u _ hiu _ o w y hw
  change exec .shipper o u (.getIncremental t.cursor batch_size) = some (w, y) at hw
  simp only [exec] at hw
  split at hw <;> cases hw
  · exact ⟨Contract.Yields.refl hiu, finishes⟩
  · refine ⟨yields_shipper (select_inv hiu), ?_⟩
    change contract.wp _ _ _ _ (Result.shipped <$> shipEntries _) _
    rw [shipEntries]
    split
    · exact finishes
    · exact deliver_safe (s := { u with inflight := u.ledger.table.getIncremental t.cursor batch_size })

end Shipper

lemma auditNode_meets (batch_size : ℕ) : contract.Meets (auditNode batch_size) := by
  apply meets_of_parts rfl
  · intro n o s w d y hi hg hw
    exact ledger_yields hi hg hw
  · intro s _
    exact shipBatch_safe
  · intro s hi
    exact yields_shipper (discard_inv hi)

/-- In a run that changes no entry once it has been taken for the stream, the stream and the ledger
agree in every state, also when nothing is left to ship. -/
theorem converged (batch_size : ℕ) {table : Table} {ls : List (Label Actor Procedure Oracle Empty)}
    {t : Pool Node Actor World Procedure Exc Result}
    (hc : Along (auditNode batch_size).step contract.Respects (Pool.idle (unshipped table)) ls)
    (hr : run (auditNode batch_size).step (Pool.idle (unshipped table)) ls = some t) : Converged t.shared := by
  have hstart : Inv (unshipped table) := ⟨nofun, List.forall_mem_nil _, List.forall_mem_nil _⟩
  exact (contract.sound (auditNode_meets batch_size) hstart hc hr).current

section Changes

def creating : Label Actor Procedure Oracle Empty := .invoke (.caller 0) (.ledger (.createEntry "deploy" (some "a") none none none))

def starting : Label Actor Procedure Oracle Empty := .invoke (.caller 0) (.ledger (.markRunning "a" none))

def steps (a : Actor) (k : ℕ) : List (Label Actor Procedure Oracle Empty) :=
  List.replicate k (.advance a { ledger := { clock := 5 } })

/-- A batch is shipped, and the next one is about to be selected. -/
def shipping : List (Label Actor Procedure Oracle Empty) :=
  .invoke .shipper .shipBatch :: steps .shipper 6 ++ .invoke .shipper .shipBatch :: steps .shipper 1

def changedFirst : List (Label Actor Procedure Oracle Empty) :=
  creating :: steps (.caller 0) 6 ++ starting :: steps (.caller 0) 4 ++ shipping

def changedAfterwards : List (Label Actor Procedure Oracle Empty) :=
  creating :: steps (.caller 0) 6 ++ shipping.take 7 ++ starting :: steps (.caller 0) 4 ++ shipping.drop 7

def statusOf (data : Foundation.Values.Dict) : String :=
  match data.lookup (.text "status") with
  | some (.str status) => status
  | _ => ""

def disagree (w : World) : Bool :=
  match w.ledger.table.find? "a", lastRecord w.stream "a" with
  | some row, some p => statusOf p.data != statusOf (record row)
  | _, _ => false

/-- The entry is running, and the stream has it as pending. -/
theorem changed_afterwards_differs :
    ¬ ∀ ls t, run (auditNode 10).step (Pool.idle (unshipped Table.empty)) ls = some t →
    nothingLeft t = true → Converged t.shared := by
  intro h
  obtain ⟨t, ht, hcheck⟩ := exists_of_run_any (auditNode 10).step (Pool.idle (unshipped Table.empty)) changedAfterwards
    (fun t => nothingLeft t && disagree t.shared) (by decide +kernel)
  obtain ⟨hleft, hdisagree⟩ := (Bool.and_eq_true _ _).mp hcheck
  have hconverged := h changedAfterwards t ht hleft
  rw [disagree] at hdisagree
  split at hdisagree
  · rename_i row p hrow hp
    rw [hconverged "a" row p hrow hp] at hdisagree
    simp at hdisagree
  · cases hdisagree

/-- Nothing that has been taken is written at all. -/
def Avoids (_ : Actor) (w : World) : Command → Prop
  | .ledger (.update entry_id ..) | .ledger (.delete entry_id) => ¬ Taken w entry_id
  | _ => True

instance (w : World) (entry_id : PyStr) : Decidable (Taken w entry_id) :=
  inferInstanceAs (Decidable ((∃ p ∈ w.stream, p.id = entry_id) ∨ ∃ b ∈ w.inflight, b.id = entry_id))

instance (a : Actor) (w : World) : (c : Command) → Decidable (Avoids a w c)
  | .ledger (.update entry_id ..) | .ledger (.delete entry_id) => inferInstanceAs (Decidable (¬ Taken w entry_id))
  | .ledger .utcMs | .ledger .uuid4 | .ledger (.append _) | .ledger (.get _) => instDecidableTrue
  | .readCursor | .getIncremental .. | .execute _ | .setCursor _ | .saveCheckpoint _ => instDecidableTrue

lemma Avoids.leavesTaken {a : Actor} {w : World} {c : Command} (h : Avoids a w c) : LeavesTaken a w c := by
  cases c with
  | ledger c =>
    cases c with
    | update entry_id updates expected => exact fun htaken => absurd htaken h
    | delete entry_id => exact h
    | _ => trivial
  | _ => trivial

def avoiding : Contract Node Actor World Procedure := { contract with Guard := Avoids }

instance (a : Actor) (w : World) (c : Command) : Decidable (avoiding.Guard a w c) := inferInstanceAs (Decidable (Avoids a w c))

lemma respects_of_avoiding {s : Pool Node Actor World Procedure Exc Result}
    {l : Label Actor Procedure Oracle Empty}
    (h : avoiding.Respects s l) : contract.Respects s l := by
  cases l with
  | advance a o => exact fun p c k ha => Avoids.leavesTaken (a := a) (h p c k ha)
  | _ => trivial

theorem changed_first_converges :
    ∃ t, run (auditNode 10).step (Pool.idle (unshipped Table.empty)) changedFirst = some t ∧
    t.shared.stream.length = 1 ∧ nothingLeft t = true ∧ Converged t.shared := by
  obtain ⟨t, ht, hcheck⟩ := exists_of_run_any (auditNode 10).step (Pool.idle (unshipped Table.empty)) changedFirst
    (fun t => decide (t.shared.stream.length = 1) && nothingLeft t) (by decide +kernel)
  obtain ⟨hlength, hleft⟩ := (Bool.and_eq_true _ _).mp hcheck
  have havoids : Along (auditNode 10).step avoiding.Respects (Pool.idle (unshipped Table.empty)) changedFirst := by
    decide +kernel
  exact ⟨t, ht, of_decide_eq_true hlength, hleft, converged 10 (havoids.mono fun _ _ => respects_of_avoiding) ht⟩

end Changes

end OpsSentry.Cluster.Convergence
