import OpsSentry.Ledger.StateMachine

/-! What a call of `OpsLedger` reports of its own effect, while other processes call the same
database between its storage calls. -/

namespace OpsSentry.Ledger.OwnEffect

open Foundation.Programs Foundation.Runs Foundation.Strings Foundation.Values

/-- A call that has ended, with what it has written, as far as the table has answered it. -/
structure Report where
  procedure : Procedure
  own : List Record
  result : Except Exc (Option LedgerEntry)

structure Watched where
  ledger : World
  own : ℕ → List Record
  reports : List Report

namespace Watched

variable (n : ℕ) (w : Watched)

def start (table : Table) : Watched := ⟨⟨table, []⟩, fun _ => [], []⟩

/-- The ledger has moved on by a storage call of process `n`. -/
def next (ledger : World) : Watched :=
  { w with ledger, own := Function.update w.own n (w.own n ++ ledger.log.drop w.ledger.log.length) }

def exec (o : Oracle) (c : Command) : Option (Watched × Reply c) :=
  (Ledger.exec n o w.ledger c).map fun r => (w.next n r.1, r.2)

def enter : Watched := { w with own := Function.update w.own n [] }

def leave (procedure : Procedure) (result : Except Exc (Option LedgerEntry)) : Watched :=
  { w with reports := w.reports ++ [⟨procedure, w.own n, result⟩] }

end Watched

def watchedLedger : Service Database ℕ Watched Procedure Oracle Empty Exc (Option LedgerEntry) where
  body _ := body
  exec n o w c := w.exec n o c
  enter n _ w := some (w.enter n)
  leave n p x w := w.leave n p x
  crash _ w := some w
  environment e _ := e.elim

/-- The exceptions that `OpsLedger` raises itself. -/
def Announced : Exc → Prop
  | .notFound _ | .state _ => True
  | _ => False

/-- A call that raised has changed nothing; one that returned an entry gives it as its write has
left it. -/
def Honest (report : Report) : Prop :=
  match report.result with
  | .error e => (∀ r ∈ report.own, r.after = r.before) ∧ Announced e
  | .ok none => True
  | .ok (some entry) => ∃ r, report.own.getLast? = some r ∧ r.success = true ∧ r.after = some entry

/-- The id of an insert is still free; the table can hold what an insert or an update writes; and when
a call reads the entry that it has written, the row is as it has left it, and the reader loses nothing
of it. -/
def Undisturbed (n : ℕ) (w : Watched) : Command → Prop
  | .append entry => ∃ row, entry.bind = .ok row ∧ w.ledger.table.find? row.id = none
  | .update entry_id updates _ => (∃ i : String, entry_id = i) ∧ ∃ fields, Table.Sets updates fields
  | .get entry_id => (∃ i : String, entry_id = i) ∧ ∀ r, (w.own n).getLast? = some r → r.success = true →
      w.ledger.table.row? entry_id = r.after ∧ ∀ row, r.after = some row → row.accio_ref ≠ some ""
  | _ => True

def contract : Contract Database ℕ Watched Procedure where
  Inv w := ∀ report ∈ w.reports, Honest report
  Rely n s t := t.own n = s.own n
  Guard := Undisturbed
  Pre n _ w := w.own n = []
  refl _ _ := rfl
  trans h h' := h'.trans h

section Steps

variable {n : ℕ} {o : Oracle} {s t w : Watched} {v : World} {p : Procedure} {α : Type} {J : Watched → Prop}
  {Q : Except Exc α → Watched → Prop}

abbrev Ends (n : ℕ) (J : Watched → Prop) (Q : Except Exc α → Watched → Prop) (q : Code α) (s : Watched) : Prop :=
  contract.wp watchedLedger n J Q q s

@[simp] lemma next_same : w.next n w.ledger = w := by
  simp [Watched.next]

@[simp] lemma own_next_write (c : Command) (entry_id : PyStr) (table : Table) (success : Bool) :
    (w.next n (w.ledger.write n c entry_id table success)).own n =
      w.own n ++ [⟨n, c, entry_id, success, w.ledger.table.row? entry_id, table.row? entry_id⟩] := by
  simp [Watched.next, World.write]

lemma yields_next (hi : contract.Inv t) : contract.Yields n t (t.next n v) := by
  refine ⟨hi, fun b hb => ?_⟩
  exact Function.update_of_ne hb _ _

lemma ends_utcMs {k : ℤ → Code α} (h : ∀ z t, t.own n = s.own n → Ends n J Q (k z) t) :
    Ends n J Q (utcMs >>= k) s := by
  intro t hown hi _ o w z hw
  cases hw
  exact ⟨yields_next hi, h _ _ (by rw [next_same]; exact hown)⟩

lemma ends_uuid4 {k : PyStr → Code α} (h : ∀ z t, t.own n = s.own n → Ends n J Q (k z) t) :
    Ends n J Q (uuid4 >>= k) s := by
  intro t hown hi _ o w z hw
  cases hw
  exact ⟨yields_next hi, h _ _ (by rw [next_same]; exact hown)⟩

lemma ends_identifierOf {entry_id : Option PyStr} {k : PyStr → Code α}
    (h : ∀ z t, t.own n = s.own n → Ends n J Q (k z) t) : Ends n J Q (identifierOf entry_id >>= k) s := by
  cases entry_id with
  | none => exact ends_uuid4 h
  | some entry_id =>
    rw [identifierOf]
    split
    · exact ends_uuid4 h
    · exact h entry_id s rfl

lemma ends_get {entry_id : PyStr} {k : Option LedgerEntry → Code α}
    (h : ∀ t, t.own n = s.own n → Undisturbed n t (.get entry_id) →
      Ends n J Q (k ((t.ledger.table.row? entry_id).map Table.rowToEntry)) t) :
    Ends n J Q (get entry_id >>= k) s := by
  intro t hown hi hguard o w z hw
  have hk := h t hown hguard
  obtain ⟨i, rfl⟩ := hguard.1
  cases hw
  refine ⟨yields_next hi, ?_⟩
  rwa [← next_same (w := t)] at hk

lemma ends_append {entry : LedgerEntry PyStr} {k : Unit → Code α}
    (h : ∀ t r row, t.own n = s.own n ++ [r] → r.success = true → r.after = some row → Ends n J Q (k ()) t) :
    Ends n J Q (append entry >>= k) s := by
  intro t hown hi hguard o w z hw
  obtain ⟨row, hrow, hfree⟩ := hguard
  obtain ⟨rfl, hstorable⟩ := LedgerEntry.bind_eq_ok.mp hrow
  obtain ⟨table, htable, hinsert⟩ := Table.append_free hfree hstorable
  have hexec : Ledger.exec n o t.ledger (.append row) =
      some (t.ledger.write n (.append row) row.id table true, .ok ()) := by
    rw [Ledger.exec, htable]
    rfl
  change (Ledger.exec n o t.ledger (.append row)).map _ = _ at hw
  rw [hexec] at hw
  cases hw
  have hrecord := own_next_write (n := n) (w := t) (.append row) row.id table true
  rw [hown] at hrecord
  have hafter : table.find? row.id = some row := by
    rw [(Table.insert_ok hinsert).2, if_pos rfl]
  exact ⟨yields_next hi, h _ _ row hrecord rfl hafter⟩

lemma ends_update {entry_id : PyStr} {updates : List (Assignment PyStr)} {expected : Option (List Status)}
    {k : Bool → Code α}
    (hok : ∀ t r row, t.own n = s.own n ++ [r] → r.success = true → r.after = some row →
      Ends n J Q (k true) t)
    (hmiss : ∀ t r, t.own n = s.own n ++ [r] → r.success = false → r.after = r.before → Ends n J Q (k false) t) :
    Ends n J Q (update entry_id updates expected >>= k) s := by
  intro t hown hi hguard o w z hw
  obtain ⟨⟨i, rfl⟩, fields, hsets⟩ := hguard
  have hexec : Ledger.exec n o t.ledger (.update i updates expected) =
      some (t.ledger.write n (.update i updates expected) i (t.ledger.table.set i fields expected).1
        (t.ledger.table.set i fields expected).2, .ok (t.ledger.table.set i fields expected).2) := by
    rw [Ledger.exec, Table.update_of_sets hsets]
  change (Ledger.exec n o t.ledger (.update i updates expected)).map _ = _ at hw
  rw [hexec] at hw
  cases hw
  refine ⟨yields_next hi, ?_⟩
  have hrecord := own_next_write (n := n) (w := t) (.update i updates expected) i
    (t.ledger.table.set i fields expected).1 (t.ledger.table.set i fields expected).2
  rw [hown] at hrecord
  cases hsuccess : (t.ledger.table.set i fields expected).2 with
  | true =>
    obtain ⟨e, he, -⟩ := Table.set_affects.mp hsuccess
    have hafter : (t.ledger.table.set i fields expected).1.find? i = some (Table.updated fields i expected e) := by
      rw [Table.find?_set, he, Option.map_some]
    rw [hsuccess] at hrecord
    exact hok _ _ _ hrecord rfl hafter
  | false =>
    have hsame : (t.ledger.table.set i fields expected).1.find? i = t.ledger.table.find? i := by
      rw [Table.find?_set]
      cases he : t.ledger.table.find? i with
      | none => rfl
      | some e =>
        have hmatch : ¬ Table.matching i expected e = true := by
          intro hmatch
          exact Bool.noConfusion (hsuccess.symm.trans (Table.set_affects.mpr ⟨e, he, hmatch⟩))
        rw [Option.map_some, Table.updated, if_neg hmatch]
    rw [hsuccess] at hrecord
    exact hmiss _ _ hrecord rfl hsame

lemma ends_report {x : Except Exc (Option LedgerEntry)} (h : Honest ⟨p, s.own n, x⟩) :
    contract.Finishes watchedLedger n p x s := by
  intro t hown hi
  refine ⟨?_, fun b _ => rfl⟩
  intro report hreport
  rcases List.mem_append.mp hreport with hreport | hreport
  · exact hi report hreport
  · obtain rfl := List.mem_singleton.mp hreport
    rwa [hown]

end Steps

section Calls

variable {n : ℕ} {s : Watched} {J : Watched → Prop} {p : Procedure}

/-- The end of a call that returns an entry. -/
abbrev Reported (n : ℕ) (p : Procedure) (x : Except Exc LedgerEntry) : Watched → Prop :=
  contract.Finishes watchedLedger n p (x.map some)

/-- Nothing has been written, or by an update that found no row. -/
lemma ends_raise {e : Exc} (hunchanged : ∀ r ∈ s.own n, r.after = r.before) (he : Announced e) :
    Ends n J (Reported n p) (Prog.raise e) s :=
  ends_report (x := .error e) ⟨hunchanged, he⟩

lemma ends_getEntry {r : Record} {row : LedgerEntry} {entry_id : PyStr} (hown : s.own n = [r])
    (hsuccess : r.success = true)
    (hafter : r.after = some row) : Ends n J (Reported n p) (getEntry entry_id) s := by
  apply ends_get
  intro t ht hguard
  have hlast : (t.own n).getLast? = some r := by rw [ht, hown]; rfl
  obtain ⟨hrow, hreference⟩ := hguard.2 r hlast hsuccess
  rw [hrow, hafter, Option.map_some, Table.rowToEntry_eq_self (hreference row hafter)]
  exact ends_report (x := .ok (some row)) ⟨r, hlast, hsuccess, hafter⟩

lemma ends_refused {r : Record} {entry_id : PyStr} {message : LedgerEntry → String} (hown : s.own n = [r])
    (hsame : r.after = r.before) : Ends n J (Reported n p) (do
      match ← get entry_id with
      | none => throw (.notFound entry_id.shown)
      | some entry => throw (.state (message entry))) s := by
  apply ends_get
  intro t ht _
  have hunchanged : ∀ r ∈ t.own n, r.after = r.before := by
    intro r' hr'
    rw [ht, hown, List.mem_singleton] at hr'
    rwa [hr']
  cases t.ledger.table.row? entry_id with
  | none => exact ends_raise hunchanged trivial
  | some entry => exact ends_raise hunchanged trivial

lemma ends_createEntry {action : PyStr} {entry_id accio_ref : Option PyStr}
    {checkpoint metadata : Option Dict}
    (hown : s.own n = []) :
    Ends n J (Reported n p) (createEntry action entry_id accio_ref checkpoint metadata) s := by
  rw [createEntry]
  apply ends_identifierOf
  intro identifier t₀ ht₀
  apply ends_get
  intro t ht _
  rw [ht₀, hown] at ht
  cases t.ledger.table.row? identifier with
  | some entry => exact ends_raise (by simp [ht]) trivial
  | none =>
    apply ends_utcMs
    intro created_at t₁ ht₁
    apply ends_utcMs
    intro updated_at t₂ ht₂
    apply ends_append
    intro t₃ r row ht₃ hsuccess hafter
    rw [ht₂, ht₁, ht, List.nil_append] at ht₃
    exact ends_getEntry ht₃ hsuccess hafter

lemma ends_transition {entry_id status : PyStr} {checkpoint : Option Dict} {error : Option PyStr}
    (hown : s.own n = []) : Ends n J (Reported n p) (transition entry_id status checkpoint error) s := by
  rw [transition]
  cases Status.of? status with
  | none => exact ends_raise (by simp [hown]) trivial
  | some status =>
    apply ends_utcMs
    intro updated_at t ht
    rw [hown] at ht
    apply ends_update
    · intro t₁ r row ht₁ hsuccess hafter
      rw [ht, List.nil_append] at ht₁
      exact ends_getEntry ht₁ hsuccess hafter
    · intro t₁ r ht₁ _ hsame
      rw [ht, List.nil_append] at ht₁
      exact ends_refused ht₁ hsame

lemma ends_updateCheckpoint {entry_id : PyStr} {checkpoint : Dict} (hown : s.own n = []) :
    Ends n J (Reported n p) (updateCheckpoint entry_id checkpoint) s := by
  apply ends_utcMs
  intro updated_at t ht
  rw [hown] at ht
  apply ends_update
  · intro t₁ r row ht₁ hsuccess hafter
    rw [ht, List.nil_append] at ht₁
    exact ends_getEntry ht₁ hsuccess hafter
  · intro t₁ r ht₁ _ hsame
    rw [ht, List.nil_append] at ht₁
    exact ends_refused ht₁ hsame

lemma ends_deleteEntry {entry_id : PyStr} (hown : s.own n = []) :
    Ends n J (contract.Finishes watchedLedger n p) (do deleteEntry entry_id; pure none) s := by
  rw [deleteEntry]
  apply Contract.wp_bind
  apply Contract.wp_bind
  apply ends_get
  intro t ht hguard
  rw [hown] at ht
  cases t.ledger.table.row? entry_id with
  | none => exact ends_report (x := .error (.notFound entry_id.shown)) ⟨by simp [ht], trivial⟩
  | some entry =>
    obtain ⟨i, rfl⟩ := hguard.1
    intro t₁ _ hi _ o w y hw
    cases hw
    exact ⟨yields_next hi, ends_report (x := .ok none) trivial⟩

lemma safe_of_ends {q : Code LedgerEntry} (hi : contract.Inv s)
    (h : Ends n (contract.Pre n p) (Reported n p) q s) :
    contract.Safe watchedLedger n p (some <$> q) s := by
  apply Contract.wp_bind (f := fun entry => pure (some entry))
  apply Contract.wp_mono hi h
  rintro (e | entry) t - hx
  · exact hx
  · exact hx

lemma watchedLedger_meets : contract.Meets watchedLedger where
  enter n p s w hi hw := by
    cases hw
    refine ⟨⟨hi, fun b hb => Function.update_of_ne hb _ _⟩, ?_⟩
    exact Function.update_self _ _ _
  body n p s hi hown := by
    cases p with
    | createEntry => exact safe_of_ends hi (ends_createEntry hown)
    | transition => exact safe_of_ends hi (ends_transition hown)
    | markRunning => exact safe_of_ends hi (ends_transition hown)
    | markCompleted => exact safe_of_ends hi (ends_transition hown)
    | markFailed => exact safe_of_ends hi (ends_transition hown)
    | updateCheckpoint => exact safe_of_ends hi (ends_updateCheckpoint hown)
    | deleteEntry => exact ends_deleteEntry hown
  crash n s w hi hw := by
    cases hw
    exact Contract.Yields.refl hi
  environment e := e.elim

end Calls

section Races

def creating (n : ℕ) : Label ℕ Procedure Oracle Empty :=
  .invoke n (.createEntry "deploy" (some "task-1") none none none)

/-- One process creates an entry, and the other finds it. -/
def inTurn : List (Label ℕ Procedure Oracle Empty) :=
  [creating 0, .advance 0 {}, .advance 0 {}, .advance 0 {}, .advance 0 {}, creating 1, .advance 1 {}, .advance 1 {},
    .advance 0 {}, .advance 0 {}]

lemma respects_of_guard {s : Pool Database ℕ Watched Procedure Exc (Option LedgerEntry)} {n : ℕ}
    {p : Procedure}
    {c : Command} {k : Reply c → Code (Option LedgerEntry)} (ha : s.active n = some (p, .call c k))
    (hc : Undisturbed n s.shared c) : contract.Respects s (.advance n {} : Label ℕ Procedure Oracle Empty) := by
  intro p' c' k' h
  rw [ha] at h
  cases h
  exact hc

/-- Both processes find the id free before either inserts it. -/
def race : List (Label ℕ Procedure Oracle Empty) :=
  [creating 0, creating 1, .advance 0 {}, .advance 1 {}] ++ List.replicate 5 (.advance 0 {}) ++
    List.replicate 4 (.advance 1 {})

def brokeIntegrity (report : Report) : Bool :=
  match report.result with
  | .error .integrity => true
  | _ => false

lemma not_honest_of_integrity {report : Report} (h : brokeIntegrity report = true) : ¬ Honest report := by
  intro hhonest
  rw [brokeIntegrity] at h
  split at h
  · rename_i hintegrity
    rw [Honest, hintegrity] at hhonest
    exact hhonest.2
  · cases h

end Races

end OpsSentry.Ledger.OwnEffect
