import OpsSentry.Foundation.Runs
import OpsSentry.Ledger.Storage

/-! The writes of `sqlite_ledger_storage.py` on their connections: the transaction that the
first statement opens, the commit, and `with_retry` around both. -/

namespace OpsSentry.Ledger.Transactions

open Foundation.Programs Foundation.Runs Foundation.Strings Foundation.Values

abbrev Connection := ℕ

inductive Failure
  | locked
  | exc (e : Exc)

/-- The database file with its connections: which have begun a transaction without getting the
write lock, and which one holds the lock, with the table as it has left it. -/
structure Db where
  committed : Table
  begun : Connection → Bool
  writer : Option (Connection × Table)

def fresh (table : Table) : Db := ⟨table, fun _ => false, none⟩

/-- How the database treats one attempt: whether the statement finds it locked, and then whether
it had been prepared and the implicit `BEGIN` before it had gone through; whether the commit finds
it locked. -/
structure Attempt where
  locked : Bool := false
  begun : Bool := false
  commit : Bool := false

namespace Db

def inTransaction (d : Db) (c : Connection) : Bool := d.begun c || d.writer.any (·.1 == c)

def lockedOut (d : Db) (c : Connection) : Bool := d.writer.any (·.1 != c)

def view (d : Db) (c : Connection) : Table :=
  match d.writer with
  | some (c', t) => if c' = c then t else d.committed
  | none => d.committed

def begin (d : Db) (c : Connection) : Db := { d with begun := Function.update d.begun c true }

def hold (d : Db) (c : Connection) (t : Table) : Db :=
  { d with begun := Function.update d.begun c false, writer := some (c, t) }

def close (d : Db) (c : Connection) : Db :=
  ⟨d.view c, Function.update d.begun c false, none⟩

end Db

inductive Call
  | append (entry : LedgerEntry PyStr)
  | update (entry_id : PyStr) (updates : List (Assignment PyStr)) (expected_statuses : Option (List Status))
  | delete (entry_id : PyStr)

/-- A statement with its parameters bound. -/
abbrev Statement := Table → Except Exc (Table × Option Bool)

namespace Call

/-- How a call ends that never reaches its statement. -/
def early : Call → Option (Except Exc (Option Bool))
  | append entry => entry.refused.map fun c => .error (.type c)
  | update _ updates _ =>
    match (Table.setFields updates).findSome? Assignment.refused with
    | some c => some (.error (.type c))
    | none => if Table.setFields updates = [] then some (.ok (some true)) else none
  | delete _ => none

def statement : Call → Except Exc Statement
  | append entry => do
    let row ← entry.bind
    pure fun t => (t.insert row).map fun t => (t, none)
  | update entry_id updates expected_statuses => do
    let fields ← (Table.setFields updates).mapM Assignment.bind
    let entry_id ← bindText entry_id
    pure fun t => .ok ((t.set entry_id fields expected_statuses).1, some (t.set entry_id fields expected_statuses).2)
  | delete entry_id => do
    let entry_id ← bindText entry_id
    pure fun t => .ok (t.remove entry_id, none)

/-- The call as one atomic operation on the table. -/
def once : Call → Table → Except Exc (Table × Option Bool)
  | append entry, t => (t.append entry).map fun t => (t, none)
  | update entry_id updates expected_statuses, t =>
    (t.update entry_id updates expected_statuses).map fun r => (r.1, some r.2)
  | delete entry_id, t => (t.delete entry_id).map fun t => (t, none)

end Call

/-- `sqlite3` prepares the statement, begins a transaction unless there is one, binds the parameters
and executes the statement. -/
def execute (c : Connection) (a : Attempt) (statement : Except Exc Statement) (d : Db) :
    Db × Except Failure (Option Bool) :=
  let locked := a.locked || d.lockedOut c
  if locked && !a.begun then (d, .error .locked)
  else
    let d := if d.inTransaction c then d else d.begin c
    match statement with
    | .error e => (d, .error (.exc e))
    | .ok statement =>
      if locked then (d, .error .locked)
      else
        match statement (d.view c) with
        | .error e => (d.hold c (d.view c), .error (.exc e))
        | .ok (t, v) => (d.hold c t, .ok v)

def commit (c : Connection) (a : Attempt) (d : Db) : Db × Except Failure Unit :=
  if a.commit then (d, .error .locked) else (d.close c, .ok ())

def attempt (call : Call) (c : Connection) (a : Attempt) (d : Db) : Db × Except Failure (Option Bool) :=
  match call.early with
  | some r => (d, r.mapError .exc)
  | none =>
    match execute c a call.statement d with
    | (d, .error e) => (d, .error e)
    | (d, .ok v) =>
      match commit c a d with
      | (d, .error e) => (d, .error e)
      | (d, .ok ()) => (d, .ok v)

/-- Attempt `i`, with `n` left after it. -/
def retry {α : Type} (f : ℕ → Db → Db × Except Failure α) : (n i : ℕ) → Db → Db × Except Failure α
  | 0, i, d => f i d
  | n + 1, i, d =>
    match f i d with
    | (d, .error .locked) => retry f n (i + 1) d
    | r => r

def withRetry {α : Type} (f : ℕ → Db → Db × Except Failure α) : Db → Db × Except Failure α :=
  retry f 4 0

def attemptAt (call : Call) (c : Connection) (attempts : ℕ → Attempt) (i : ℕ) :
    Db → Db × Except Failure (Option Bool) :=
  attempt call c (attempts i)

structure Issue where
  connection : Connection
  call : Call
  attempts : ℕ → Attempt

def Issue.perform (x : Issue) : Db → Db × Except Failure (Option Bool) :=
  withRetry (attemptAt x.call x.connection x.attempts)

def step (d : Db) (x : Issue) : Option Db := some (x.perform d).1

/-- The call leaves no transaction open; nothing has changed if it raised, and it took effect
exactly once, with its own outcome, if it returned. -/
def Kept (call : Call) (c : Connection) (t : Table) (r : Db × Except Failure (Option Bool)) : Prop :=
  r.1.inTransaction c = false ∧
    match r.2 with
    | .error _ => r.1.committed = t
    | .ok v => call.once t = .ok (r.1.committed, v)

def Keeps (d : Db) (x : Issue) : Prop := Kept x.call x.connection d.committed (x.perform d)

/-- No transaction but one that `c` has begun, if `b`. -/
def idle (t : Table) (c : Connection) (b : Bool) : Db :=
  ⟨t, Function.update (fun _ => false) c b, none⟩

/-- Connection `c` holds the write lock and has left the table as `u`. -/
def held (t : Table) (c : Connection) (u : Table) : Db := ⟨t, fun _ => false, some (c, u)⟩

/-- The call gets to its statement, and binds its parameters. -/
structure Call.Bound (call : Call) (s : Statement) : Prop where
  early : call.early = none
  statement : call.statement = .ok s

section Attempts

variable {call : Call} {c : Connection} {a : Attempt} {t u : Table} {b : Bool} {s : Statement}

lemma setFields_of_early {entry_id : PyStr} {updates : List (Assignment PyStr)}
    {expected : Option (List Status)} (he : (Call.update entry_id updates expected).early = none) :
    Table.setFields updates ≠ [] ∧ (Table.setFields updates).findSome? Assignment.refused = none := by
  simp only [Call.early] at he
  split at he
  · cases he
  · split at he
    · cases he
    · exact ⟨‹_›, ‹_›⟩

lemma once_eq (he : call.early = none) (t : Table) : call.once t = call.statement >>= fun s => s t := by
  cases call with
  | append entry =>
    rw [Call.once, Call.statement, Table.append]
    cases entry.bind <;> rfl
  | update entry_id updates expected =>
    obtain ⟨hf, href⟩ := setFields_of_early he
    rw [Call.once, Call.statement, Table.update, href]
    simp only [if_neg hf]
    cases (Table.setFields updates).mapM Assignment.bind with
    | error e => rfl
    | ok fields => cases bindText entry_id <;> rfl
  | delete entry_id =>
    rw [Call.once, Call.statement, Table.delete]
    cases bindText entry_id <;> rfl

lemma Call.Bound.once (h : call.Bound s) (t : Table) : call.once t = s t := by
  rw [once_eq h.early, h.statement]
  rfl

@[simp] lemma idle_false : idle t c false = fresh t := by
  simp [idle, fresh]

@[simp] lemma begin_idle : (idle t c b).begin c = idle t c true := by
  simp [idle, Db.begin]

@[simp] lemma hold_idle : (idle t c b).hold c u = held t c u := by
  simp [idle, Db.hold, held]

@[simp] lemma hold_held {v : Table} : (held t c u).hold c v = held t c v := by
  simp [Db.hold, held]

@[simp] lemma close_held : (held t c u).close c = fresh u := by
  simp [Db.close, Db.view, held, fresh]

@[simp] lemma inTransaction_idle : (idle t c b).inTransaction c = b := by simp [Db.inTransaction, idle]

@[simp] lemma idle_committed : (idle t c b).committed = t := rfl

lemma inTransaction_held : (held t c u).inTransaction c = true := by simp [Db.inTransaction, held]

/-- After the implicit `BEGIN`. -/
lemma begin_unless : (if b = true then idle t c b else idle t c true) = idle t c true := by
  cases b <;> rfl

lemma attempt_idle_locked (h : call.Bound s) (ha : a.locked = true) :
    attempt call c a (idle t c b) = (idle t c (b || a.begun), .error .locked) := by
  cases hn : a.begun <;>
    simp [attempt, h.early, h.statement, execute, ha, hn, begin_unless]

lemma attempt_idle_error {e : Exc} (h : call.Bound s) (ha : a.locked = false)
    (hs : s t = .error e) :
    attempt call c a (idle t c b) = (held t c t, .error (.exc e)) := by
  have hview : (idle t c true).view c = t := rfl
  have hfree : (idle t c b).lockedOut c = false := rfl
  simp [attempt, h.early, h.statement, execute, ha, hview, hfree, begin_unless, hs]

lemma attempt_idle_ok {v : Option Bool} (h : call.Bound s) (ha : a.locked = false)
    (hs : s t = .ok (u, v)) :
    attempt call c a (idle t c b) =
      if a.commit then (held t c u, .error .locked) else (fresh u, .ok v) := by
  have hview : (idle t c true).view c = t := rfl
  have hfree : (idle t c b).lockedOut c = false := rfl
  cases hc : a.commit <;>
    simp [attempt, h.early, h.statement, execute, ha, hview, hfree, begin_unless, hs, commit, hc]

/-- The exception of a parameter comes after the implicit `BEGIN`. -/
lemma attempt_unbound {e : Exc} (he : call.early = none) (hs : call.statement = .error e) :
    attempt call c a (idle t c b) =
      if a.locked && !a.begun then (idle t c b, .error .locked) else (idle t c true, .error (.exc e)) := by
  have hfree : (idle t c b).lockedOut c = false := rfl
  rw [attempt, he, hs, execute, hfree, Bool.or_false]
  cases a.locked && !a.begun <;> simp [begin_unless]

lemma attempt_held (h : call.Bound s) :
    attempt call c a (held t c u) =
      if a.locked then (held t c u, .error .locked)
      else match s u with
        | .error e => (held t c u, .error (.exc e))
        | .ok (w, v) => if a.commit then (held t c w, .error .locked) else (fresh w, .ok v) := by
  have hview : (held t c u).view c = u := by simp [Db.view, held]
  have hfree : (held t c u).lockedOut c = false := by simp [Db.lockedOut, held]
  cases ha : a.locked
  · cases hs : s u with
    | error e => simp [attempt, h.early, h.statement, execute, ha, hview, hfree, inTransaction_held, hs]
    | ok r =>
      cases hc : a.commit <;>
        simp [attempt, h.early, h.statement, execute, ha, hview, hfree, inTransaction_held, hs, commit, hc]
  · cases hn : a.begun <;> simp [attempt, h.early, h.statement, execute, ha, hn, inTransaction_held]

end Attempts

def Attempt.Sound (a : Attempt) : Prop := a.locked = false ∧ a.commit = false

/-- A second execution of the statement does and answers the same as the first. -/
def Repeatable (call : Call) (t : Table) : Prop :=
  ∀ u v, call.once t = .ok (u, v) → call.once u = .ok (u, v)

/-- The call succeeds on the table; of the attempts from `i` on, with `n` after it, one goes through,
and the statement was not executed before it or may be repeated. -/
def GoesThrough (call : Call) (t : Table) (attempts : ℕ → Attempt) (n i : ℕ) : Prop :=
  (∃ r, call.once t = .ok r) ∧ ∃ k, (i ≤ k ∧ k ≤ i + n) ∧ (attempts k).Sound ∧
    ((∃ j, (i ≤ j ∧ j < k) ∧ (attempts j).locked = false) → Repeatable call t)

/-- No attempt gets at the database at all. -/
def Untouched (attempts : ℕ → Attempt) (n i : ℕ) : Prop :=
  ∀ k, i ≤ k ∧ k ≤ i + n → (attempts k).locked = true ∧ (attempts k).begun = false

section Retries

variable {call : Call} {c : Connection} {attempts : ℕ → Attempt} {t u : Table} {v : Option Bool} {s : Statement}

lemma exists_attempt_succ {P : ℕ → Prop} {n i : ℕ} :
    (∃ k, (i ≤ k ∧ k ≤ i + (n + 1)) ∧ P k) ↔ P i ∨ ∃ k, (i + 1 ≤ k ∧ k ≤ i + 1 + n) ∧ P k := by
  constructor
  · rintro ⟨k, hk, h⟩
    by_cases he : k = i
    · exact Or.inl (he ▸ h)
    · exact Or.inr ⟨k, by omega, h⟩
  · rintro (h | ⟨k, hk, h⟩)
    · exact ⟨i, by omega, h⟩
    · exact ⟨k, by omega, h⟩

lemma exists_attempt_zero {P : ℕ → Prop} {i : ℕ} : (∃ k, (i ≤ k ∧ k ≤ i + 0) ∧ P k) ↔ P i := by
  constructor
  · rintro ⟨k, hk, h⟩
    obtain rfl : k = i := by omega
    exact h
  · exact fun h => ⟨i, by omega, h⟩

lemma exists_before_succ {P : ℕ → Prop} {i k : ℕ} (hk : i + 1 ≤ k) :
    (∃ j, (i ≤ j ∧ j < k) ∧ P j) ↔ P i ∨ ∃ j, (i + 1 ≤ j ∧ j < k) ∧ P j := by
  constructor
  · rintro ⟨j, hj, h⟩
    by_cases he : j = i
    · exact Or.inl (he ▸ h)
    · exact Or.inr ⟨j, by omega, h⟩
  · rintro (h | ⟨j, hj, h⟩)
    · exact ⟨i, by omega, h⟩
    · exact ⟨j, by omega, h⟩

lemma untouched_succ {n i : ℕ} :
    Untouched attempts (n + 1) i ↔
      ((attempts i).locked = true ∧ (attempts i).begun = false) ∧ Untouched attempts n (i + 1) := by
  constructor
  · exact fun h => ⟨h i (by omega), fun k hk => h k (by omega)⟩
  · rintro ⟨hi, h⟩ k hk
    by_cases he : k = i
    · exact he ▸ hi
    · exact h k (by omega)

lemma attemptAt_held (t : Table) (c : Connection) (attempts : ℕ → Attempt)
    (h : call.Bound s) (hs : s u = .ok (u, v)) (i : ℕ) :
    (attempts i).Sound ∧ attemptAt call c attempts i (held t c u) = (fresh u, .ok v) ∨
      ¬ (attempts i).Sound ∧
        attemptAt call c attempts i (held t c u) = (held t c u, .error .locked) := by
  rw [attemptAt, attempt_held h, hs]
  cases hl : (attempts i).locked <;> cases hc : (attempts i).commit <;> simp [Attempt.Sound, hl, hc]

/-- Once the statement has no further effect, the call ends well exactly if an attempt is sound. -/
lemma retry_held (t : Table) (c : Connection) (attempts : ℕ → Attempt)
    (h : call.Bound s) (hs : s u = .ok (u, v)) (n i : ℕ) :
    (∃ k, (i ≤ k ∧ k ≤ i + n) ∧ (attempts k).Sound) ∧
        retry (attemptAt call c attempts) n i (held t c u) = (fresh u, .ok v) ∨
      (¬ ∃ k, (i ≤ k ∧ k ≤ i + n) ∧ (attempts k).Sound) ∧
        retry (attemptAt call c attempts) n i (held t c u) = (held t c u, .error .locked) := by
  induction n generalizing i with
  | zero =>
    rw [exists_attempt_zero]
    exact attemptAt_held t c attempts h hs i
  | succ n ih =>
    rw [exists_attempt_succ, retry]
    rcases attemptAt_held t c attempts h hs i with ⟨hi, hattempt⟩ | ⟨hi, hattempt⟩
    · rw [hattempt]
      exact Or.inl ⟨Or.inl hi, rfl⟩
    · rw [hattempt]
      simpa only [hi, false_or] using ih (i + 1)

lemma retry_held_error (t : Table) (c : Connection) (attempts : ℕ → Attempt)
    {e : Exc} (h : call.Bound s) (hs : s u = .error e) (n i : ℕ) :
    ∃ f, retry (attemptAt call c attempts) n i (held t c u) = (held t c u, .error f) := by
  have hstep : ∀ i, ∃ f, attemptAt call c attempts i (held t c u) = (held t c u, .error f) := by
    intro i
    rw [attemptAt, attempt_held h, hs]
    cases (attempts i).locked
    · exact ⟨_, rfl⟩
    · exact ⟨_, rfl⟩
  induction n generalizing i with
  | zero => exact hstep i
  | succ n ih =>
    obtain ⟨f, hf⟩ := hstep i
    rw [retry, hf]
    cases f with
    | locked => exact ih (i + 1)
    | exc e => exact ⟨_, rfl⟩

lemma not_kept_held {r : Except Failure (Option Bool)} : ¬ Kept call c t (held t c u, r) := by
  intro h
  have hopen := h.1
  rw [inTransaction_held] at hopen
  cases hopen

lemma kept_fresh (h : call.Bound s) :
    Kept call c t (fresh u, .ok v) ↔ s t = .ok (u, v) := by
  simp [Kept, h.once, fresh, Db.inTransaction]

lemma not_kept_begun {r : Except Failure (Option Bool)} : ¬ Kept call c t (idle t c true, r) := by
  intro h
  have hopen := h.1
  rw [inTransaction_idle] at hopen
  cases hopen

lemma untouched_zero {i : ℕ} :
    Untouched attempts 0 i ↔ (attempts i).locked = true ∧ (attempts i).begun = false := by
  constructor
  · exact fun h => h i (by omega)
  · intro h k hk
    obtain rfl : k = i := by omega
    exact h

/-- A call whose parameters cannot be bound is kept to only if it never gets that far. -/
lemma kept_retry_unbound {e : Exc} (he : call.early = none) (hs : call.statement = .error e) (n i : ℕ) (b : Bool) :
    Kept call c t (retry (attemptAt call c attempts) n i (idle t c b)) ↔ b = false ∧ Untouched attempts n i := by
  have hlocked : ((attempts i).locked && !(attempts i).begun) = true ↔
      (attempts i).locked = true ∧ (attempts i).begun = false := by simp
  induction n generalizing i with
  | zero =>
    rw [untouched_zero, ← hlocked, retry, attemptAt, attempt_unbound he hs]
    split
    · rename_i hl
      simp [Kept, hl]
    · rename_i hl
      simp [not_kept_begun, hl]
  | succ n ih =>
    rw [untouched_succ, ← hlocked, retry, attemptAt, attempt_unbound he hs]
    cases hl : (attempts i).locked && !(attempts i).begun with
    | true =>
      have htail := ih (i + 1) (by simp)
      simpa using htail
    | false => simp [not_kept_begun]

end Retries

/-- Executing the statement once more changes nothing further. -/
def Settles (s : Statement) : Prop :=
  ∀ t u v w x, s t = .ok (u, v) → s u = .ok (w, x) → w = u

section Retries

variable {call : Call} {c : Connection} {attempts : ℕ → Attempt} {t u : Table} {v : Option Bool} {s : Statement}

lemma kept_retry_held (h : call.Bound s) (hset : Settles s) (hs : s t = .ok (u, v))
    (n i : ℕ) : Kept call c t (retry (attemptAt call c attempts) n i (held t c u)) ↔
      Repeatable call t ∧ ∃ k, (i ≤ k ∧ k ≤ i + n) ∧ (attempts k).Sound := by
  cases hu : s u with
  | error e =>
    obtain ⟨f, hf⟩ := retry_held_error t c attempts h hu n i
    rw [hf]
    refine iff_of_false not_kept_held ?_
    rintro ⟨hrep, -⟩
    rw [← h.once, hrep u v ((h.once t).trans hs)] at hu
    cases hu
  | ok r =>
    obtain ⟨w, x⟩ := r
    obtain rfl := hset t u v w x hs hu
    have hrep : Repeatable call t ↔ x = v := by
      simp only [Repeatable, h.once]
      constructor
      · intro hrepeat
        have hsame := hu.symm.trans (hrepeat w v hs)
        simpa using hsame
      · rintro rfl u' v' hs'
        obtain ⟨rfl, rfl⟩ : w = u' ∧ x = v' := by simpa using hs.symm.trans hs'
        exact hu
    rcases retry_held t c attempts h hu n i with ⟨hk, hretry⟩ | ⟨hk, hretry⟩
    · rw [hretry, kept_fresh h, hs, hrep]
      simp [hk, eq_comm]
    · rw [hretry]
      exact iff_of_false not_kept_held fun hsound => hk hsound.2

lemma goesThrough_of_locked {n i : ℕ} (h : (attempts i).locked = true) :
    GoesThrough call t attempts (n + 1) i ↔ GoesThrough call t attempts n (i + 1) := by
  have hnot : ¬ (attempts i).Sound := by simp [Attempt.Sound, h]
  rw [GoesThrough, exists_attempt_succ]
  refine and_congr_right fun _ => ?_
  simp only [hnot, false_and, false_or]
  refine exists_congr fun k => and_congr_right fun hk => and_congr_right fun _ => ?_
  rw [exists_before_succ hk.1]
  simp [h]

lemma goesThrough_of_executed {n i : ℕ} (hi : (attempts i).locked = false)
    (hs : call.once t = .ok (u, v)) :
    GoesThrough call t attempts (n + 1) i ↔ (attempts i).commit = false ∨
      Repeatable call t ∧ ∃ k, (i + 1 ≤ k ∧ k ≤ i + 1 + n) ∧ (attempts k).Sound := by
  have hfirst : ¬ ∃ j, (i ≤ j ∧ j < i) ∧ (attempts j).locked = false := by
    rintro ⟨j, hj, -⟩
    omega
  rw [GoesThrough, exists_attempt_succ, hs]
  simp only [Except.ok.injEq, exists_eq', true_and, Attempt.Sound, hi, hfirst, false_implies, and_true]
  refine or_congr Iff.rfl ?_
  constructor
  · rintro ⟨k, hk, hsound, hrep⟩
    exact ⟨hrep ⟨i, by omega, hi⟩, k, hk, hsound⟩
  · rintro ⟨hrep, k, hk, hsound⟩
    exact ⟨k, hk, hsound, fun _ => hrep⟩

lemma goesThrough_zero {i : ℕ} :
    GoesThrough call t attempts 0 i ↔ (∃ r, call.once t = .ok r) ∧ (attempts i).Sound := by
  rw [GoesThrough, exists_attempt_zero]
  refine and_congr_right fun _ => and_iff_left ?_
  rintro ⟨j, hj, -⟩
  omega

lemma kept_retry (t : Table) (c : Connection) (attempts : ℕ → Attempt)
    (h : call.Bound s) (hset : Settles s) (n i : ℕ) (b : Bool) :
    Kept call c t (retry (attemptAt call c attempts) n i (idle t c b)) ↔
      (b = false ∧ Untouched attempts n i) ∨ GoesThrough call t attempts n i := by
  induction n generalizing i b with
  | zero =>
    rw [untouched_zero, goesThrough_zero, h.once, retry, attemptAt]
    cases hl : (attempts i).locked with
    | true =>
      rw [attempt_idle_locked h hl]
      simp [Kept, Db.inTransaction, Attempt.Sound, hl, idle]
    | false =>
      cases hs : s t with
      | error e =>
        rw [attempt_idle_error h hl hs]
        simp [not_kept_held]
      | ok r =>
        rw [attempt_idle_ok h hl hs]
        cases hc : (attempts i).commit with
        | true => simp [not_kept_held, Attempt.Sound, hc]
        | false => simp [kept_fresh h, hs, Attempt.Sound, hl, hc]
  | succ n ih =>
    rw [untouched_succ, retry, attemptAt]
    cases hl : (attempts i).locked with
    | true =>
      rw [attempt_idle_locked h hl, goesThrough_of_locked hl]
      simp [ih, and_assoc]
    | false =>
      cases hs : s t with
      | error e =>
        rw [attempt_idle_error h hl hs]
        simp [not_kept_held, GoesThrough, h.once, hs]
      | ok r =>
        rw [attempt_idle_ok h hl hs, goesThrough_of_executed hl ((h.once t).trans hs)]
        cases hc : (attempts i).commit with
        | true => simp [kept_retry_held h hset hs]
        | false => simp [kept_fresh h, hs]

end Retries

section Statements

def column : Assignment → ℕ
  | .id _ => 0
  | .action _ => 1
  | .status _ => 2
  | .checkpoint _ => 3
  | .created_at _ => 4
  | .updated_at _ => 5
  | .accio_ref _ => 6
  | .metadata _ => 7
  | .last_error _ => 8

lemma apply_overwrite {a b : Assignment} (h : column a = column b) (e : LedgerEntry) :
    b.apply (a.apply e) = b.apply e := by
  cases a <;> cases b <;> first | rfl | cases h

lemma apply_comm {a b : Assignment} (h : column a ≠ column b) (e : LedgerEntry) :
    b.apply (a.apply e) = a.apply (b.apply e) := by
  cases a <;> cases b <;> first | rfl | exact (h rfl).elim

lemma assign_apply (fields : List Assignment) (a : Assignment) (e : LedgerEntry) :
    Table.assign fields (a.apply e) =
      if column a ∈ fields.map column then Table.assign fields e else a.apply (Table.assign fields e) := by
  induction fields generalizing e with
  | nil => rfl
  | cons b fields ih =>
    change Table.assign fields (b.apply (a.apply e)) = if _ then Table.assign fields (b.apply e)
      else a.apply (Table.assign fields (b.apply e))
    by_cases h : column a = column b
    · rw [apply_overwrite h, if_pos (by simp [h])]
    · rw [apply_comm h, ih]
      simp [h]

lemma assign_assign (fields : List Assignment) (e : LedgerEntry) :
    Table.assign fields (Table.assign fields e) = Table.assign fields e := by
  induction fields generalizing e with
  | nil => rfl
  | cons a fields ih =>
    change Table.assign fields (a.apply (Table.assign fields (a.apply e))) = Table.assign fields (a.apply e)
    rw [assign_apply]
    split
    · exact ih (a.apply e)
    · rename_i hnot
      have hout := assign_apply fields a (a.apply e)
      rw [if_neg hnot, apply_overwrite rfl] at hout
      rw [ih, hout, apply_overwrite rfl]

lemma updated_updated (updates : List Assignment) (entry_id : String) (expected : Option (List Status))
    (e : LedgerEntry) : Table.updated updates entry_id expected (Table.updated updates entry_id expected e) =
      Table.updated updates entry_id expected e := by
  by_cases h : Table.matching entry_id expected e = true
  · have hu : Table.updated updates entry_id expected e = Table.assign (Table.setFields updates) e :=
      if_pos h
    rw [hu, Table.updated]
    split
    · exact assign_assign _ _
    · rfl
  · have hu : Table.updated updates entry_id expected e = e := if_neg h
    rw [hu, hu]

lemma bound_append {entry : LedgerEntry PyStr} {s : Statement} (h : (Call.append entry).Bound s) :
    ∃ row : LedgerEntry, s = fun t => (t.insert row).map fun t => (t, none) := by
  obtain ⟨row, -, hs⟩ := bind_eq_ok h.statement
  exact ⟨row, (Except.ok.inj hs).symm⟩

lemma bound_update {entry_id : PyStr} {updates : List (Assignment PyStr)} {expected : Option (List Status)}
    {s : Statement} (h : (Call.update entry_id updates expected).Bound s) :
    ∃ (i : String) (fields : List Assignment), entry_id = i ∧ Table.Sets updates fields ∧
      s = fun t => .ok ((t.set i fields expected).1, some (t.set i fields expected).2) := by
  obtain ⟨hne, hjson⟩ := setFields_of_early h.early
  obtain ⟨fields, hfields, hs⟩ := bind_eq_ok h.statement
  obtain ⟨i, hi, hs⟩ := bind_eq_ok hs
  obtain ⟨hvalues, hstorable⟩ := Assignment.mapM_bind_eq_ok.mp hfields
  refine ⟨i, fields, bindText_eq_ok.mp hi, ⟨hvalues, ?_, ?_, hstorable⟩, (Except.ok.inj hs).symm⟩
  · rintro rfl
    exact hne hvalues
  · rw [← Table.findSome?_toPy, ← hvalues, hjson]

lemma bound_delete {entry_id : PyStr} {s : Statement} (h : (Call.delete entry_id).Bound s) :
    ∃ i : String, s = fun t => .ok (t.remove i, none) := by
  obtain ⟨i, -, hs⟩ := bind_eq_ok h.statement
  exact ⟨i, (Except.ok.inj hs).symm⟩

lemma insert_twice {t u : Table} {row : LedgerEntry} (h : t.insert row = .ok u) : ∃ e, u.insert row = .error e := by
  have hfound : u.find? row.id = some row := by
    rw [(Table.insert_ok h).2, if_pos rfl]
  cases hu : u.insert row with
  | error e => exact ⟨e, rfl⟩
  | ok w =>
    have hnone := (Table.insert_ok hu).1
    rw [hfound] at hnone
    cases hnone

lemma set_set (t : Table) (i : String) (fields : List Assignment) (expected : Option (List Status)) :
    ((t.set i fields expected).1.set i fields expected).1 = (t.set i fields expected).1 := by
  have hrows : (t.rows.map (Table.updated fields i expected)).map (Table.updated fields i expected) =
      t.rows.map (Table.updated fields i expected) := by
    rw [List.map_map]
    exact List.map_congr_left fun e _ => updated_updated fields i expected e
  simp only [Table.set, hrows]

lemma remove_remove (t : Table) (i : String) : (t.remove i).remove i = t.remove i := by
  simp [Table.remove, List.filter_filter]

lemma Call.Bound.settles {call : Call} {s : Statement} (h : call.Bound s) : Settles s := by
  intro t u v w x hu hw
  cases call with
  | append entry =>
    obtain ⟨row, rfl⟩ := bound_append h
    obtain ⟨u', hinsert, heq⟩ := map_eq_ok.mp hu
    cases heq
    obtain ⟨e, he⟩ := insert_twice hinsert
    obtain ⟨w', hw, -⟩ := map_eq_ok.mp hw
    rw [he] at hw
    cases hw
  | update entry_id updates expected =>
    obtain ⟨i, fields, -, -, rfl⟩ := bound_update h
    cases hu
    cases hw
    exact set_set t i fields expected
  | delete entry_id =>
    obtain ⟨i, rfl⟩ := bound_delete h
    cases hu
    cases hw
    exact remove_remove t i

lemma not_repeatable_append {t : Table} {entry : LedgerEntry PyStr} {r : Table × Option Bool}
    (h : (Call.append entry).once t = .ok r) : ¬ Repeatable (.append entry) t := by
  intro hrep
  obtain ⟨u, hu, rfl⟩ := map_eq_ok.mp h
  obtain ⟨u', hu', heq⟩ := map_eq_ok.mp (hrep u none h)
  cases heq
  obtain ⟨row, rfl, -, hinsert⟩ := Table.append_eq_ok.mp hu
  obtain ⟨row', hrow, -, hinsert'⟩ := Table.append_eq_ok.mp hu'
  obtain rfl := LedgerEntry.toPy_injective hrow
  obtain ⟨e, he⟩ := insert_twice hinsert
  rw [he] at hinsert'
  cases hinsert'

lemma repeatable_delete (entry_id : String) (t : Table) : Repeatable (.delete entry_id) t := by
  rintro u v h
  cases h
  exact congrArg (fun t => Except.ok (t, none)) (remove_remove t entry_id)

/-- An UPDATE can be repeated if it finds its row again, or did not find it to begin with. -/
lemma repeatable_update_iff {entry_id : String} {updates : List (Assignment PyStr)} {fields : List Assignment}
    {expected : Option (List Status)} {t : Table} (hsets : Table.Sets updates fields) :
    Repeatable (.update entry_id updates expected) t ↔
      (t.rows.any fun e => Table.matching entry_id expected (Table.updated fields entry_id expected e)) =
        t.rows.any (Table.matching entry_id expected) := by
  have honce : ∀ t, (Call.update entry_id updates expected).once t =
      .ok ((t.set entry_id fields expected).1, some (t.rows.any (Table.matching entry_id expected))) := by
    intro t
    rw [Call.once, Table.update_of_sets hsets]
    rfl
  have hany : (t.set entry_id fields expected).1.rows.any (Table.matching entry_id expected) =
      t.rows.any fun e => Table.matching entry_id expected (Table.updated fields entry_id expected e) := by
    rw [Table.set, List.any_map]
    rfl
  simp only [Repeatable, honce]
  rw [← hany]
  constructor
  · intro hrepeat
    have hsame := congrArg Prod.snd (Except.ok.inj (hrepeat _ _ rfl))
    exact Option.some.inj hsame
  · rintro hsame u v ⟨rfl, rfl⟩
    rw [set_set, hsame]

end Statements

/-- The call never gets to its statement, or never gets at the database, or goes through. -/
def Condition (d : Db) (x : Issue) : Prop :=
  x.call.early ≠ none ∨ Untouched x.attempts 4 0 ∨ GoesThrough x.call d.committed x.attempts 4 0

lemma perform_of_early {x : Issue} {d : Db} {r : Except Exc (Option Bool)} (h : x.call.early = some r) :
    x.perform d = (d, r.mapError .exc) := by
  cases r <;> simp [Issue.perform, withRetry, retry, attemptAt, attempt, h, Except.mapError]

lemma once_of_early {call : Call} {r : Except Exc (Option Bool)} (h : call.early = some r) (t : Table) :
    call.once t = r.map fun v => (t, v) := by
  cases call with
  | append entry =>
    obtain ⟨class_name, hjson, rfl⟩ := Option.map_eq_some_iff.mp h
    rw [Call.once, Table.append, LedgerEntry.bind, hjson]
    rfl
  | update entry_id updates expected =>
    rw [Call.once, Table.update]
    rw [Call.early] at h
    cases hjson : (Table.setFields updates).findSome? Assignment.refused with
    | some class_name =>
      rw [hjson] at h
      cases h
      rfl
    | none =>
      simp only [hjson] at h ⊢
      split at h
      · rename_i hnil
        cases h
        rw [if_pos hnil]
        rfl
      · cases h
  | delete entry_id => cases h

lemma keeps_fresh_iff {t : Table} {x : Issue} : Keeps (fresh t) x ↔ Condition (fresh t) x := by
  cases he : x.call.early with
  | some r =>
    refine iff_of_true ?_ (Or.inl (by simp [he]))
    rw [Keeps, perform_of_early he]
    refine ⟨rfl, ?_⟩
    cases r <;> simp [Except.mapError, once_of_early he, Except.map, fresh]
  | none =>
    rw [Condition, he]
    change Kept x.call x.connection t (retry _ 4 0 (fresh t)) ↔ _ ∨ _ ∨ GoesThrough x.call t _ 4 0
    rw [← idle_false (c := x.connection)]
    cases hs : x.call.statement with
    | error e =>
      have hfails : ¬ GoesThrough x.call t x.attempts 4 0 := by
        rintro ⟨⟨r, hr⟩, -⟩
        rw [once_eq he, hs] at hr
        cases hr
      rw [kept_retry_unbound he hs]
      simp [hfails]
    | ok s =>
      have hbound : x.call.Bound s := ⟨he, hs⟩
      rw [kept_retry t x.connection x.attempts hbound hbound.settles]
      simp

/-- No connection but `c` has a transaction open. -/
structure OthersIdle (c : Connection) (d : Db) : Prop where
  begun : ∀ b, b ≠ c → d.begun b = false
  writer : ∀ w, d.writer = some w → w.1 = c

lemma attempt_othersIdle {call : Call} {c : Connection} {a : Attempt} {d : Db} (h : OthersIdle c d) :
    OthersIdle c (attempt call c a d).1 := by
  have hbegin : ∀ d, OthersIdle c d → OthersIdle c (d.begin c) := fun d h =>
    ⟨fun b hb => by simp [Db.begin, hb, h.begun b hb], h.writer⟩
  have hhold : ∀ d t, OthersIdle c d → OthersIdle c (d.hold c t) := fun d t h =>
    ⟨fun b hb => by simp [Db.hold, hb, h.begun b hb], by rintro w ⟨⟩; rfl⟩
  have hclose : ∀ d, OthersIdle c d → OthersIdle c (d.close c) := fun d h =>
    ⟨fun b hb => by simp [Db.close, hb, h.begun b hb], by rintro w ⟨⟩⟩
  have hexecute : OthersIdle c (execute c a call.statement d).1 := by
    rw [execute]
    dsimp only
    split
    · exact h
    · have hbegun : OthersIdle c (if d.inTransaction c then d else d.begin c) := by
        split
        · exact h
        · exact hbegin d h
      split
      · exact hbegun
      · split
        · exact hbegun
        · split
          · exact hhold _ _ hbegun
          · exact hhold _ _ hbegun
  rw [attempt]
  split
  · exact h
  · split
    · rename_i d' e he
      rw [he] at hexecute
      exact hexecute
    · rename_i d' v he
      rw [he] at hexecute
      rw [commit]
      cases a.commit
      · exact hclose d' hexecute
      · exact hexecute

lemma retry_othersIdle {call : Call} {c : Connection} {attempts : ℕ → Attempt} (n i : ℕ) {d : Db}
    (h : OthersIdle c d) : OthersIdle c (retry (attemptAt call c attempts) n i d).1 := by
  induction n generalizing i d with
  | zero => exact attempt_othersIdle h
  | succ n ih =>
    have hstep : OthersIdle c (attemptAt call c attempts i d).1 := attempt_othersIdle h
    rw [retry]
    split
    · rename_i d' he
      rw [he] at hstep
      exact ih (i + 1) hstep
    · exact hstep

lemma fresh_of_othersIdle {c : Connection} {d : Db} (h : OthersIdle c d) (hc : d.inTransaction c = false) :
    d = fresh d.committed := by
  obtain ⟨hbegun, hwriter⟩ := Bool.or_eq_false_iff.mp hc
  obtain ⟨t, begun, writer⟩ := d
  have hb : begun = fun _ => false := by
    funext b
    by_cases he : b = c
    · exact he ▸ hbegun
    · exact h.begun b he
  have hw : writer = none := by
    cases writer with
    | none => rfl
    | some w =>
      obtain rfl := h.writer w rfl
      simp at hwriter
  rw [hb, hw]
  rfl

lemma step_of_keeps {t : Table} {x : Issue} (h : Keeps (fresh t) x) :
    ∃ u, step (fresh t) x = some (fresh u) := by
  have hidle : OthersIdle x.connection (x.perform (fresh t)).1 :=
    retry_othersIdle 4 0 ⟨fun _ _ => rfl, by rintro w ⟨⟩⟩
  exact ⟨_, congrArg some (fresh_of_othersIdle hidle h.1)⟩

/-- Any sequence of writes on any connections keeps to the claim at every call exactly when every
call meets its condition. -/
theorem writes_keep_iff (t : Table) (xs : List Issue) :
    Along step Keeps (fresh t) xs ↔ Along step Condition (fresh t) xs := by
  have hiff : ∀ {d x}, (∃ u, d = fresh u) → (Keeps d x ↔ Condition d x) := by
    rintro d x ⟨u, rfl⟩
    exact keeps_fresh_iff
  have hstep : ∀ {d x d'}, (∃ u, d = fresh u) → Condition d x → step d x = some d' → ∃ u, d' = fresh u := by
    intro d x d' hd hx hd'
    have hkeeps := (hiff hd).mpr hx
    obtain ⟨u, rfl⟩ := hd
    obtain ⟨v, hv⟩ := step_of_keeps hkeeps
    exact ⟨v, Option.some.inj (hd'.symm.trans hv)⟩
  exact along_iff hiff hstep ⟨t, rfl⟩

def disk : LedgerEntry where
  id := "e-1"
  action := "disk_check"
  status := .pending
  checkpoint := []
  created_at := 0
  updated_at := 0
  accio_ref := none
  metadata := []
  last_error := none

/-- The first commit finds the database locked. The INSERT is then executed again, on the
connection that has already inserted the row. -/
def lockedCommit : Issue := ⟨0, .append disk, fun i => { commit := i = 0 }⟩

theorem locked_commit_not_kept : ¬ ∀ xs, Along step Keeps (fresh Table.empty) xs := by
  intro h
  rcases keeps_fresh_iff.mp (h [lockedCommit]).head with hearly | huntouched | ⟨⟨r, hr⟩, k, hk, hsound, hrep⟩
  · exact hearly rfl
  · exact Bool.noConfusion (huntouched 0 (by omega)).1
  · have hpos : 0 < k := by
      rcases Nat.eq_zero_or_pos k with rfl | hpos
      · exact Bool.noConfusion hsound.2
      · exact hpos
    exact not_repeatable_append hr (hrep ⟨0, by omega, rfl⟩)

end OpsSentry.Ledger.Transactions
