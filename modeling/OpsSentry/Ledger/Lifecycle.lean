import OpsSentry.Ledger.OpsLedger
import Mathlib.Data.List.Destutter

/-! The state machine of a ledger entry between its creation and its deletion, under every
interleaving of the calls of any number of processes. -/

namespace OpsSentry.Ledger

open Foundation.Values Foundation.Programs Foundation.Runs

/-- A row of the entry with the storage call that left it so. -/
structure Version where
  made : Record
  row : LedgerEntry

def extend (i : String) (l : List Version) (r : Record) : List Version :=
  if r.entry_id = i then
    match r.before, r.after with
    | none, some e => [⟨r, e⟩]
    | some _, some e => if l = [] then [] else l ++ [⟨r, e⟩]
    | _, none => []
  else l

/-- The versions of an entry since its creation, the oldest first; none where there is no
entry, or one that is older than the log. -/
def life (i : String) (log : List Record) : List Version := log.foldl (extend i) []

def Assignment.newStatus {σ : Type} : Assignment σ → Option Status
  | .status s => some s
  | _ => none

def Command.newStatus : Command → Option Status
  | .update _ updates _ => updates.findSome? Assignment.newStatus
  | _ => none

def Version.move (v : Version) : Option Status := if v.made.success then v.made.call.newStatus else none

def SameFinally (e f : LedgerEntry) : Prop :=
  f.status = e.status ∧ f.checkpoint = e.checkpoint ∧ f.last_error = e.last_error ∧
    f.updated_at = e.updated_at

def SameIdentity (e f : LedgerEntry) : Prop :=
  f.id = e.id ∧ f.action = e.action ∧ f.created_at = e.created_at ∧ f.accio_ref = e.accio_ref ∧
    f.metadata = e.metadata

/-- What a status change is to a version: one edge for a transition call, none for any other. -/
def Moves (e : LedgerEntry) (v : Version) : Prop :=
  match v.move with
  | some s => Edge e.status s ∧ v.row.status = s
  | none => v.row.status = e.status

structure Next (e : LedgerEntry) (v : Version) : Prop where
  moves : Moves e v
  final : e.status = .completed → SameFinally e v.row
  fixed : SameIdentity e v.row

def statuses (l : List Version) : List Status := (l.map fun v => v.row.status).destutter (· ≠ ·)

structure Lifecycle (l : List Version) : Prop where
  starts : ∀ v ∈ l.head?, v.row.status = .pending
  path : (statuses l).IsChain Edge
  edges : l.IsChain fun u v => Moves u.row v
  leaves_once : ∀ i j : ℕ, i < j → l[i]?.bind Version.move = some .running →
    l[j]?.bind Version.move = some .running →
    ∃ k, i < k ∧ k < j ∧ l[k]?.bind Version.move = some .pending
  final : l.Pairwise fun u v => u.row.status = .completed → SameFinally u.row v.row
  fixed : l.Pairwise fun u v => SameIdentity u.row v.row

section Paths

variable {α : Type} [DecidableEq α] {R : α → α → Prop}

lemma head?_destutter' (l : List α) (a : α) : (l.destutter' (· ≠ ·) a).head? = some a := by
  induction l with
  | nil => rfl
  | cons b l ih =>
    rw [List.destutter'_cons]
    split
    · rfl
    · exact ih

lemma isChain_destutter'_ne {l : List α} {a : α} (h : (a :: l).IsChain fun x y => y = x ∨ R x y) :
    (l.destutter' (· ≠ ·) a).IsChain R := by
  induction l generalizing a with
  | nil => exact List.isChain_singleton a
  | cons b l ih =>
    obtain ⟨hab, hl⟩ := List.isChain_cons_cons.mp h
    rw [List.destutter'_cons]
    split
    · rename_i hne
      apply List.isChain_cons.mpr
      refine ⟨?_, ih hl⟩
      intro c hc
      rw [head?_destutter'] at hc
      exact Option.some.inj hc ▸ hab.resolve_left (Ne.symm hne)
    · rename_i heq
      exact ih (not_not.mp heq ▸ hl)

lemma isChain_destutter_ne {l : List α} (h : l.IsChain fun x y => y = x ∨ R x y) :
    (l.destutter (· ≠ ·)).IsChain R := by
  cases l with
  | nil => exact List.isChain_nil
  | cons a l => exact isChain_destutter'_ne h

end Paths

section Consequences

variable {l : List Version}

lemma Moves.path {e : LedgerEntry} {v : Version} (h : Moves e v) :
    v.row.status = e.status ∨ Edge e.status v.row.status := by
  rw [Moves] at h
  split at h
  · exact Or.inr (h.2 ▸ h.1)
  · exact Or.inl h

lemma statuses_path (h : l.IsChain fun u v => Moves u.row v) : (statuses l).IsChain Edge := by
  apply isChain_destutter_ne
  rw [List.isChain_map]
  exact h.imp fun _ _ hm => hm.path

lemma SameFinally.trans {e f g : LedgerEntry} (h : SameFinally e f) (h' : SameFinally f g) :
    SameFinally e g :=
  ⟨h'.1.trans h.1, h'.2.1.trans h.2.1, h'.2.2.1.trans h.2.2.1, h'.2.2.2.trans h.2.2.2⟩

lemma SameIdentity.trans {e f g : LedgerEntry} (h : SameIdentity e f) (h' : SameIdentity f g) :
    SameIdentity e g :=
  ⟨h'.1.trans h.1, h'.2.1.trans h.2.1, h'.2.2.1.trans h.2.2.1, h'.2.2.2.1.trans h.2.2.2.1,
    h'.2.2.2.2.trans h.2.2.2.2⟩

instance : Trans (fun u v : Version => SameIdentity u.row v.row)
    (fun u v : Version => SameIdentity u.row v.row)
    (fun u v : Version => SameIdentity u.row v.row) :=
  ⟨SameIdentity.trans⟩

instance : Trans (fun u v : Version => u.row.status = .completed → SameFinally u.row v.row)
    (fun u v : Version => u.row.status = .completed → SameFinally u.row v.row)
    (fun u v : Version => u.row.status = .completed → SameFinally u.row v.row) :=
  ⟨fun h h' hu => (h hu).trans (h' ((h hu).1.trans hu))⟩

/-- A row that is pending again after one that is not was made pending in between. -/
lemma exists_move_pending (h : l.IsChain fun u v => Moves u.row v) {i m : ℕ} (him : i ≤ m)
    (hil : i < l.length) (hm : m < l.length) (hi : l[i].row.status ≠ .pending)
    (hp : l[m].row.status = .pending) :
    ∃ k, i < k ∧ k ≤ m ∧ l[k]?.bind Version.move = some .pending := by
  induction m with
  | zero =>
    obtain rfl : i = 0 := by omega
    exact absurd hp hi
  | succ m ih =>
    by_cases hlast : i = m + 1
    · subst i
      exact absurd hp hi
    · have hstep := List.isChain_iff_getElem.mp h m hm
      rw [Moves] at hstep
      split at hstep
      · rename_i s hs
        refine ⟨m + 1, by omega, le_rfl, ?_⟩
        rw [List.getElem?_eq_getElem hm, Option.bind_some, hs, ← hstep.2, hp]
      · obtain ⟨k, hik, hkm, hk⟩ := ih (by omega) (by omega) (hstep.symm.trans hp)
        exact ⟨k, hik, by omega, hk⟩

lemma leaves_pending_once (h : l.IsChain fun u v => Moves u.row v) {i j : ℕ} (hij : i < j)
    (hstart : (l[0]?).bind Version.move = none) (hi : l[i]?.bind Version.move = some .running)
    (hj : l[j]?.bind Version.move = some .running) :
    ∃ k, i < k ∧ k < j ∧ l[k]?.bind Version.move = some .pending := by
  obtain ⟨v, hv, hvm⟩ := Option.bind_eq_some_iff.mp hj
  obtain ⟨hjl, rfl⟩ := List.getElem?_eq_some_iff.mp hv
  obtain ⟨u, hu, hum⟩ := Option.bind_eq_some_iff.mp hi
  obtain ⟨hil, rfl⟩ := List.getElem?_eq_some_iff.mp hu
  have hpos : ∀ k, l[k]?.bind Version.move = some .running → 0 < k := by
    intro k hk
    rcases k with _ | k
    · rw [hstart] at hk
      cases hk
    · omega
  obtain ⟨i, rfl⟩ : ∃ i', i = i' + 1 := ⟨i - 1, by have := hpos i hi; omega⟩
  obtain ⟨j, rfl⟩ : ∃ j', j = j' + 1 := ⟨j - 1, by omega⟩
  have hmi := List.isChain_iff_getElem.mp h i hil
  have hmj := List.isChain_iff_getElem.mp h j hjl
  rw [Moves, hum] at hmi
  rw [Moves, hvm] at hmj
  have hne : l[i + 1].row.status ≠ .pending := by
    rw [hmi.2]
    decide
  obtain ⟨k, hik, hkj, hk⟩ :=
    exists_move_pending h (by omega) hil (by omega) hne ((edge_running_iff _).mp hmj.1)
  exact ⟨k, hik, by omega, hk⟩

end Consequences

end OpsSentry.Ledger
