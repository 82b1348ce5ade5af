import OpsSentry.Foundation.Programs
import OpsSentry.Foundation.Values
import Mathlib.Algebra.Ring.Int.Defs
import Mathlib.Data.Prod.Lex
import Mathlib.Data.String.Basic
import Mathlib.Tactic.Common

/-! `ledger_entry.py`: the entries of the operations ledger and the transitions their
status may take. -/

namespace OpsSentry.Ledger

open Foundation.Strings Foundation.Values

inductive Status
  | pending
  | running
  | completed
  | failed
deriving DecidableEq, Repr

namespace Status

def text : Status → String
  | pending => "pending"
  | running => "running"
  | completed => "completed"
  | failed => "failed"

/-- The member of `VALID_STATUSES` that a string is. -/
def ofText? (s : String) : Option Status := [pending, running, completed, failed].find? (·.text == s)

def of? : PyStr → Option Status
  | .text s => ofText? s
  | .lone _ => none

end Status

def VALID_TRANSITIONS : List (Status × List Status) :=
  [(.pending, [.running, .failed]),
   (.running, [.completed, .failed, .pending]),
   (.completed, []),
   (.failed, [.pending])]

def Edge (old new : Status) : Prop := ∃ p ∈ VALID_TRANSITIONS, p.1 = old ∧ new ∈ p.2

instance (old new : Status) : Decidable (Edge old new) :=
  inferInstanceAs (Decidable (∃ p ∈ VALID_TRANSITIONS, _))

/-- An entry of Python strings, or one that stands in the table, where every text has its encoding. -/
structure LedgerEntry (σ : Type := String) where
  id : σ
  action : σ
  status : Status
  checkpoint : Dict
  created_at : ℤ
  updated_at : ℤ
  accio_ref : Option σ
  metadata : Dict
  last_error : Option σ

inductive Exc
  | notFound (entry_id : String)
  | state (message : String)
  | integrity
  | type (class_name : String)
  | overflow
  | encode (s : Lone)
deriving DecidableEq, Repr

def Exc.text : Exc → String
  | .notFound entry_id => entry_id
  | .state message => message
  | .integrity => "UNIQUE constraint failed: ledger.id"
  | .type class_name => s!"Object of type {class_name} is not JSON serializable"
  | .overflow => "Python int too large to convert to SQLite INTEGER"
  | .encode s => s.message

section Parameters

/-- What the parameters of an SQL statement take: a text with an encoding, an integer of 64 bits. -/
def bindText (s : PyStr) : Except Exc String := s.encode.mapError .encode

def bindOptional : Option PyStr → Except Exc (Option String)
  | none => .ok none
  | some s => some <$> bindText s

def int64 (n : ℤ) : Bool := -2 ^ 63 ≤ n && n < 2 ^ 63

def bindInt (n : ℤ) : Except Exc ℤ := if int64 n then .ok n else .error .overflow

@[simp] lemma bindText_text (s : String) : bindText s = .ok s := rfl

@[simp] lemma bindOptional_text (s : Option String) : bindOptional (s.map .text) = .ok s := by
  cases s <;> rfl

lemma bindText_eq_ok {s : PyStr} {t : String} : bindText s = .ok t ↔ s = .text t := by
  cases s <;> simp [bindText, Except.mapError]

lemma bindOptional_eq_ok {s : Option PyStr} {t : Option String} : bindOptional s = .ok t ↔ s = t.map .text := by
  rcases s with _ | s | s <;> cases t <;> simp [bindOptional, bindText, Except.mapError, Functor.map, Except.map]

lemma bindInt_eq_ok {n m : ℤ} : bindInt n = .ok m ↔ n = m ∧ int64 m = true := by
  rw [bindInt]
  split
  · rename_i hn
    rw [Except.ok.injEq]
    constructor
    · rintro rfl
      exact ⟨rfl, hn⟩
    · exact And.left
  · rename_i hn
    refine iff_of_false (fun h => nomatch h) ?_
    rintro ⟨rfl, hm⟩
    exact hn hm

@[simp] lemma int64_toInt (n : Int64) : int64 n.toInt = true := by
  have hle := n.le_toInt
  have hlt := n.toInt_lt
  simp only [int64, Bool.and_eq_true, decide_eq_true_eq]
  exact ⟨hle, hlt⟩

end Parameters

namespace LedgerEntry

/-- What orders the audit stream. -/
def key (e : LedgerEntry) : ℤ ×ₗ String := toLex (e.created_at, e.id)

def toRecord (e : LedgerEntry PyStr) : Dict :=
  let record : Dict := [("id", .ofStr e.id), ("action", .ofStr e.action), ("status", .str e.status.text),
    ("checkpoint", .dict e.checkpoint), ("created_at", .int e.created_at),
    ("updated_at", .int e.updated_at), ("metadata", .dict e.metadata)]
  record ++ (e.accio_ref.map fun v => (.text "accio_ref", Value.ofStr v)).toList ++
    (e.last_error.map fun v => (.text "last_error", Value.ofStr v)).toList

/-- A row as an entry of Python strings. -/
@[coe] def toPy (e : LedgerEntry) : LedgerEntry PyStr :=
  { e with
    id := .text e.id
    action := .text e.action
    accio_ref := e.accio_ref.map .text
    last_error := e.last_error.map .text }

instance : Coe LedgerEntry (LedgerEntry PyStr) := ⟨toPy⟩

lemma toPy_injective : Function.Injective toPy := by
  intro e f h
  have htext : Function.Injective (Option.map PyStr.text) := Option.map_injective fun _ _ => PyStr.text.inj
  cases e
  cases f
  simp only [toPy, mk.injEq, PyStr.text.injEq, htext.eq_iff] at h
  simpa only [mk.injEq] using h

def refused {σ : Type} (e : LedgerEntry σ) : Option String := refusedDict e.checkpoint <|> refusedDict e.metadata

/-- The parameters of the INSERT: `json.dumps` of the dicts comes first. -/
def bind (e : LedgerEntry PyStr) : Except Exc LedgerEntry :=
  match e.refused with
  | some class_name => .error (.type class_name)
  | none => do
    let id ← bindText e.id
    let action ← bindText e.action
    let created_at ← bindInt e.created_at
    let updated_at ← bindInt e.updated_at
    let accio_ref ← bindOptional e.accio_ref
    let last_error ← bindOptional e.last_error
    pure { e with id, action, created_at, updated_at, accio_ref, last_error }

/-- The entry can stand in the table. -/
structure Storable (e : LedgerEntry) : Prop where
  json : e.refused = none
  created_at : int64 e.created_at = true
  updated_at : int64 e.updated_at = true

lemma bind_toPy {e : LedgerEntry} (h : e.Storable) : e.toPy.bind = .ok e := by
  have hjson : e.toPy.refused = none := h.json
  have hcreated : bindInt e.created_at = .ok e.created_at := bindInt_eq_ok.mpr ⟨rfl, h.created_at⟩
  have hupdated : bindInt e.updated_at = .ok e.updated_at := bindInt_eq_ok.mpr ⟨rfl, h.updated_at⟩
  rw [bind, hjson]
  simp only [toPy, bindText_text, bindOptional_text, hcreated, hupdated]
  rfl

lemma bind_eq_ok {e : LedgerEntry PyStr} {row : LedgerEntry} : e.bind = .ok row ↔ e = row.toPy ∧ row.Storable := by
  constructor
  · intro h
    rw [bind] at h
    split at h
    · cases h
    · rename_i hjson
      obtain ⟨id, hid, h⟩ := Foundation.Programs.bind_eq_ok h
      obtain ⟨action, haction, h⟩ := Foundation.Programs.bind_eq_ok h
      obtain ⟨created_at, hcreated, h⟩ := Foundation.Programs.bind_eq_ok h
      obtain ⟨updated_at, hupdated, h⟩ := Foundation.Programs.bind_eq_ok h
      obtain ⟨accio_ref, haccio, h⟩ := Foundation.Programs.bind_eq_ok h
      obtain ⟨last_error, hlast, h⟩ := Foundation.Programs.bind_eq_ok h
      cases h
      obtain ⟨hcreated, h64⟩ := bindInt_eq_ok.mp hcreated
      obtain ⟨hupdated, h64'⟩ := bindInt_eq_ok.mp hupdated
      refine ⟨?_, hjson, h64, h64'⟩
      rw [toPy, ← bindText_eq_ok.mp hid, ← bindText_eq_ok.mp haction, ← bindOptional_eq_ok.mp haccio,
        ← bindOptional_eq_ok.mp hlast, ← hcreated, ← hupdated]
  · rintro ⟨rfl, h⟩
    exact bind_toPy h

end LedgerEntry

lemma Status.ofText?_text (s : Status) : ofText? s.text = some s := by
  cases s <;> decide

lemma not_edge_completed (s : Status) : ¬ Edge .completed s := by
  cases s <;> decide

lemma edge_running_iff (s : Status) : Edge s .running ↔ s = .pending := by
  cases s <;> decide

end OpsSentry.Ledger
