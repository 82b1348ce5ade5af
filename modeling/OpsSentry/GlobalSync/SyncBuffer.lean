import OpsSentry.Foundation.JsonLines
import OpsSentry.Foundation.Lines
import OpsSentry.Foundation.Runs
import OpsSentry.Foundation.Text

/-! `global_sync.py`: the `SyncBuffer`, a file of one JSON text a line. -/

namespace OpsSentry.GlobalSync

open Foundation.JsonText Foundation.Runs

/-- The fields, and that JSON can express them. -/
structure SyncEnvelope (F : Type) where
  node_id : Str
  msg_type : Str
  payload : List (Str × Json F)
  schema_version : Str
  ts : ℤ
  clean : ValidStr node_id ∧ ValidStr msg_type ∧ ValidStr schema_version ∧ WF (.obj payload)

variable {F : Type}

namespace SyncEnvelope

def to_record (envelope : SyncEnvelope F) : Json F :=
  .obj [(str "schema_version", .str envelope.schema_version), (str "ts", .int envelope.ts),
    (str "nodeId", .str envelope.node_id), (str "msgType", .str envelope.msg_type),
    (str "payload", .obj envelope.payload)]

end SyncEnvelope

variable (fl : Floats F)

def line (envelope : SyncEnvelope F) : Word := dumpsSorted fl envelope.to_record

/-- The bytes that `append` writes, all of them ASCII. -/
def written (envelope : SyncEnvelope F) : Word := line fl envelope ++ ['\n']

def strip (w : Word) : Word := (w.dropWhile Foundation.Text.isSpace).rdropWhile Foundation.Text.isSpace

/-- What the iteration over the open file gives, less the newlines. The empty piece behind the last
newline is skipped like any blank line. -/
def rawLines (text : Word) : List Word := (Foundation.Lines.newlines text).splitOn '\n'

/-- `none` where `json.loads` raises. -/
def records (lines : List Word) : Option (List (Json F)) := ((lines.map strip).filter (· ≠ [])).mapM (loads fl)

def read_all (buffer_path : Option Word) : Option (List (Json F)) :=
  match buffer_path with
  | none => some []
  | some text => records fl (rawLines text)

/-- An `append` since the last `clear`, and how many of its bytes have reached the file if a crash
has cut it off. -/
structure Append (F : Type) where
  envelope : SyncEnvelope F
  cut : Option ℕ

def Append.bytes (a : Append F) : Word :=
  match a.cut with
  | none => written fl a.envelope
  | some n => (written fl a.envelope).take n

structure State (F : Type) where
  buffer_path : Option Word
  appends : List (Append F)

def State.start : State F := ⟨none, []⟩

inductive Call (F : Type)
  | append (a : Append F)
  | read_all
  | clear

/-- The lock lets one call in at a time, and a crash in it. -/
def step (s : State F) : Call F → Option (State F)
  | .append a => some ⟨some (s.buffer_path.getD [] ++ a.bytes fl), s.appends ++ [a]⟩
  | .read_all => some s
  | .clear => some ⟨none, []⟩

/-- The envelopes whose append returned, and any of those that were cut off after the whole text. -/
inductive Picks : List (Append F) → List (SyncEnvelope F) → Prop
  | nil : Picks [] []
  | returned {e : SyncEnvelope F} {appends : List (Append F)} {picked : List (SyncEnvelope F)}
      (h : Picks appends picked) : Picks (⟨e, none⟩ :: appends) (e :: picked)
  | complete {e : SyncEnvelope F} {n : ℕ} {appends : List (Append F)} {picked : List (SyncEnvelope F)}
      (hn : (line fl e).length ≤ n) (h : Picks appends picked) : Picks (⟨e, some n⟩ :: appends) (e :: picked)
  | cut {e : SyncEnvelope F} {n : ℕ} {appends : List (Append F)} {picked : List (SyncEnvelope F)}
      (h : Picks appends picked) : Picks (⟨e, some n⟩ :: appends) picked

/-- `read_all` gives the envelopes in order, as JSON values. -/
def Reads (s : State F) : Prop :=
  ∃ records picked, read_all fl s.buffer_path = some records ∧ Picks fl s.appends picked ∧
    List.Forall₂ (fun (e : SyncEnvelope F) record => Same e.to_record record) picked records

/-- A crash leaves nothing, or a whole line, or a line that lacks its newline, behind which nothing
has been written. -/
def Framed : List (Append F) → Prop
  | [] => True
  | a :: appends => (∀ n, a.cut = some n → n = 0 ∨ (line fl a.envelope).length < n ∨
      n = (line fl a.envelope).length ∧ ∀ later ∈ appends, later.cut = some 0) ∧ Framed appends

end OpsSentry.GlobalSync
