import OpsSentry.Cluster.Heartbeat
import OpsSentry.Foundation.JsonLines
import OpsSentry.Foundation.JsonLoads
import OpsSentry.Foundation.Lines
import OpsSentry.Foundation.Utf8

/-! `AuditShipper._load_checkpoint` and `_save_checkpoint`: the bytes of the checkpoint file. -/

namespace OpsSentry.Cluster.Checkpoint

open Foundation Foundation.JsonText Foundation.JsonLoads
open Foundation.Lines (newlines newlines_self)

/-- `json.JSONDecodeError` and `UnicodeDecodeError` are `ValueError`s. -/
inductive Exc
  | value
  | recursion
  | attribute
  | type
  | overflow
deriving DecidableEq

def Exc.ofLoads : LoadsError → Exc
  | .decode | .digits => .value
  | .recursion => .recursion

/-- `int` of a string, which raises `ValueError` or gives an integer, `int` of a finite float, and `str`. -/
structure Builtins (F : Type) where
  int : Str → Option ℤ
  truncate : F → ℤ
  str : Json (Number F) → Str
  str_str : ∀ s, str (.str s) = s

section Calls

variable {F : Type} {fl : Floats F} (py : Interpreter fl) (builtins : Builtins F)

def toInt : Json (Number F) → Except Exc ℤ
  | .int n => .ok n
  | .bool b => .ok (if b then 1 else 0)
  | .float (.finite x) => .ok (builtins.truncate x)
  | .float .nan => .error .value
  | .float (.infinity _) => .error .overflow
  | .str s =>
    match builtins.int s with
    | some n => .ok n
    | none => .error .value
  | .null | .arr _ | .obj _ => .error .type

def readText (content : List UInt8) : Except Exc Word :=
  match Utf8.decodeStrict content with
  | some text => .ok (newlines text)
  | none => .error .value

/-- `data.get(key, default)`, where only a `dict` has a `get`. -/
def get (data : Json (Number F)) (key : String) (default : Json (Number F)) : Except Exc (Json (Number F)) :=
  match data with
  | .obj kvs => .ok ((kvs.lookup (str key)).getD default)
  | _ => .error .attribute

def parse (content : List UInt8) : Except Exc (ℤ × Str) := do
  let text ← readText content
  let data ← (py.loads text).mapError .ofLoads
  let last_ts ← toInt builtins (← get data "last_ts" (.int 0))
  let last_id ← get data "last_id" (.str [])
  pure (last_ts, builtins.str last_id)

/-- The `except` clause: a `ValueError` is caught. -/
def startOver : Except Exc (ℤ × Str) → Except Exc (ℤ × Str)
  | .error .value => .ok (0, [])
  | result => result

/-- Of a file that is absent, or of the bytes in it. -/
def loadCheckpoint (file : Option (List UInt8)) : Except Exc (ℤ × Str) :=
  match file with
  | none => .ok (0, [])
  | some content => startOver (parse py builtins content)

def checkpoint (now_ms ts : ℤ) (entry_id : Str) : Json F :=
  .obj [(str "last_ts", .int ts), (str "last_id", .str entry_id), (str "updated_at", .int now_ms)]

/-- The file that is put in place; `json.dumps` raises for integers of too many digits. -/
def saveCheckpoint (fl : Floats F) (now_ms ts : ℤ) (entry_id : Str) : Option (List UInt8) :=
  if Short ts ∧ Short now_ms then some (Utf8.encode (dumps fl (checkpoint now_ms ts entry_id))) else none

end Calls

section Property

variable {F : Type} {fl : Floats F} (py : Interpreter fl) (builtins : Builtins F)

/-- A JSON object whose `last_ts` is something that `int` takes; `str` takes every `last_id`. -/
def Usable (content : List UInt8) : Prop :=
  ∃ text kvs last_ts, readText content = .ok text ∧ py.loads text = .ok (.obj kvs) ∧
    toInt builtins ((kvs.lookup (str "last_ts")).getD (.int 0)) = .ok last_ts

def Survives (content : List UInt8) : Prop :=
  ∃ ts id, loadCheckpoint py builtins (some content) = .ok (ts, id) ∧ (¬ Usable py builtins content → ts = 0 ∧ id = [])

def Saved (fl : Floats F) (py : Interpreter fl) (now_ms ts : ℤ) (entry_id : Str) : Prop :=
  ∀ file, saveCheckpoint fl now_ms ts entry_id = some file → loadCheckpoint py builtins (some file) = .ok (ts, entry_id)

/-- Neither nothing nor a container nor infinite. -/
def Convertible : Json (Number F) → Prop
  | .null | .arr _ | .obj _ | .float (.infinity _) => False
  | _ => True

/-- JSON, as far as it is JSON, does not nest too deeply and is an object with such a `last_ts`. -/
def Handled (content : List UInt8) : Prop :=
  ∀ text, readText content = .ok text →
    match py.loads text with
    | .ok (.obj kvs) => Convertible ((kvs.lookup (str "last_ts")).getD (.int 0))
    | .ok _ => False
    | .error e => e ≠ .recursion

def Unpaired (s : Str) : Prop := s.IsChain fun c d => ¬ (isHigh c = true ∧ isLow d = true)

end Property

section Load

variable {F : Type} {fl : Floats F} {py : Interpreter fl} {builtins : Builtins F} {content : List UInt8}
  {text : Word}
  {kvs : List (Str × Json (Number F))} {last_ts : ℤ}

lemma loadCheckpoint_of_parse {result : Except Exc (ℤ × Str)} (h : parse py builtins content = result) :
    loadCheckpoint py builtins (some content) = startOver result := by
  rw [loadCheckpoint, h]

lemma parse_of_unreadable {e : Exc} (h : readText content = .error e) :
    parse py builtins content = .error .value := by
  rw [readText] at h
  split at h
  · cases h
  · rename_i hnone
    rw [parse, readText, hnone]
    rfl

lemma parse_of_loads_error {e : LoadsError} (hread : readText content = .ok text)
    (h : py.loads text = .error e) :
    parse py builtins content = .error (.ofLoads e) := by
  rw [parse, hread]
  change (py.loads text).mapError _ >>= _ = _
  rw [h]
  rfl

lemma parse_of_object (hread : readText content = .ok text) (h : py.loads text = .ok (.obj kvs)) :
    parse py builtins content = (toInt builtins ((kvs.lookup (str "last_ts")).getD (.int 0))).map fun last_ts =>
      (last_ts, builtins.str ((kvs.lookup (str "last_id")).getD (.str []))) := by
  rw [parse, hread]
  change (py.loads text).mapError _ >>= _ = _
  rw [h]
  change toInt builtins _ >>= _ = _
  cases toInt builtins ((kvs.lookup (str "last_ts")).getD (.int 0)) <;> rfl

lemma parse_of_other {data : Json (Number F)} (hread : readText content = .ok text)
    (h : py.loads text = .ok data)
    (hdata : ∀ kvs, data ≠ .obj kvs) : parse py builtins content = .error .attribute := by
  rw [parse, hread]
  change (py.loads text).mapError _ >>= _ = _
  rw [h]
  cases data with
  | obj kvs => exact (hdata kvs rfl).elim
  | _ => rfl

lemma toInt_of_convertible {x : Json (Number F)} (h : Convertible x) :
    (∃ n, toInt builtins x = .ok n) ∨ toInt builtins x = .error .value := by
  cases x with
  | null => exact h.elim
  | arr xs => exact h.elim
  | obj kvs => exact h.elim
  | bool b => exact Or.inl ⟨_, rfl⟩
  | int n => exact Or.inl ⟨n, rfl⟩
  | float x =>
    cases x with
    | finite x => exact Or.inl ⟨_, rfl⟩
    | nan => exact Or.inr rfl
    | infinity negative => exact h.elim
  | str s =>
    rw [toInt]
    cases builtins.int s with
    | some n => exact Or.inl ⟨n, rfl⟩
    | none => exact Or.inr rfl

lemma toInt_of_not_convertible {x : Json (Number F)} (h : ¬ Convertible x) :
    ∃ e, toInt builtins x = .error e ∧ e ≠ .value := by
  cases x with
  | null => exact ⟨.type, rfl, by decide⟩
  | arr xs => exact ⟨.type, rfl, by decide⟩
  | obj kvs => exact ⟨.type, rfl, by decide⟩
  | float x =>
    cases x with
    | infinity negative => exact ⟨.overflow, rfl, by decide⟩
    | _ => exact (h trivial).elim
  | _ => exact (h trivial).elim

/-- What is caught gives the start, and nothing else of it is usable. -/
lemma survives_of_caught (h : parse py builtins content = .error .value) : Survives py builtins content :=
  ⟨0, [], loadCheckpoint_of_parse h, fun _ => ⟨rfl, rfl⟩⟩

lemma not_survives {e : Exc} (h : parse py builtins content = .error e) (he : e ≠ .value) :
    ¬ Survives py builtins content := by
  rintro ⟨ts, id, hload, -⟩
  rw [loadCheckpoint_of_parse h] at hload
  cases e with
  | value => exact he rfl
  | _ => cases hload

lemma survives_iff_handled : Survives py builtins content ↔ Handled py content := by
  cases hread : readText content with
  | error e =>
    refine iff_of_true (survives_of_caught (parse_of_unreadable hread)) fun text htext => ?_
    rw [hread] at htext
    cases htext
  | ok text =>
    have hhandled : Handled py content ↔ match py.loads text with
        | .ok (.obj kvs) => Convertible ((kvs.lookup (str "last_ts")).getD (.int 0))
        | .ok _ => False
        | .error e => e ≠ .recursion := by
      rw [Handled, hread]
      simp
    rw [hhandled]
    cases hloads : py.loads text with
    | error e =>
      have hparse : parse py builtins content = .error (.ofLoads e) := parse_of_loads_error hread hloads
      cases e with
      | recursion => exact iff_of_false (not_survives hparse (by decide)) (fun h => h rfl)
      | decode => exact iff_of_true (survives_of_caught hparse) (fun h => by cases h)
      | digits => exact iff_of_true (survives_of_caught hparse) (fun h => by cases h)
    | ok data =>
      cases data with
      | obj kvs =>
        have hparse := @parse_of_object F fl py builtins content text kvs hread hloads
        by_cases hconv : Convertible ((kvs.lookup (str "last_ts")).getD (.int 0))
        · refine iff_of_true ?_ hconv
          rcases @toInt_of_convertible F builtins _ hconv with ⟨n, hn⟩ | hn
          · rw [hn] at hparse
            exact ⟨_, _, loadCheckpoint_of_parse hparse, fun hnot => (hnot ⟨text, kvs, n, hread, hloads, hn⟩).elim⟩
          · rw [hn] at hparse
            exact survives_of_caught hparse
        · obtain ⟨e, he, hne⟩ := @toInt_of_not_convertible F builtins _ hconv
          rw [he] at hparse
          exact iff_of_false (not_survives hparse hne) hconv
      | _ => exact iff_of_false (not_survives (parse_of_other hread hloads (by simp)) (by decide)) id

end Load

section Save

variable {F : Type} {fl : Floats F} {py : Interpreter fl} {builtins : Builtins F} {now_ms ts : ℤ}
  {entry_id : Str}

lemma readText_encode {text : Word} (h : '\r' ∉ text) : readText (Utf8.encode text) = .ok text := by
  rw [readText, Utf8.decodeStrict_encode]
  exact congrArg _ (newlines_self h)

lemma return_notMem_dumps (x : Json F) : '\r' ∉ dumps fl x := (printable_dumps fl x).notMem (by decide)

lemma loadCheckpoint_saved (hts : Short ts) (hnow : Short now_ms) (hid : ValidStr entry_id) :
    loadCheckpoint py builtins (some (Utf8.encode (dumps fl (checkpoint now_ms ts entry_id)))) = .ok (ts, entry_id) := by
  have hreadable : Readable ValidStr py.limit (checkpoint (F := F) now_ms ts entry_id) := by
    obtain ⟨room, hroom⟩ : ∃ room, py.limit = room + 1 := ⟨py.limit - 1, by have := py.room; omega⟩
    rw [hroom, checkpoint, Readable]
    refine ⟨by simp only [List.map_cons, List.map_nil]; decide, ?_⟩
    simp only [ReadableFields, Readable]
    exact ⟨⟨valid_str _, hts⟩, ⟨valid_str _, hid⟩, ⟨valid_str _, hnow⟩, trivial⟩
  have hparse := @parse_of_object F fl py builtins _ _ _ (readText_encode (return_notMem_dumps _))
    (loads_dumps py hreadable)
  rw [loadCheckpoint_of_parse hparse]
  change Except.ok (ts, builtins.str (.str entry_id)) = _
  rw [builtins.str_str]

lemma unpaired_iff (hbounded : ∀ c ∈ entry_id, c < 0x110000) : Unpaired entry_id ↔ ValidStr entry_id :=
  ⟨fun h => ⟨hbounded, h⟩, ValidStr.unpaired⟩

/-- A pair of surrogates comes back as the one character it stands for. -/
lemma saved_iff (hbounded : ∀ c ∈ entry_id, c < 0x110000) (hts : Short ts) (hnow : Short now_ms) :
    Saved builtins fl py now_ms ts entry_id ↔ Unpaired entry_id := by
  rw [unpaired_iff hbounded]
  obtain ⟨id, hid, htext⟩ := exists_valid hbounded
  have hfile : saveCheckpoint fl now_ms ts entry_id = some (Utf8.encode (dumps fl (checkpoint now_ms ts id))) := by
    rw [saveCheckpoint, if_pos ⟨hts, hnow⟩]
    simp only [checkpoint, dumps, dumpsFields, htext]
  constructor
  · intro hsaved
    have hload := hsaved _ hfile
    rw [loadCheckpoint_saved hts hnow hid] at hload
    have heq : id = entry_id := congrArg Prod.snd (Except.ok.inj hload)
    rwa [← heq]
  · intro hvalid file h
    rw [saveCheckpoint, if_pos ⟨hts, hnow⟩, Option.some.injEq] at h
    rw [← h]
    exact loadCheckpoint_saved hts hnow hvalid

end Save

variable {F : Type} {fl : Floats F}

theorem damaged_checkpoint_iff (py : Interpreter fl) (builtins : Builtins F) :
    (∀ content, Survives py builtins content ↔ Handled py content) ∧
      ∀ now_ms ts entry_id, (∀ c ∈ entry_id, c < 0x110000) →
        (Saved builtins fl py now_ms ts entry_id ↔
          (saveCheckpoint fl now_ms ts entry_id ≠ none → Unpaired entry_id)) := by
  refine ⟨fun content => survives_iff_handled, fun now_ms ts entry_id hbounded => ?_⟩
  by_cases hshort : Short ts ∧ Short now_ms
  · rw [saved_iff hbounded hshort.1 hshort.2, saveCheckpoint, if_pos hshort]
    simp
  · have hnone : saveCheckpoint fl now_ms ts entry_id = none := if_neg hshort
    rw [Saved, hnone]
    simp

section Sample

/-- `int` takes no string. -/
def noNumerals : Builtins Unit where
  int _ := none
  truncate _ := 0
  str
    | .str s => s
    | _ => []
  str_str _ := rfl

/-- The two bytes of an empty list. -/
theorem list_stops_shipper :
    loadCheckpoint Heartbeat.halvesInterpreter noNumerals (some [0x5B, 0x5D]) = .error .attribute ∧
      ¬ Survives Heartbeat.halvesInterpreter noNumerals [0x5B, 0x5D] := by
  have hparse : parse Heartbeat.halvesInterpreter noNumerals [0x5B, 0x5D] = .error .attribute := rfl
  exact ⟨loadCheckpoint_of_parse hparse, not_survives hparse (by decide)⟩

end Sample

end OpsSentry.Cluster.Checkpoint
