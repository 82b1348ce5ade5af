import OpsSentry.Foundation.PosixPath
import OpsSentry.Knowledge.Chunks
import OpsSentry.Ledger.Storage

/-! `evolution_manager.py`: completed ledger entries become runbooks, or cases of runbooks that are
there already. A text with a lone surrogate is the error that its encoding gives. -/

namespace OpsSentry.Knowledge.Evolution

open Foundation Foundation.Strings Foundation.Values Ledger
open Foundation.JsonText (decimal encodeStr str)
open Foundation.Lines (newlines)
open Foundation.Markup (replace)
open PosixPath (AbsPath resolve)

/-- `str.title`, and the `repr` of a list or a dict. -/
structure Python where
  title : String → String
  repr : Value → String

/-- `str(v)`. -/
def text (py : Python) : Value → PyStr
  | .null => "None"
  | .bool true => "True"
  | .bool false => "False"
  | .int n => String.ofList (decimal n)
  | .float repr => repr
  | .str s => s
  | .lone s => .lone s
  | v => py.repr v

def encoding (s : PyStr) : Except Lone Word := String.toList <$> s.encode

@[simp] lemma encoding_text (s : String) : encoding s = .ok s.toList := rfl

lemma encoding_eq_ok {s : PyStr} {w : Word} : encoding s = .ok w ↔ ∃ t : String, s = t ∧ t.toList = w := by
  rw [encoding, Programs.map_eq_ok]
  simp only [PyStr.encode_eq_ok]

section Dumps

def newline (indent : ℕ) : Word := '\n' :: List.replicate indent ' '

def bracket (left right : Char) (indent : ℕ) (items : List Word) : Word :=
  if items = [] then [left, right]
  else left :: newline (indent + 2) ++ (',' :: newline (indent + 2)).intercalate items ++ newline indent ++ [right]

mutual

def dumpsAt (indent : ℕ) : Value → Word
  | .null => "null".toList
  | .bool true => "true".toList
  | .bool false => "false".toList
  | .int n => decimal n
  | .float repr =>
    if repr = "nan" then "NaN".toList else if repr = "inf" then "Infinity".toList
    else if repr = "-inf" then "-Infinity".toList else repr.toList
  | .str s => '"' :: encodeStr (str s)
  | .lone s => '"' :: encodeStr s.points
  | .list xs => bracket '[' ']' indent (dumpsList (indent + 2) xs)
  | .dict kvs => bracket '{' '}' indent (dumpsDict (indent + 2) kvs)
  | .object _ => []

def dumpsList (indent : ℕ) : List Value → List Word
  | [] => []
  | x :: xs => dumpsAt indent x :: dumpsList indent xs

def dumpsDict (indent : ℕ) : List (PyStr × Value) → List Word
  | [] => []
  | (k, x) :: kvs => ('"' :: encodeStr k.points ++ ": ".toList ++ dumpsAt indent x) :: dumpsDict indent kvs

end

/-- `json.dumps(metadata, indent=2)`; `none` is the `TypeError`. -/
def dumps (metadata : Dict) : Option Word :=
  match refusedDict metadata with
  | some _ => none
  | none => some (dumpsAt 0 (.dict metadata))

example : dumps [("a", .list [.int 1, .dict []]), ("b", .str "é")] =
    some "\x7b\n  \"a\": [\n    1,\n    \x7b\x7d\n  ],\n  \"b\": \"\\u00e9\"\n\x7d".toList := by decide

end Dumps

def RUNBOOK_TEMPLATE (action description entry_id priority_score generated_at context steps verification
    summary : Word) : Word :=
  "## Runbook: ".toList ++ action ++ "\npriority_score: 0.5\n\n".toList ++ description ++
    "\n\n## Metadata\n- **Source Entry ID**: ".toList ++ entry_id ++
    "\n- **Priority Score**: ".toList ++ priority_score ++
    "\n- **Generated At**: ".toList ++ generated_at ++
    "\n\n## Context\n".toList ++ context ++
    "\n\n## Execution Steps\n".toList ++ steps ++
    "\n\n## Verification\n".toList ++ verification ++
    "\n\n## Case Studies\n- **Case ".toList ++ entry_id ++ "**: ".toList ++ summary ++ "\n".toList

def CASE_STUDY_TEMPLATE (entry_id summary updated_at : Word) : Word :=
  "\n- **Case ".toList ++ entry_id ++ "**: ".toList ++ summary ++ " (Success at ".toList ++ updated_at ++
    ")\n".toList

def actionTitle (py : Python) (e : LedgerEntry) : String :=
  py.title (String.ofList (replace ['_'] [' '] e.action.toList))

/-- What iterating over `checkpoint.get("steps", [])` gives; `none` where `len` raises. -/
def stepsRaw (py : Python) (checkpoint : Dict) : Option (List PyStr) :=
  match checkpoint.lookup (.text "steps") with
  | none => some []
  | some (.list xs) => some (xs.map (text py))
  | some (.str s) => some (s.toList.map fun c => .text (String.singleton c))
  | some (.lone s) => some (s.points.map fun u => .ofPoints [u])
  | some (.dict kvs) => some (kvs.map Prod.fst)
  | some _ => none

/-- `metadata.get("summary") or default`. -/
def summary (py : Python) (e : LedgerEntry) (default : String) : PyStr :=
  match e.metadata.lookup (.text "summary") with
  | some v => if v.truthy then text py v else default
  | none => default

def stepsFormatted (steps_raw : List PyStr) : Except Lone Word := do
  let steps ← steps_raw.mapM encoding
  pure (['\n'].intercalate (steps.zipIdx.map fun p => decimal (p.2 + 1 : ℕ) ++ ". ".toList ++ p.1))

def verification : Word :=
  "Verify that the target system state matches the desired outcome defined in the steps.".toList

def createdSummary (py : Python) (e : LedgerEntry) : PyStr :=
  summary py e ("Successfully executed " ++ e.action ++ ".")

def mergedSummary (py : Python) (e : LedgerEntry) : PyStr :=
  summary py e ("Another successful instance of " ++ e.action ++ ".")

/-- What `_create_new_runbook` writes; `none` where it raises before that. -/
def runbook (py : Python) (e : LedgerEntry) : Option (Except Lone Word) := do
  let steps_raw ← stepsRaw py e.checkpoint
  let context ← dumps e.metadata
  pure do
    let steps ← stepsFormatted steps_raw
    RUNBOOK_TEMPLATE (actionTitle py e).toList
      ("Automated runbook generated from successful execution of ".toList ++ e.action.toList ++ ".".toList)
      e.id.toList "0.5".toList (decimal e.updated_at) context steps verification <$> encoding (createdSummary py e)

lemma runbook_eq {py : Python} {e : LedgerEntry} {text : Word} (h : runbook py e = some (.ok text)) :
    ∃ context steps_raw steps summary, stepsRaw py e.checkpoint = some steps_raw ∧
      stepsFormatted steps_raw = .ok steps ∧ encoding (createdSummary py e) = .ok summary ∧
      text = RUNBOOK_TEMPLATE (actionTitle py e).toList
        ("Automated runbook generated from successful execution of ".toList ++ e.action.toList ++ ".".toList)
        e.id.toList "0.5".toList (decimal e.updated_at) context steps verification summary := by
  rw [runbook, Option.bind_eq_bind, Option.bind_eq_some_iff] at h
  obtain ⟨steps_raw, hraw, h⟩ := h
  rw [Option.bind_eq_bind, Option.bind_eq_some_iff] at h
  obtain ⟨context, -, h⟩ := h
  obtain ⟨steps, hsteps, h⟩ := Programs.bind_eq_ok (Option.some.inj h)
  obtain ⟨summary, hsummary, h⟩ := Programs.map_eq_ok.mp h
  exact ⟨context, steps_raw, steps, summary, hraw, hsteps, hsummary, h.symm⟩

lemma exists_runbook {py : Python} {e : LedgerEntry} {steps_raw : List PyStr} {steps summary : Word}
    (hraw : stepsRaw py e.checkpoint = some steps_raw) (hsteps : stepsFormatted steps_raw = .ok steps)
    (hsummary : encoding (createdSummary py e) = .ok summary) (hjson : refusedDict e.metadata = none) :
    ∃ text, runbook py e = some (.ok text) := by
  rw [runbook, hraw, dumps, hjson]
  simp only [Option.bind_eq_bind, Option.bind_some, hsteps, hsummary]
  exact ⟨_, rfl⟩

def filename (e : LedgerEntry) : String := e.action ++ "_" ++ String.ofList (e.id.toList.take 8) ++ ".md"

def HEADING : Word := "## Case Studies".toList

def newCase (py : Python) (e : LedgerEntry) : Except Lone Word :=
  (CASE_STUDY_TEMPLATE e.id.toList · (decimal e.updated_at)) <$> encoding (mergedSummary py e)

lemma newCase_eq {py : Python} {e : LedgerEntry} {new_case : Word} (h : newCase py e = .ok new_case) :
    ∃ summary, encoding (mergedSummary py e) = .ok summary ∧ new_case = '\n' :: ("- **Case ".toList ++
      e.id.toList ++ "**: ".toList ++ summary ++ " (Success at ".toList ++ decimal e.updated_at ++ ")\n".toList) := by
  have hcase : "\n- **Case ".toList = '\n' :: "- **Case ".toList := by decide
  rw [newCase, Programs.map_eq_ok] at h
  obtain ⟨summary, hsummary, h⟩ := h
  refine ⟨summary, hsummary, ?_⟩
  delta CASE_STUDY_TEMPLATE at h
  rw [hcase] at h
  simp only [List.cons_append] at h
  exact h.symm

/-- What `_merge_into_runbook` writes to a file that `read_text` reads as `content`; `none` where it
writes nothing. -/
def merged (py : Python) (e : LedgerEntry) (content : Word) : Option (Except Lone Word) :=
  if e.id.toList <:+: content then none
  else some <| newCase py e |>.map fun new_case =>
    if HEADING <:+: content then replace HEADING (HEADING ++ new_case) content
    else content ++ "\n## Case Studies\n".toList ++ new_case

lemma merged_eq {py : Python} {e : LedgerEntry} {content updated : Word}
    (h : merged py e content = some (.ok updated)) : ∃ new_case, newCase py e = .ok new_case ∧
      (HEADING <:+: content ∧ updated = replace HEADING (HEADING ++ new_case) content ∨
        ¬ HEADING <:+: content ∧ updated = content ++ "\n## Case Studies\n".toList ++ new_case) := by
  rw [merged] at h
  split at h
  · cases h
  obtain ⟨new_case, hcase, rfl⟩ := Programs.map_eq_ok.mp (Option.some.inj h)
  refine ⟨new_case, hcase, ?_⟩
  by_cases hheading : HEADING <:+: content
  · exact .inl ⟨hheading, if_pos hheading⟩
  · exact .inr ⟨hheading, if_neg hheading⟩

section Files

/-- A file: the text that its bytes decode to, or one that `read_text` raises on. -/
inductive File
  | text (content : Word)
  | unreadable
deriving DecidableEq

/-- How `write_text` ends for a text with an encoding: the file is not opened, or it is emptied and an
error comes behind some bytes of it, or all are written. -/
inductive Writing
  | refused
  | cut (bytes : ℕ)
  | whole

/-- The text of the first bytes of an encoded one, unless they end inside a character. -/
def firstBytes : Word → ℕ → Option Word
  | [], _ => some []
  | c :: text, bytes =>
    if bytes = 0 then some []
    else if c.utf8Size ≤ bytes then (c :: ·) <$> firstBytes text (bytes - c.utf8Size)
    else none

def cutOff (text : Word) (bytes : ℕ) : File :=
  match firstBytes text bytes with
  | some left => .text left
  | none => .unreadable

lemma firstBytes_prefix {text left : Word} {bytes : ℕ} (h : firstBytes text bytes = some left) : left <+: text := by
  induction text generalizing bytes left with
  | nil =>
    cases h
    exact List.prefix_rfl
  | cons c text ih =>
    rw [firstBytes] at h
    split at h
    · cases h
      exact List.nil_prefix
    split at h
    · obtain ⟨rest, hrest, rfl⟩ := Option.map_eq_some_iff.mp h
      exact List.cons_prefix_cons.mpr ⟨rfl, ih hrest⟩
    · cases h

lemma cutOff_prefix {text left : Word} {bytes : ℕ} (h : cutOff text bytes = .text left) : left <+: text := by
  rw [cutOff] at h
  split at h
  · rename_i hleft
    cases h
    exact firstBytes_prefix hleft
  · cases h

example : cutOff "aé".toList 2 = .unreadable := by decide

end Files

section Steps

variable {K : Type} [LinearOrder K]

structure Setup (K : Type) where
  py : Python
  cwd : AbsPath
  evolved_dir : AbsPath
  min_score : K

/-- What a call of `evolve_step` is given and meets: the hits for a query in the index, which is
rebuilt after the last entry only, and how the write for an entry ends. -/
structure Call (K : Type) where
  limit : ℤ
  search : PyStr → List (SearchHit K)
  writing : String → Writing

abbrev Files := AbsPath → Option File

/-- The files, and what is returned; `none` is an exception. -/
abbrev Outcome (α : Type) := Files × Option α

variable (s : Setup K) (call : Call K) (e : LedgerEntry) (files : Files)

def query : PyStr :=
  .ofPoints ((PyStr.text e.action).points ++ ' '.toNat ::
    [' '.toNat].intercalate (e.metadata.map fun p => (text s.py p.2).points))

def targetHit : Option (SearchHit K) :=
  (call.search (query s e)).find? fun hit =>
    (actionTitle s.py e).toList <:+: hit.chunk.heading.toList ∧ s.min_score < hit.score

/-- The file is opened, and so emptied, before the text is encoded. -/
def writeText (path : AbsPath) (text : Except Lone Word) : Outcome Bool :=
  match call.writing e.id, text with
  | .refused, _ => (files, none)
  | _, .error _ => (Function.update files path (some (.text [])), none)
  | .cut bytes, .ok text => (Function.update files path (some (cutOff text bytes)), none)
  | .whole, .ok text => (Function.update files path (some (.text text)), some true)

/-- All of the text gets into the file. -/
def Writes (text : Except Lone Word) : Prop := call.writing e.id = .whole ∧ ∃ written, text = .ok written

def runbookPath : AbsPath := resolve s.evolved_dir (filename e)

def hitPath (hit : SearchHit K) : AbsPath := resolve s.cwd hit.chunk.source_path

def createNewRunbook : Outcome Bool :=
  match runbook s.py e with
  | some content => writeText call e files (runbookPath s e) content
  | none => (files, none)

def mergeIntoRunbook (hit : SearchHit K) : Outcome Bool :=
  match files (hitPath s hit) with
  | none => (files, some false)
  | some .unreadable => (files, none)
  | some (.text content) =>
    match merged s.py e (newlines content) with
    | none => (files, some false)
    | some updated_content => writeText call e files (hitPath s hit) updated_content

def processEntry : Outcome Bool :=
  match targetHit s call e with
  | some hit => mergeIntoRunbook s call e files hit
  | none => createNewRunbook s call e files

def processEntries : List LedgerEntry → ℕ → Files → Outcome ℕ
  | [], processed_count, files => (files, some processed_count)
  | e :: entries, processed_count, files =>
    match processEntry s call e files with
    | (files, none) => (files, none)
    | (files, some true) => processEntries entries (processed_count + 1) files
    | (files, some false) => processEntries entries processed_count files

/-- `list_entries(status="completed")`. -/
def listEntries (ledger : Table) : List LedgerEntry :=
  (((ledger.rows.filter fun e => e.status = .completed).mergeSort fun x y => y.key ≤ x.key).take 1000).map
    Table.rowToEntry

/-- `e.checkpoint and len(e.checkpoint.get("steps", [])) > 1`. -/
def isMeaningful : Option Bool :=
  if e.checkpoint.isEmpty then some false else (stepsRaw s.py e.checkpoint).map fun steps => 1 < steps.length

def meaningfulEntries (entries : List LedgerEntry) : Option (List LedgerEntry) :=
  if entries.all fun e => (isMeaningful s e).isSome then some (entries.filter fun e => isMeaningful s e = some true)
  else none

/-- `entries[:limit]`. -/
def upTo (limit : ℤ) (entries : List LedgerEntry) : List LedgerEntry :=
  if 0 ≤ limit then entries.take limit.toNat else entries.take (entries.length - limit.natAbs)

def evolveStep (ledger : Table) : Outcome ℕ :=
  match meaningfulEntries s (listEntries ledger) with
  | some entries => processEntries s call (upTo call.limit entries) 0 files
  | none => (files, none)

end Steps

end OpsSentry.Knowledge.Evolution
