import OpsSentry.Knowledge.EvolutionManager
import Mathlib.Algebra.Order.Ring.Unbundled.Rat
import Mathlib.Tactic.NormNum

/-! The priorities that a generated runbook is searched with. -/

namespace OpsSentry.Knowledge.Evolution

open Foundation.Strings Foundation.Values Foundation.Markup Ledger
open Foundation.JsonText (decimal)
open Foundation.Text (strip)
open Foundation.Lines (newlines newlines_append newlines_of_notMem splitlines splitlines_append)

/-- A completed entry as the ledger returns it, with the strings of its steps. -/
structure CompletedEntry extends LedgerEntry where
  steps : List PyStr
  completed : status = .completed
  checkpoint_steps : checkpoint.lookup (.text "steps") = some (.list (steps.map .ofStr))
  json : refusedDict metadata = none

def EncodableSummary (e : LedgerEntry) : Prop := ∀ s, e.metadata.lookup (.text "summary") ≠ some (.lone s)

/-- The steps and the summary have an encoding. -/
def CompletedEntry.Encodable (e : CompletedEntry) : Prop :=
  (∀ step ∈ e.steps, ∃ s : String, step = s) ∧ EncodableSummary e.toLedgerEntry

/-- An entry whose case can be written. -/
structure CaseEntry extends LedgerEntry where
  encodable : EncodableSummary toLedgerEntry

/-- The text of a runbook after the cases of `entries` have been merged into it. -/
def mergeAll (py : Python) (entries : List CaseEntry) (text : Word) : Word :=
  entries.foldl (fun text e =>
    match merged py e.toLedgerEntry (newlines text) with
    | some (.ok updated) => updated
    | _ => text) text

section Encodings

variable {py : Python} {e : LedgerEntry}

/-- Only a summary that is a string with a lone surrogate has no encoding. -/
lemma encoding_summary (py : Python) (e : LedgerEntry) (default : String) : (∃ w, encoding (summary py e default) = .ok w) ↔ EncodableSummary e := by
  rw [summary, EncodableSummary]
  cases e.metadata.lookup (.text "summary") with
  | none => simp
  | some v =>
    cases v with
    | lone s => exact iff_of_false (fun ⟨w, hw⟩ => nomatch hw) fun h => h s rfl
    | bool b =>
      refine iff_of_true ?_ fun s hs => nomatch hs
      cases b <;> exact ⟨_, rfl⟩
    | _ =>
      refine iff_of_true ?_ fun s hs => nomatch hs
      dsimp only
      split <;> exact ⟨_, rfl⟩

/-- No merge of such an entry raises, so `mergeAll` leaves out only the calls that write nothing. -/
lemma CaseEntry.not_raises (py : Python) (e : CaseEntry) (content : Word) (lone : Lone) :
    merged py e.toLedgerEntry content ≠ some (.error lone) := by
  obtain ⟨summary, hsummary⟩ := (encoding_summary py e.toLedgerEntry _).mpr e.encodable
  intro h
  rw [merged, newCase, mergedSummary, hsummary] at h
  split at h
  · cases h
  · cases h

lemma stepsRaw_texts {checkpoint : Dict} {steps : List PyStr}
    (h : checkpoint.lookup (.text "steps") = some (.list (steps.map .ofStr))) : stepsRaw py checkpoint = some steps := by
  have htext : text py ∘ Value.ofStr = id := by
    funext s
    cases s <;> rfl
  rw [stepsRaw, h]
  simp only [List.map_map, htext, List.map_id]

lemma mapM_encoding {steps : List PyStr} :
    (∃ ws, steps.mapM encoding = .ok ws) ↔ ∀ step ∈ steps, ∃ s : String, step = s := by
  induction steps with
  | nil => simp [pure, Except.pure]
  | cons step steps ih =>
    rw [List.forall_mem_cons, ← ih, List.mapM_cons]
    constructor
    · rintro ⟨ws, hws⟩
      obtain ⟨w, hw, hws⟩ := Foundation.Programs.bind_eq_ok hws
      obtain ⟨ws, hws, -⟩ := Foundation.Programs.bind_eq_ok hws
      obtain ⟨s, hs, -⟩ := encoding_eq_ok.mp hw
      exact ⟨⟨s, hs⟩, ws, hws⟩
    · rintro ⟨⟨s, rfl⟩, ws, hws⟩
      rw [encoding_text, hws]
      exact ⟨_, rfl⟩

lemma stepsFormatted_isOk {steps : List PyStr} :
    (∃ w, stepsFormatted steps = .ok w) ↔ ∀ step ∈ steps, ∃ s : String, step = s := by
  rw [← mapM_encoding]
  constructor
  · rintro ⟨w, hw⟩
    obtain ⟨ws, hws, -⟩ := Foundation.Programs.bind_eq_ok hw
    exact ⟨ws, hws⟩
  · rintro ⟨ws, hws⟩
    rw [stepsFormatted, hws]
    exact ⟨_, rfl⟩

lemma runbook_isOk (py : Python) (e : CompletedEntry) :
    (∃ text, runbook py e.toLedgerEntry = some (.ok text)) ↔ e.Encodable := by
  have hraw : stepsRaw py e.checkpoint = some e.steps := stepsRaw_texts e.checkpoint_steps
  rw [CompletedEntry.Encodable, ← stepsFormatted_isOk, ← encoding_summary py e.toLedgerEntry]
  constructor
  · rintro ⟨text, h⟩
    obtain ⟨_, steps_raw, steps, summary, hraw', hsteps, hsummary, -⟩ := runbook_eq h
    rw [hraw, Option.some.injEq] at hraw'
    exact ⟨⟨steps, hraw' ▸ hsteps⟩, summary, hsummary⟩
  · rintro ⟨⟨steps, hsteps⟩, summary, hsummary⟩
    exact exists_runbook hraw hsteps hsummary e.json

end Encodings

/-- From `## Verification` to the line after it that starts the cases. -/
def BLOCK : Word := "## Verification\n".toList ++ verification ++ "\n\n## Case Studies\n".toList

/-- No newline of any kind, no heading and no priority is read in the line. -/
lemma verification_line : '\r' ∉ verification ∧ ¬ HEADING <:+: verification ∧
    splitlines (verification ++ ['\n']) = [verification] ∧ headingMatch verification = none ∧
    spaced "priority_score".toList verification = none ∧
    strip (String.ofList (['\n'].intercalate [verification, []])) ≠ "" := by
  have h : verification = _ := String.toList_ofList
  rw [h]
  decide +kernel

def HasBlock (text : Word) : Prop := ∃ xs ys, text = xs ++ '\n' :: (BLOCK ++ ys)

lemma HasBlock.append_right {text : Word} (h : HasBlock text) (zs : Word) : HasBlock (text ++ zs) := by
  obtain ⟨xs, ys, rfl⟩ := h
  exact ⟨xs, ys ++ zs, by simp only [List.append_assoc, List.cons_append]⟩

lemma block_eq :
    BLOCK = "## Verification\n".toList ++ (verification ++ "\n\n## Case Studies\n".toList) := by
  delta BLOCK
  exact List.append_assoc _ _ _

lemma HasBlock.newlines {text : Word} (h : HasBlock text) : HasBlock (newlines text) := by
  obtain ⟨xs, ys, rfl⟩ := h
  obtain ⟨zs, hzs⟩ := newlines_append xs (BLOCK ++ ys)
  have hparts : '\r' ∉ "## Verification\n".toList ∧ '\r' ∉ "\n\n## Case Studies\n".toList := by decide
  have hblock : '\r' ∉ BLOCK := by
    rw [block_eq, List.mem_append, List.mem_append, not_or, not_or]
    exact ⟨hparts.1, verification_line.1, hparts.2⟩
  exact ⟨zs, Foundation.Lines.newlines ys, by rw [hzs, newlines_of_notMem hblock]⟩

lemma hasBlock_sections (xs : Word) : HasBlock (xs ++ "\n\n## Verification\n".toList ++ verification ++
    "\n\n## Case Studies\n- **Case ".toList) := by
  have hverification : "\n\n## Verification\n".toList = '\n' :: '\n' :: "## Verification\n".toList := by decide
  have hcases : "\n\n## Case Studies\n- **Case ".toList = "\n\n## Case Studies\n".toList ++ "- **Case ".toList := by
    decide
  refine ⟨xs ++ ['\n'], "- **Case ".toList, ?_⟩
  rw [block_eq, hverification, hcases]
  simp only [List.append_assoc, List.cons_append, List.nil_append]

lemma hasBlock_template (action description entry_id priority_score generated_at context steps summary : Word) :
    HasBlock (RUNBOOK_TEMPLATE action description entry_id priority_score generated_at context steps verification
      summary) :=
  ((((hasBlock_sections _).append_right _).append_right _).append_right _).append_right _

lemma hasBlock_runbook {py : Python} {e : LedgerEntry} {text : Word} (h : runbook py e = some (.ok text)) :
    HasBlock text := by
  obtain ⟨_, _, _, _, _, _, _, htext⟩ := runbook_eq h
  rw [htext]
  apply hasBlock_template

def VERIFICATION : Word := "## Verification".toList

lemma block_append (ys : Word) : BLOCK ++ ys =
    VERIFICATION ++ '\n' :: (verification ++ '\n' :: ([] ++ '\n' :: (HEADING ++ '\n' :: ys))) := by
  have hverification : "## Verification\n".toList = VERIFICATION ++ ['\n'] := by decide
  have hcases : "\n\n## Case Studies\n".toList = '\n' :: '\n' :: (HEADING ++ ['\n']) := by decide
  rw [block_eq, hverification, hcases]
  simp only [List.append_assoc, List.cons_append, List.nil_append]

/-- A newline parts what is replaced, and no line of the block but the last holds the heading. -/
lemma replace_block (rest xs ys : Word) :
    HasBlock (replace HEADING (HEADING ++ '\n' :: rest) (xs ++ '\n' :: (BLOCK ++ ys))) := by
  have hnil : HEADING ≠ [] := by decide
  have hnewline : '\n' ∉ HEADING := by decide
  have hheading := replace_append_left hnil (HEADING ++ '\n' :: rest) []
  rw [block_append]
  simp only [replace_append_cons hnil hnewline]
  rw [List.append_nil] at hheading
  have hverification : ¬ HEADING <:+: VERIFICATION := by decide +kernel
  have hempty : ¬ HEADING <:+: [] := by decide
  rw [hheading, replace_absent hverification, replace_absent verification_line.2.1, replace_absent hempty]
  exact ⟨replace HEADING (HEADING ++ '\n' :: rest) xs, rest ++ '\n' :: replace HEADING (HEADING ++ '\n' :: rest) ys, by
    simp only [block_append, List.append_assoc, List.cons_append, List.nil_append]⟩

lemma HasBlock.merged {py : Python} {e : LedgerEntry} {content text : Word} (h : HasBlock content)
    (htext : merged py e content = some (.ok text)) : HasBlock text := by
  obtain ⟨new_case, hcase, ⟨-, rfl⟩ | ⟨-, rfl⟩⟩ := merged_eq htext
  · obtain ⟨xs, ys, rfl⟩ := h
    obtain ⟨_, -, rfl⟩ := newCase_eq hcase
    apply replace_block
  · exact (h.append_right _).append_right _

lemma hasBlock_mergeAll {py : Python} (entries : List CaseEntry) {text : Word} (h : HasBlock text) :
    HasBlock (mergeAll py entries text) := by
  induction entries generalizing text with
  | nil => exact h
  | cons e entries ih =>
    rw [mergeAll, List.foldl_cons]
    apply ih
    split
    · rename_i hmerged
      exact h.newlines.merged hmerged
    · exact h

lemma splitlines_block (xs ys : Word) : splitlines (xs ++ '\n' :: (BLOCK ++ ys)) =
    splitlines (xs ++ ['\n']) ++ ([VERIFICATION, verification, [], HEADING] ++ splitlines ys) := by
  have hlines : splitlines (VERIFICATION ++ ['\n']) = [VERIFICATION] ∧ splitlines ([] ++ ['\n']) = [[]] ∧
      splitlines (HEADING ++ ['\n']) = [HEADING] := by decide +kernel
  rw [splitlines_append, block_append, splitlines_append VERIFICATION, splitlines_append verification,
    splitlines_append [], splitlines_append HEADING, hlines.1, verification_line.2.2.1, hlines.2.1, hlines.2.2]
  rfl

section Chunks

variable {K : Type} [Field K] (source_path : String)

lemma lines_cons (s : Chunking K) (line : Word) (lines : List Word) :
    s.lines source_path (line :: lines) = (s.line source_path line).lines source_path lines := rfl

lemma lines_append (s : Chunking K) (xs ys : List Word) :
    s.lines source_path (xs ++ ys) = (s.lines source_path xs).lines source_path ys := List.foldl_append

lemma chunks_flush (s : Chunking K) : s.chunks <+: (s.flush source_path).chunks := by
  rw [Chunking.flush]
  split
  · exact List.prefix_rfl
  · exact List.prefix_append _ _

lemma flush_priority (s : Chunking K) :
    (s.flush source_path).priority_score = 1 ∧ (s.flush source_path).current_lines = [] := by
  rw [Chunking.flush]
  split <;> exact ⟨rfl, rfl⟩

lemma flush_chunk {s : Chunking K} (h : s.body ≠ "") :
    ∃ chunk ∈ (s.flush source_path).chunks, chunk.priority_score = s.priority_score := by
  rw [Chunking.flush, if_neg h]
  exact ⟨_, List.mem_append_right _ (List.mem_singleton_self _), rfl⟩

lemma line_heading {line : Word} (h : (headingMatch line).isSome) (s : Chunking K) :
    (s.line source_path line).chunks = (s.flush source_path).chunks ∧
      (s.line source_path line).priority_score = 1 ∧ (s.line source_path line).current_lines = [] := by
  obtain ⟨⟨hashes, heading⟩, hp⟩ := Option.isSome_iff_exists.mp h
  rw [Chunking.line, hp]
  dsimp only
  exact ⟨rfl, flush_priority source_path s⟩

lemma priorityMatch_of_spaced {line : Word} (h : spaced "priority_score".toList line = none) :
    priorityMatch (K := K) line = none := by
  rw [priorityMatch, h]
  rfl

lemma line_text {line : Word} (h : headingMatch line = none)
    (hpriority : spaced "priority_score".toList line = none)
    (s : Chunking K) : s.line source_path line = { s with current_lines := s.current_lines ++ [line] } := by
  rw [Chunking.line, h]
  simp only [priorityMatch_of_spaced (K := K) hpriority]

lemma chunks_line (s : Chunking K) (line : Word) : s.chunks <+: (s.line source_path line).chunks := by
  cases h : headingMatch line with
  | some p =>
    rw [(line_heading source_path (by rw [h]; rfl) s).1]
    exact chunks_flush source_path s
  | none =>
    rw [Chunking.line, h]
    cases priorityMatch (K := K) line <;> exact List.prefix_rfl

lemma chunks_lines (s : Chunking K) (lines : List Word) :
    s.chunks <+: (s.lines source_path lines).chunks := by
  induction lines generalizing s with
  | nil => exact List.prefix_rfl
  | cons line lines ih =>
    rw [lines_cons]
    exact (chunks_line source_path s line).trans (ih (s.line source_path line))

/-- The section of the verification is a chunk of its own, with the priority of a section without a
line for it. -/
lemma chunk_of_block (s : Chunking K) :
    ∃ chunk ∈ (s.lines source_path [VERIFICATION, verification, [], HEADING]).chunks,
    chunk.priority_score = 1 := by
  have hverification : (headingMatch VERIFICATION).isSome := by decide +kernel
  have hempty : headingMatch [] = none ∧ spaced "priority_score".toList [] = none := by decide +kernel
  have hheading : (headingMatch HEADING).isSome := by decide +kernel
  obtain ⟨-, -, -, hline, hpriority, hbody⟩ := verification_line
  have hlast : s.lines source_path [VERIFICATION, verification, [], HEADING] =
      (((s.line source_path VERIFICATION).line source_path verification).line source_path []).line source_path HEADING :=
    rfl
  obtain ⟨-, hone, hlines⟩ := line_heading source_path hverification s
  rw [hlast, (line_heading source_path hheading _).1, line_text source_path hempty.1 hempty.2,
    line_text source_path hline hpriority]
  generalize s.line source_path VERIFICATION = opened at hone hlines ⊢
  rw [← hone]
  refine flush_chunk (s := { opened with current_lines := opened.current_lines ++ [verification] ++ [[]] }) source_path ?_
  rw [Chunking.body, hlines]
  exact hbody

lemma exists_chunk (stem : String) {text : Word} (h : HasBlock text) :
    ∃ chunk ∈ chunkMarkdown (K := K) source_path stem text, chunk.priority_score = 1 := by
  obtain ⟨xs, ys, hread⟩ := h.newlines
  rw [chunkMarkdown, hread, splitlines_block, lines_append, lines_append]
  obtain ⟨chunk, hchunk, hscore⟩ := chunk_of_block source_path (Chunking.lines source_path
    { chunks := [], current_heading := stem, current_level := 1, current_lines := [], chunk_index := 0,
      priority_score := (1 : K) } (splitlines (xs ++ ['\n'])))
  exact ⟨chunk, (chunks_flush source_path _).subset ((chunks_lines source_path _ _).subset hchunk), hscore⟩

end Chunks

attribute [local instance] atLeastTwo in
/-- What `_chunk_markdown` finds in a runbook that has only been merged into since it was created. -/
def StaysBelow (K : Type) [Field K] (py : Python) (e : LedgerEntry) (merges : List CaseEntry) : Prop :=
  ∀ text, runbook py e = some (.ok text) → ∀ source_path stem,
    ∀ chunk ∈ chunkMarkdown (K := K) source_path stem (mergeAll py merges text), chunk.priority_score = 1 / 2

lemma exists_chunk_runbook {K : Type} [Field K] [CharZero K] (py : Python) {e : CompletedEntry}
    (hencodable : e.Encodable) (merges : List CaseEntry) (source_path stem : String) :
    ∃ text, runbook py e.toLedgerEntry = some (.ok text) ∧
      ∃ chunk ∈ chunkMarkdown (K := K) source_path stem (mergeAll py merges text), chunk.priority_score ≠ 1 / 2 := by
  obtain ⟨text, htext⟩ := (runbook_isOk py e).mpr hencodable
  obtain ⟨chunk, hchunk, hscore⟩ :=
    exists_chunk (K := K) source_path stem (hasBlock_mergeAll merges (hasBlock_runbook htext))
  refine ⟨text, htext, chunk, hchunk, ?_⟩
  rw [hscore]
  norm_num

/-- The line with the priority stands in the first section only, and each section has its own: only where
no runbook can be written is there no section above a half. -/
theorem staysBelow_iff {K : Type} [Field K] [CharZero K] (py : Python) (e : CompletedEntry)
    (merges : List CaseEntry) : StaysBelow K py e.toLedgerEntry merges ↔ ¬ e.Encodable := by
  constructor
  · intro h hencodable
    obtain ⟨text, htext, chunk, hchunk, hne⟩ := exists_chunk_runbook (K := K) py hencodable merges "a.md" "a"
    exact hne (h text htext "a.md" "a" chunk hchunk)
  · intro h text htext
    exact absurd ((runbook_isOk py e).mp ⟨text, htext⟩) h

def cleanup : CompletedEntry where
  id := "5f0c2a9e41d84c0fb1a7c6a1d2e3f405"
  action := "disk_cleanup"
  status := .completed
  checkpoint := [("steps", .list [.str "Compress files older than 7 days", .str "Restart logrotate service"])]
  created_at := 1700000000000
  updated_at := 1700000005000
  accio_ref := none
  metadata := [("target", .str "/var/log"), ("summary", .str "Cleaned up 5GB from /var/log")]
  last_error := none
  steps := [.text "Compress files older than 7 days", .text "Restart logrotate service"]
  completed := rfl
  checkpoint_steps := rfl
  json := by decide

lemma cleanup_encodable : cleanup.Encodable := by
  refine ⟨?_, fun s hs => nomatch hs⟩
  simp [cleanup]

def cpython : Python where
  title s := if s = "disk cleanup" then "Disk Cleanup" else s
  repr _ := "[]"

theorem cleanup_not_below : ¬ StaysBelow ℚ cpython cleanup.toLedgerEntry [] := by
  rw [staysBelow_iff, not_not]
  exact cleanup_encodable

/-- One entry, and nothing merged. -/
theorem created_above_half : ¬ ∀ (py : Python) (e : CompletedEntry) (merges : List CaseEntry),
    StaysBelow ℚ py e.toLedgerEntry merges := by
  intro h
  obtain ⟨text, htext, chunk, hchunk, hne⟩ :=
    exists_chunk_runbook (K := ℚ) cpython cleanup_encodable [] "a.md" "a"
  exact hne (h cpython cleanup [] text htext "a.md" "a" chunk hchunk)

end OpsSentry.Knowledge.Evolution
