import OpsSentry.Foundation.Runs
import OpsSentry.Knowledge.EvolutionManager
import Mathlib.Algebra.Order.Ring.Unbundled.Rat

/-! The cases that the runbooks hold, along the calls of `evolve_step`. -/

namespace OpsSentry.Knowledge.Evolution

open Foundation.Markup Foundation.Programs Foundation.Runs Foundation.Strings Foundation.Values Ledger
open Foundation.JsonText (decimal)
open Foundation.Lines (newlines newlines_cons_of_ne newlines_append_of_ne prefix_newlines return_notMem_newlines infix_newlines)
open Foundation.PosixPath (AbsPath)

@[irreducible]
def caseStart (x : LedgerEntry) : Word := "- **Case ".toList ++ x.id.toList ++ "**: ".toList

def createdCase (py : Python) (x : LedgerEntry) : Except Lone Word :=
  (caseStart x ++ ·) <$> encoding (createdSummary py x)

def mergedCase (py : Python) (x : LedgerEntry) : Except Lone Word :=
  (caseStart x ++ · ++ " (Success at ".toList ++ decimal x.updated_at ++ ")".toList) <$> encoding (mergedSummary py x)

/-- The case lines of an entry, as they are read; a summary without an encoding has none. -/
def caseLines (py : Python) (x : LedgerEntry) : List Word :=
  [createdCase py x, mergedCase py x].filterMap fun line => newlines <$> line.toOption

section Presence

variable {K : Type} [LinearOrder K] (s : Setup K)

/-- The file is an evolved runbook that holds the case of `x`. -/
def RecordedAt (x : LedgerEntry) (files : Files) (path : AbsPath) : Prop :=
  AbsPath.Below s.evolved_dir path ∧ ∃ text, files path = some (.text text) ∧
    ∃ line ∈ caseLines s.py x, line <:+: newlines text

def Recorded (x : LedgerEntry) (files : Files) : Prop := ∃ path, RecordedAt s x files path

/-- A creation that opens the file of the runbook finds no other entry's only case in it; a merge that
opens a file finds every case that is only there with `## Case Studies` nowhere but at its end. Where
the write then fails, every case in the file is in another one also. -/
def Careful (call : Call K) (rows : List LedgerEntry) (e : LedgerEntry) (files : Files) : Prop :=
  match targetHit s call e with
  | none => ∀ text, runbook s.py e = some text → call.writing e.id ≠ .refused → ∀ x ∈ rows,
      (Writes call e text → x.id ≠ e.id) → RecordedAt s x files (runbookPath s e) →
        ∃ path ≠ runbookPath s e, RecordedAt s x files path
  | some hit => ∀ content, files (hitPath s hit) = some (.text content) → ¬ e.id.toList <:+: newlines content →
      call.writing e.id ≠ .refused → ∀ x ∈ rows, RecordedAt s x files (hitPath s hit) →
        (∃ path ≠ hitPath s hit, RecordedAt s x files path) ∨
          Writes call e (newCase s.py e) ∧
            ∃ line ∈ caseLines s.py x, line <:+: newlines content ∧ ∀ c, ¬ HEADING ++ [c] <:+: line

def CarefulAll (call : Call K) (rows : List LedgerEntry) : List LedgerEntry → Files → Prop
  | [], _ => True
  | e :: entries, files => Careful s call rows e files ∧
      ((processEntry s call e files).2.isSome → CarefulAll call rows entries (processEntry s call e files).1)

end Presence

lemma caseStart_eq (x : LedgerEntry) :
    caseStart x = '-' :: (" **Case ".toList ++ x.id.toList ++ "**: ".toList) := by
  have hcase : "- **Case ".toList = '-' :: " **Case ".toList := by decide
  delta caseStart
  rw [hcase]
  rfl

lemma mem_caseLines {py : Python} {x : LedgerEntry} {line : Word} :
    line ∈ caseLines py x ↔ ∃ text, (createdCase py x = .ok text ∨ mergedCase py x = .ok text) ∧ newlines text = line := by
  cases hcreated : createdCase py x <;> cases hmerged : mergedCase py x <;>
    simp [caseLines, hcreated, hmerged, Except.toOption, eq_comm]

lemma caseText_start {py : Python} {x : LedgerEntry} {text : Word}
    (h : createdCase py x = .ok text ∨ mergedCase py x = .ok text) : ∃ rest, text = caseStart x ++ rest := by
  rcases h with h | h
  · obtain ⟨summary, -, rfl⟩ := map_eq_ok.mp h
    exact ⟨summary, rfl⟩
  · obtain ⟨summary, -, rfl⟩ := map_eq_ok.mp h
    exact ⟨summary ++ (" (Success at ".toList ++ (decimal x.updated_at ++ ")".toList)), by
      simp only [List.append_assoc]⟩

lemma caseLine_cons {py : Python} {x : LedgerEntry} {line : Word} (h : line ∈ caseLines py x) :
    ∃ rest, line = '-' :: rest ∧ '\r' ∉ line := by
  obtain ⟨text, htext, rfl⟩ := mem_caseLines.mp h
  obtain ⟨rest, rfl⟩ := caseText_start htext
  refine ⟨newlines (" **Case ".toList ++ x.id.toList ++ "**: ".toList ++ rest), ?_, return_notMem_newlines _⟩
  rw [caseStart_eq, List.cons_append, newlines_cons_of_ne (by decide)]

/-- A case that is read in a text stays there when the text is written again with more behind it or
with other cases merged in. -/
lemma caseLine_merged {py : Python} {x e : LedgerEntry} {line content updated : Word}
    (h : line ∈ caseLines py x)
    (hline : line <:+: content) (hintact : ∀ c, ¬ HEADING ++ [c] <:+: line)
    (hupdated : merged py e content = some (.ok updated)) : line <:+: newlines updated := by
  obtain ⟨rest, rfl, hreturn⟩ := caseLine_cons h
  apply infix_newlines (by decide) hreturn
  obtain ⟨new_case, -, ⟨-, rfl⟩ | ⟨-, rfl⟩⟩ := merged_eq hupdated
  · exact infix_replace (by decide) (by decide) (fun c hc => hintact c (List.infix_cons hc)) hline _
  · rw [List.append_assoc]
    exact hline.trans (List.prefix_append _ _).isInfix

lemma case_at_end {lit start : Word} (w : Word) (h : lit = w ++ start)
    (zs entry_id colon summary last : Word) :
    zs ++ lit ++ entry_id ++ colon ++ summary ++ last = zs ++ w ++ (start ++ entry_id ++ colon ++ summary ++ last) := by
  rw [h]
  simp only [List.append_assoc]

lemma runbook_case {py : Python} {e : LedgerEntry} {text : Word} (h : runbook py e = some (.ok text)) :
    ∃ zs line, createdCase py e = .ok line ∧ text = zs ++ (line ++ "\n".toList) := by
  have hlit : "\n\n## Case Studies\n- **Case ".toList = "\n\n## Case Studies\n".toList ++ "- **Case ".toList := by
    decide
  obtain ⟨context, steps_raw, steps, summary, -, -, hsummary, htext⟩ := runbook_eq h
  have hcase : createdCase py e = .ok ("- **Case ".toList ++ e.id.toList ++ "**: ".toList ++ summary) := by
    rw [createdCase, hsummary]
    delta caseStart
    rfl
  rw [htext]
  exact ⟨_, _, hcase, case_at_end _ hlit _ _ _ _ _⟩

lemma infix_newlines_case {x : LedgerEntry} {start : Word} (h : ∃ rest, start = caseStart x ++ rest)
    (zs ys : Word) : newlines start <:+: newlines (zs ++ (start ++ ys)) := by
  obtain ⟨rest, rfl⟩ := h
  rw [caseStart_eq, List.cons_append, List.cons_append, newlines_append_of_ne (by decide), ← List.cons_append]
  exact (prefix_newlines _ ys).isInfix.trans (List.suffix_append _ _).isInfix

lemma caseLine_runbook {py : Python} {e : LedgerEntry} {text : Word} (h : runbook py e = some (.ok text)) :
    ∃ line ∈ caseLines py e, line <:+: newlines text := by
  obtain ⟨zs, line, hline, rfl⟩ := runbook_case h
  exact ⟨_, mem_caseLines.mpr ⟨line, .inl hline, rfl⟩, infix_newlines_case (caseText_start (.inl hline)) zs _⟩

lemma newCase_mergedCase {py : Python} {e : LedgerEntry} {new_case : Word} (h : newCase py e = .ok new_case) :
    ∃ line, mergedCase py e = .ok line ∧ new_case = ['\n'] ++ (line ++ "\n".toList) := by
  have hlast : ")\n".toList = ")".toList ++ "\n".toList := by decide
  have hstart : caseStart e = "- **Case ".toList ++ e.id.toList ++ "**: ".toList := by
    delta caseStart
    rfl
  obtain ⟨summary, hsummary, rfl⟩ := newCase_eq h
  refine ⟨_, map_eq_ok.mpr ⟨summary, hsummary, rfl⟩, ?_⟩
  rw [hstart, hlast]
  simp only [List.append_assoc, List.cons_append, List.nil_append]

lemma caseLine_newCase {py : Python} {e : LedgerEntry} {content updated : Word}
    (h : merged py e content = some (.ok updated)) :
    ∃ line ∈ caseLines py e, line <:+: newlines updated := by
  obtain ⟨new_case, hcase, hupdated⟩ := merged_eq h
  have hin : new_case <:+: updated := by
    rcases hupdated with ⟨hheading, rfl⟩ | ⟨-, rfl⟩
    · exact (List.suffix_append _ _).isInfix.trans (infix_replace_new (by decide) hheading _)
    · exact (List.suffix_append _ _).isInfix
  obtain ⟨zs, ys, rfl⟩ := hin
  obtain ⟨line, hline, rfl⟩ := newCase_mergedCase hcase
  have hsplit : zs ++ (['\n'] ++ (line ++ "\n".toList)) ++ ys = (zs ++ ['\n']) ++ (line ++ ("\n".toList ++ ys)) := by
    simp only [List.append_assoc]
  rw [hsplit]
  exact ⟨_, mem_caseLines.mpr ⟨line, .inr hline, rfl⟩, infix_newlines_case (caseText_start (.inr hline)) _ _⟩

section Step

variable {K : Type} [LinearOrder K] {s : Setup K} {call : Call K} {e x : LedgerEntry} {files : Files}

omit [LinearOrder K] in
/-- What a file that is opened holds in the end. -/
lemma writeText_cases (hopened : call.writing e.id ≠ .refused) (path : AbsPath) (text : Except Lone Word) :
    (Writes call e text ∧ ∃ written, text = .ok written ∧
      writeText call e files path text = (Function.update files path (some (.text written)), some true)) ∨
    ¬ Writes call e text ∧
      ∃ left, (∀ content, left = .text content → content = [] ∨ ∃ written, text = .ok written ∧ content <+: written) ∧
      writeText call e files path text = (Function.update files path (some left), none) := by
  cases hwriting : call.writing e.id with
  | refused => exact absurd hwriting hopened
  | cut bytes =>
    have hfails : ¬ Writes call e text := fun h => nomatch hwriting.symm.trans h.1
    refine .inr ⟨hfails, ?_⟩
    cases text with
    | error s =>
      exact ⟨.text [], fun content h => .inl (File.text.inj h).symm, by simp only [writeText, hwriting]⟩
    | ok written =>
      exact ⟨cutOff written bytes, fun content h => .inr ⟨written, rfl, cutOff_prefix h⟩,
        by simp only [writeText, hwriting]⟩
  | whole =>
    cases text with
    | error s =>
      have hfails : ¬ Writes call e (.error s) := fun h => nomatch h.2
      exact .inr ⟨hfails, .text [], fun content h => .inl (File.text.inj h).symm, by simp only [writeText, hwriting]⟩
    | ok written =>
      exact .inl ⟨⟨hwriting, written, rfl⟩, written, rfl, by simp only [writeText, hwriting]⟩

omit [LinearOrder K] in
/-- What is merged can be written where the case can. -/
lemma writes_merged {content : Word} {text : Except Lone Word} (h : merged s.py e content = some text) :
    Writes call e text ↔ Writes call e (newCase s.py e) := by
  rw [merged] at h
  split at h
  · cases h
  obtain rfl := Option.some.inj h
  refine and_congr_right fun _ => ⟨?_, ?_⟩
  · rintro ⟨written, h⟩
    obtain ⟨new_case, hcase, -⟩ := map_eq_ok.mp h
    exact ⟨new_case, hcase⟩
  · rintro ⟨new_case, hcase⟩
    exact ⟨_, map_eq_ok.mpr ⟨new_case, hcase, rfl⟩⟩

/-- What one entry does to the files. -/
lemma processEntry_cases (s : Setup K) (call : Call K) (e : LedgerEntry) (files : Files) :
    ((processEntry s call e files).1 = files ∧ (processEntry s call e files).2 ≠ some true) ∨
    (targetHit s call e = none ∧ call.writing e.id ≠ .refused ∧ ∃ text, runbook s.py e = some text ∧
      processEntry s call e files = writeText call e files (runbookPath s e) text) ∨
    ∃ hit content text, targetHit s call e = some hit ∧ call.writing e.id ≠ .refused ∧
      files (hitPath s hit) = some (.text content) ∧ merged s.py e (newlines content) = some text ∧
      processEntry s call e files = writeText call e files (hitPath s hit) text := by
  have hrefused : call.writing e.id = .refused → ∀ path text, writeText call e files path text = (files, none) := by
    intro h path text
    simp only [writeText, h]
  rw [processEntry]
  by_cases hopened : call.writing e.id = .refused
  · left
    cases targetHit s call e with
    | none =>
      simp only [createNewRunbook]
      cases runbook s.py e <;> simp [hrefused hopened]
    | some hit =>
      simp only [mergeIntoRunbook]
      rcases files (hitPath s hit) with _ | content | _
      · simp
      · cases hmerged : merged s.py e (newlines content) <;> simp [hmerged, hrefused hopened]
      · simp
  · cases htarget : targetHit s call e with
    | none =>
      simp only [createNewRunbook]
      cases hrunbook : runbook s.py e with
      | none => exact .inl (by simp)
      | some text => exact .inr (.inl ⟨trivial, hopened, text, rfl, rfl⟩)
    | some hit =>
      simp only [mergeIntoRunbook]
      rcases hfile : files (hitPath s hit) with _ | content | _
      · exact .inl (by simp)
      · cases hmerged : merged s.py e (newlines content) with
        | none => exact .inl (by simp [hmerged])
        | some text => exact .inr (.inr ⟨hit, content, text, rfl, hopened, hfile, hmerged, by simp only [hmerged]⟩)
      · exact .inl (by simp)

omit [LinearOrder K] in
lemma RecordedAt.update {path path' : AbsPath} (h : RecordedAt s x files path) (hne : path ≠ path')
    (file : Option File) : RecordedAt s x (Function.update files path' file) path := by
  rw [RecordedAt, Function.update_of_ne hne]
  exact h

omit [LinearOrder K] in
/-- Of a file that is written, the cases that are nowhere else have to be in what it holds then. -/
lemma Recorded.update {path' : AbsPath} {file : File} (h : Recorded s x files)
    (hfile : RecordedAt s x files path' → (∃ path ≠ path', RecordedAt s x files path) ∨
      ∃ text, file = .text text ∧ ∃ line ∈ caseLines s.py x, line <:+: newlines text) :
    Recorded s x (Function.update files path' (some file)) := by
  obtain ⟨path, hpath⟩ := h
  by_cases hwhere : path = path'
  · subst hwhere
    rcases hfile hpath with ⟨other, hne, hother⟩ | ⟨text, rfl, hline⟩
    · exact ⟨other, hother.update hne _⟩
    · exact ⟨path, hpath.1, text, Function.update_self .., hline⟩
  · exact ⟨path, hpath.update hwhere _⟩

lemma processEntry_keeps {rows : List LedgerEntry} (hcare : Careful s call rows e files) (hx : x ∈ rows)
    (hsame : x.id = e.id → caseLines s.py x = caseLines s.py e) (h : Recorded s x files) :
    Recorded s x (processEntry s call e files).1 := by
  rcases processEntry_cases s call e files with ⟨hfiles, -⟩ | ⟨htarget, hopened, text, htext, hstep⟩ |
    ⟨hit, content, text, htarget, hopened, hcontent, htext, hstep⟩
  · rw [hfiles]
    exact h
  · simp only [Careful, htarget] at hcare
    have hother := hcare text htext hopened x hx
    rw [hstep]
    rcases writeText_cases hopened (runbookPath s e) text with ⟨hwrites, written, rfl, hwrite⟩ | ⟨hfails, left, -, hwrite⟩
    · rw [hwrite]
      apply h.update
      intro hpath
      by_cases hid : x.id = e.id
      · exact .inr ⟨written, rfl, hsame hid ▸ caseLine_runbook htext⟩
      · exact .inl (hother (fun _ => hid) hpath)
    · rw [hwrite]
      apply h.update
      intro hpath
      exact .inl (hother (fun hwrites => absurd hwrites hfails) hpath)
  · simp only [Careful, htarget] at hcare
    have hid : ¬ e.id.toList <:+: newlines content := by
      intro hid
      rw [merged, if_pos hid] at htext
      cases htext
    have hother := hcare content hcontent hid hopened x hx
    rw [hstep]
    rcases writeText_cases hopened (hitPath s hit) text with ⟨hwrites, written, rfl, hwrite⟩ | ⟨hfails, left, -, hwrite⟩
    · rw [hwrite]
      apply h.update
      intro hpath
      rcases hother hpath with helse | ⟨-, line, hmem, hline, hintact⟩
      · exact .inl helse
      · exact .inr ⟨written, rfl, line, hmem, caseLine_merged hmem hline hintact htext⟩
    · rw [hwrite]
      apply h.update
      intro hpath
      rcases hother hpath with helse | ⟨hwrites, -⟩
      · exact .inl helse
      · exact absurd ((writes_merged htext).mpr hwrites) hfails

lemma processEntries_keeps {rows entries : List LedgerEntry} (hx : x ∈ rows)
    (hsame : ∀ e ∈ entries, x.id = e.id → caseLines s.py x = caseLines s.py e) (n : ℕ)
    (hcare : CarefulAll s call rows entries files) (h : Recorded s x files) :
    Recorded s x (processEntries s call entries n files).1 := by
  induction entries generalizing n files with
  | nil => exact h
  | cons e entries ih =>
    have hkept := processEntry_keeps hcare.1 hx (hsame e List.mem_cons_self) h
    have htail := fun hsome => hcare.2 hsome
    rw [processEntries]
    rcases hprocess : processEntry s call e files with ⟨files', _ | b⟩
    · rw [hprocess] at hkept
      exact hkept
    · rw [hprocess] at hkept htail
      cases b <;> exact ih (fun e he => hsame e (List.mem_cons_of_mem _ he)) _ (htail rfl) hkept

end Step

/-! The ledger and the files together. -/

section Runs

variable {K : Type} [LinearOrder K] (s : Setup K)

structure State where
  ledger : Table
  files : Files

/-- An entry is new in the ledger as a completed one, or a call is made. -/
inductive Event (K : Type)
  | complete (entry : LedgerEntry PyStr)
  | evolve (call : Call K)

def step (st : State) : Event K → Option State
  | .complete entry =>
    match st.ledger.append { entry with status := .completed } with
    | .ok ledger => some { st with ledger }
    | .error _ => none
  | .evolve call => some { st with files := (evolveStep s call st.files st.ledger).1 }

/-- Every entry that a call processes meets files in which it can be processed without loss. -/
def Condition (st : State) : Event K → Prop
  | .complete _ => True
  | .evolve call => ∀ entries, meaningfulEntries s (listEntries st.ledger) = some entries →
      CarefulAll s call st.ledger.rows (upTo call.limit entries) st.files

/-- No case line that is in some runbook after some events is in none after more of them. -/
def NeverLoses (st : State) (events : List (Event K)) : Prop :=
  ∀ before between after, events = before ++ between ++ after →
    ∀ t u, run (step s) st before = some t → run (step s) t between = some u →
      ∀ x ∈ t.ledger.rows, Recorded s x t.files → Recorded s x u.files

variable {s}

lemma caseLines_rowToEntry (py : Python) (x : LedgerEntry) :
    caseLines py (Table.rowToEntry x) = caseLines py x := by
  simp only [caseLines, createdCase, mergedCase, caseStart_eq]
  rfl

omit [LinearOrder K] in
lemma caseLines_processed {ledger : Table} {entries : List LedgerEntry} {limit : ℤ}
    (hentries : meaningfulEntries s (listEntries ledger) = some entries) {x e : LedgerEntry}
    (hx : x ∈ ledger.rows) (he : e ∈ upTo limit entries) (hid : x.id = e.id) :
    caseLines s.py x = caseLines s.py e := by
  have hmem : e ∈ listEntries ledger := by
    have hsub : e ∈ entries := by
      rw [upTo] at he
      split at he <;> exact List.mem_of_mem_take he
    rw [meaningfulEntries] at hentries
    split at hentries
    · rw [← Option.some.inj hentries] at hsub
      exact List.mem_of_mem_filter hsub
    · cases hentries
  rw [listEntries, List.mem_map] at hmem
  obtain ⟨row, hrow, rfl⟩ := hmem
  have hrow' := List.mem_of_mem_filter (List.mem_mergeSort.mp (List.mem_of_mem_take hrow))
  rw [caseLines_rowToEntry, List.inj_on_of_nodup_map ledger.nodup hx hrow' hid]

lemma step_keeps {st t : State} {event : Event K} {x : LedgerEntry} (hcond : Condition s st event)
    (hstep : step s st event = some t) (hx : x ∈ st.ledger.rows) (h : Recorded s x st.files) :
    x ∈ t.ledger.rows ∧ Recorded s x t.files := by
  cases event with
  | complete entry =>
    rw [step] at hstep
    cases happend : st.ledger.append { entry with status := .completed } with
    | error exc => simp [happend] at hstep
    | ok ledger =>
      simp only [happend, Option.some.injEq] at hstep
      subst hstep
      obtain ⟨row, -, -, hinsert⟩ := Table.append_eq_ok.mp happend
      rw [Table.insert_rows hinsert]
      exact ⟨List.mem_append_left _ hx, h⟩
  | evolve call =>
    cases hstep
    refine ⟨hx, ?_⟩
    dsimp only
    rw [evolveStep]
    cases hentries : meaningfulEntries s (listEntries st.ledger) with
    | none => exact h
    | some entries =>
      exact processEntries_keeps hx (fun e he hid => caseLines_processed hentries hx he hid) 0 (hcond entries hentries) h

/-- A loss takes an entry that is not processed with care. -/
theorem neverLoses {st : State} {events : List (Event K)} (h : Along (step s) (Condition s) st events) :
    NeverLoses s st events := by
  rintro before between after rfl t u ht hu x hx hrecorded
  have hbetween := h.append_left.append_right ht
  have hkept : x ∈ u.ledger.rows ∧ Recorded s x u.files :=
    run_invariant (fun hv hcond hstep => step_keeps hcond hstep hv.1 hv.2) ⟨hx, hrecorded⟩ hbetween hu
  exact hkept.2

end Runs

/-! One file for two entries: their ids are cut off behind eight characters. -/

section Nightly

lemma listEntries_eq {t : Table} (hcompleted : ∀ e ∈ t.rows, e.status = .completed)
    (hsorted : t.rows.Pairwise fun x y => y.key ≤ x.key) (hlength : t.rows.length ≤ 1000) :
    listEntries t = t.rows.map Table.rowToEntry := by
  have hfilter : t.rows.filter (fun e => e.status = .completed) = t.rows :=
    List.filter_eq_self.mpr fun e he => decide_eq_true (hcompleted e he)
  have hpairwise : t.rows.Pairwise fun x y => decide (y.key ≤ x.key) = true := hsorted.imp decide_eq_true
  rw [listEntries, hfilter, List.mergeSort_of_pairwise hpairwise, List.take_of_length_le hlength]

lemma meaningfulEntries_eq {K : Type} {s : Setup K} {entries : List LedgerEntry}
    (h : ∀ e ∈ entries, isMeaningful s e = some true) : meaningfulEntries s entries = some entries := by
  have hall : (entries.all fun e => (isMeaningful s e).isSome) = true := by
    rw [List.all_eq_true]
    intro e he
    rw [h e he]
    rfl
  rw [meaningfulEntries, if_pos hall, List.filter_eq_self.mpr fun e he => decide_eq_true (h e he)]

def capital : Python where
  title s := if s = "nightly backup" then "Nightly Backup" else s
  repr _ := "[]"

def setup : Setup ℚ where
  py := capital
  cwd := ⟨["app"], by decide⟩
  evolved_dir := ⟨["app", "data", "knowledge", "evolved"], by decide⟩
  min_score := 15

/-- A call without a hit. -/
def call (limit : ℤ) : Call ℚ where
  limit := limit
  search _ := []
  writing _ := .whole

def nightly (letter : String) (created_at : ℤ) : LedgerEntry where
  id := "nightly-" ++ letter
  action := "nightly_backup"
  status := .completed
  checkpoint := [("steps", .list [.str "dump", .str "upload"])]
  created_at
  updated_at := created_at + 5
  accio_ref := none
  metadata := [("target", .str "db")]
  last_error := none

lemma runbook_nightly (letter : String) (created_at : ℤ) :
    ∃ text, runbook capital (nightly letter created_at) = some (.ok text) :=
  exists_runbook rfl rfl rfl rfl

lemma processEntry_call {e : LedgerEntry} {text : Word} (limit : ℤ) (h : runbook capital e = some (.ok text))
    (files : Files) : processEntry setup (call limit) e files =
      (Function.update files (runbookPath setup e) (some (.text text)), some true) := by
  have htarget : targetHit setup (call limit) e = none := rfl
  rw [processEntry, htarget]
  simp only [createNewRunbook]
  rw [show runbook setup.py e = some (.ok text) from h]
  rfl

lemma step_complete (ledger : Table) (e : LedgerEntry) (hcompleted : e.status = .completed)
    (hstorable : e.Storable) (hid : ledger.find? e.id = none) (files : Files) :
    ∃ ledger', step setup ⟨ledger, files⟩ (.complete e) = some ⟨ledger', files⟩ ∧
      ledger'.rows = ledger.rows ++ [e] := by
  have hentry : { e.toPy with status := .completed } = e.toPy := by rw [← hcompleted]; rfl
  obtain ⟨ledger', happend, hinsert⟩ := Table.append_free hid hstorable
  refine ⟨ledger', ?_, Table.insert_rows hinsert⟩
  rw [step, hentry, happend]

/-- Every completed entry is processed, in its order, and its runbook written. -/
lemma evolveStep_call (ledger : Table) (hcompleted : ∀ e ∈ ledger.rows, e.status = .completed)
    (hsorted : ledger.rows.Pairwise fun x y => y.key ≤ x.key) (hlength : ledger.rows.length ≤ 50)
    (hmeaningful : ∀ e ∈ ledger.rows.map Table.rowToEntry, isMeaningful setup e = some true) (files : Files) :
    evolveStep setup (call 50) files ledger =
      processEntries setup (call 50) (ledger.rows.map Table.rowToEntry) 0 files := by
  rw [evolveStep, listEntries_eq hcompleted hsorted (by omega), meaningfulEntries_eq hmeaningful]
  simp only
  rw [upTo, call, if_pos (by decide), List.take_of_length_le (by simpa using hlength)]

lemma processEntries_call {e : LedgerEntry} {text : Word} (h : runbook capital e = some (.ok text))
    (entries : List LedgerEntry) (n : ℕ) (files : Files) : processEntries setup (call 50) (e :: entries) n files =
      processEntries setup (call 50) entries (n + 1)
        (Function.update files (runbookPath setup e) (some (.text text))) := by
  rw [processEntries, processEntry_call 50 h]

lemma step_evolve {ledger : Table} {files files' : Files} {n : ℕ}
    (h : evolveStep setup (call 50) files ledger = (files', some n)) :
    step setup ⟨ledger, files⟩ (.evolve (call 50)) = some ⟨ledger, files'⟩ := by rw [step, h]

/-- The older entry is completed later, and the runbook of the younger one is replaced by its own. -/
theorem same_prefix_overwrites :
    ¬ ∀ (s : Setup ℚ) (st : State) (events : List (Event ℚ)), NeverLoses s st events := by
  intro h
  obtain ⟨text, htext⟩ := runbook_nightly "Z" 2
  obtain ⟨text', htext'⟩ := runbook_nightly "Y" 1
  have hname : filename (nightly "Y" 1) = filename (nightly "Z" 2) := by decide +kernel
  have hpath : runbookPath setup (nightly "Y" 1) = runbookPath setup (nightly "Z" 2) := by
    rw [runbookPath, hname, runbookPath]
  have hbelow : AbsPath.Below setup.evolved_dir (runbookPath setup (nightly "Z" 2)) := by decide +kernel
  -- The younger entry alone.
  obtain ⟨first, hfirst, hrows⟩ := step_complete Table.empty (nightly "Z" 2) rfl ⟨rfl, rfl, rfl⟩ rfl
    fun _ => none
  have hevolve := evolveStep_call first (by rw [hrows]; decide) (by rw [hrows]; exact List.pairwise_singleton _ _)
    (by rw [hrows]; decide) (by rw [hrows]; decide) fun _ => none
  have hlist : (Table.empty.rows ++ [nightly "Z" 2]).map Table.rowToEntry = [nightly "Z" 2] := rfl
  rw [hrows, hlist, processEntries_call htext, processEntries] at hevolve
  generalize hfiles : Function.update (fun _ => none) (runbookPath setup (nightly "Z" 2)) (some (File.text text)) = files at hevolve
  -- Both entries, the younger one first.
  obtain ⟨second, hsecond, hrows'⟩ := step_complete first (nightly "Y" 1) rfl ⟨rfl, rfl, rfl⟩
    (by rw [Table.find?, hrows]; decide) files
  have hevolve' := evolveStep_call second (by rw [hrows', hrows]; decide) (by rw [hrows', hrows]; decide)
    (by rw [hrows', hrows]; decide) (by rw [hrows', hrows]; decide) files
  have hlist' : (Table.empty.rows ++ [nightly "Z" 2] ++ [nightly "Y" 1]).map Table.rowToEntry =
      [nightly "Z" 2, nightly "Y" 1] := rfl
  rw [hrows', hrows, hlist', processEntries_call htext, processEntries_call htext', processEntries, hpath,
    Function.update_idem, ← hfiles, Function.update_idem, hfiles] at hevolve'
  have hrecorded : Recorded setup (nightly "Z" 2) files := by
    rw [← hfiles]
    exact ⟨_, hbelow, text, Function.update_self .., caseLine_runbook htext⟩
  obtain ⟨path, -, read, hread, line, hline, hin⟩ := h setup ⟨Table.empty, fun _ => none⟩
    [.complete (nightly "Z" 2), .evolve (call 50), .complete (nightly "Y" 1), .evolve (call 50)]
    [.complete (nightly "Z" 2), .evolve (call 50)] [.complete (nightly "Y" 1), .evolve (call 50)] [] rfl _ _
    (run_cons.mpr ⟨_, hfirst, run_cons.mpr ⟨_, step_evolve hevolve, rfl⟩⟩)
    (run_cons.mpr ⟨_, hsecond, run_cons.mpr ⟨_, step_evolve hevolve', rfl⟩⟩)
    (nightly "Z" 2) (by rw [hrows]; exact List.mem_append_right _ List.mem_cons_self) hrecorded
  dsimp only at hread
  by_cases hwhere : path = runbookPath setup (nightly "Z" 2)
  · rw [hwhere, Function.update_self, Option.some.injEq] at hread
    have hletter : (caseLines capital (nightly "Z" 2)).all ('Z' ∈ ·) = true := by decide +kernel
    have hother : ((runbook capital (nightly "Y" 1)).bind Except.toOption).all ('Z' ∉ newlines ·) = true := by
      decide +kernel
    rw [htext', File.text.inj hread, Option.bind_some, Except.toOption, Option.all_some, decide_eq_true_eq] at hother
    exact hother (hin.subset (of_decide_eq_true (List.all_eq_true.mp hletter line hline)))
  · rw [Function.update_of_ne hwhere] at hread
    cases hread

/-- The first call of a ledger of one entry has no file to replace. -/
theorem first_call_keeps :
    NeverLoses setup ⟨⟨[nightly "Z" 2], by decide⟩, fun _ => none⟩ [.evolve (call 50)] := by
  refine neverLoses ⟨?_, fun _ _ => trivial⟩
  intro entries hentries
  have hlisted : listEntries ⟨[nightly "Z" 2], by decide⟩ = [nightly "Z" 2] :=
    listEntries_eq (by decide) (List.pairwise_singleton _ _) (by decide)
  rw [hlisted, meaningfulEntries_eq (by decide), Option.some.injEq] at hentries
  rw [← hentries]
  refine ⟨?_, fun _ => trivial⟩
  rintro - - - x - - ⟨-, text, hfile, -⟩
  cases hfile

end Nightly

end OpsSentry.Knowledge.Evolution
