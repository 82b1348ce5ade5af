import OpsSentry.Knowledge.RunbookCases

/-! Calls of `evolve_step` over a ledger that does not change. -/

namespace OpsSentry.Knowledge.Evolution

open Foundation.Markup Foundation.Strings Foundation.Values Ledger
open Foundation.Lines (newlines count_newlines)
open Foundation.PosixPath (AbsPath)

variable {K : Type} [LinearOrder K] (s : Setup K) (ledger : Table) (limit : ℤ) (calls : ℕ → Call K)
  (files : Files)

/-- The completed entries whose checkpoint has more than one step. -/
def meaningfulRows : List LedgerEntry :=
  ledger.rows.filter fun e => e.status = .completed ∧ isMeaningful s e = some true

def evolveAt (k : ℕ) (files : Files) : Outcome ℕ := evolveStep s { calls k with limit } files ledger

def filesAt : ℕ → Files
  | 0 => files
  | k + 1 => (evolveAt s ledger limit calls k (filesAt k)).1

/-- After at most as many calls as there are such entries, each is recorded, and from then on nothing
is done. -/
def Settles : Prop :=
  ∃ m ≤ (meaningfulRows s ledger).length,
    (∀ x ∈ meaningfulRows s ledger, Recorded s x (filesAt s ledger limit calls files m)) ∧
    ∀ k ≥ m, evolveAt s ledger limit calls k (filesAt s ledger limit calls files m) =
      (filesAt s ledger limit calls files m, some 0)

/-- The entry is recorded, or it will be: in a new runbook of `evolved_dir`, or in one that the first
hit found there names. Nothing is raised. -/
def Registers (call : Call K) (e : LedgerEntry) (files : Files) : Prop :=
  match targetHit s call e with
  | none => (∃ text, runbook s.py e = some text ∧ Writes call e text) ∧
      (Recorded s e files ∨ AbsPath.Below s.evolved_dir (runbookPath s e))
  | some hit => (∀ file, files (hitPath s hit) = some file → ∃ content, file = .text content ∧
        (¬ e.id.toList <:+: newlines content → Writes call e (newCase s.py e))) ∧
      (Recorded s e files ∨ AbsPath.Below s.evolved_dir (hitPath s hit) ∧
        ∃ content, files (hitPath s hit) = some (.text content) ∧ ¬ e.id.toList <:+: newlines content)

def RegistersAll (call : Call K) (rows : List LedgerEntry) : List LedgerEntry → Files → Prop
  | [], _ => True
  | e :: entries, files => Careful s call rows e files ∧ Registers s call e files ∧
      RegistersAll call rows entries (processEntry s call e files).1

/-- The first hit found names a file that is not there, or that holds the id of the entry. -/
def Quiet (call : Call K) (e : LedgerEntry) (files : Files) : Prop :=
  ∃ hit, targetHit s call e = some hit ∧
    ∀ file, files (hitPath s hit) = some file → ∃ content, file = .text content ∧ e.id.toList <:+: newlines content

/-- The limits leave no entry out that is not recorded already; the first call records all others with
care; a later one finds for each entry the runbook that holds it. -/
def Covers : Prop :=
  ∃ entries, meaningfulEntries s (listEntries ledger) = some entries ∧
    (∀ x ∈ meaningfulRows s ledger, Recorded s x files ∨ Table.rowToEntry x ∈ upTo limit entries) ∧
    RegistersAll s { calls 0 with limit } (meaningfulRows s ledger) (upTo limit entries) files ∧
    ∀ k ≥ 1, ∀ e ∈ upTo limit entries, Quiet s { calls k with limit } e (filesAt s ledger limit calls files k)

variable {s ledger limit calls files}

lemma processEntry_quiet {call : Call K} {e : LedgerEntry} (h : Quiet s call e files) :
    processEntry s call e files = (files, some false) := by
  obtain ⟨hit, htarget, hid⟩ := h
  rw [processEntry, htarget]
  simp only [mergeIntoRunbook]
  cases hfile : files (hitPath s hit) with
  | none => rfl
  | some file =>
    obtain ⟨content, rfl, hid⟩ := hid file hfile
    simp only
    rw [merged, if_pos hid]

lemma processEntries_quiet {call : Call K} {entries : List LedgerEntry}
    (h : ∀ e ∈ entries, Quiet s call e files) (n : ℕ) :
    processEntries s call entries n files = (files, some n) := by
  induction entries with
  | nil => rfl
  | cons e entries ih =>
    rw [processEntries, processEntry_quiet (h e List.mem_cons_self)]
    exact ih fun e he => h e (List.mem_cons_of_mem _ he)

omit [LinearOrder K] in
lemma Recorded.congr {x e : LedgerEntry} (hsame : caseLines s.py x = caseLines s.py e)
    (h : Recorded s e files) :
    Recorded s x files := by
  obtain ⟨path, hbelow, text, htext, hline⟩ := h
  exact ⟨path, hbelow, text, htext, hsame ▸ hline⟩

omit [LinearOrder K] in
lemma writeText_writes {call : Call K} {e : LedgerEntry} {text : Except Lone Word} (h : Writes call e text)
    (files : Files) (path : AbsPath) : ∃ written, text = .ok written ∧
      writeText call e files path text = (Function.update files path (some (.text written)), some true) := by
  obtain ⟨hwhole, written, rfl⟩ := h
  exact ⟨written, rfl, by simp only [writeText, hwhole]⟩

lemma processEntry_registers {call : Call K} {e : LedgerEntry} {rows : List LedgerEntry}
    (hcare : Careful s call rows e files)
    (h : Registers s call e files) {x : LedgerEntry} (hx : x ∈ rows) (hsame : caseLines s.py x = caseLines s.py e) :
    (processEntry s call e files).2.isSome ∧ Recorded s x (processEntry s call e files).1 := by
  have hkept : Recorded s e files → _ := fun h => processEntry_keeps hcare hx (fun _ => hsame) (h.congr hsame)
  rw [processEntry] at hkept ⊢
  rw [Registers] at h
  cases htarget : targetHit s call e with
  | none =>
    simp only [htarget] at h hkept ⊢
    obtain ⟨⟨text, htext, hwrites⟩, hrecorded⟩ := h
    obtain ⟨written, rfl, hwrite⟩ := writeText_writes hwrites files (runbookPath s e)
    rw [createNewRunbook, htext] at hkept ⊢
    simp only [hwrite] at hkept ⊢
    refine ⟨rfl, hrecorded.elim hkept fun hbelow => ?_⟩
    exact ⟨_, hbelow, written, Function.update_self .., hsame ▸ caseLine_runbook htext⟩
  | some hit =>
    simp only [htarget] at h hkept ⊢
    obtain ⟨hreads, hrecorded⟩ := h
    rw [mergeIntoRunbook] at hkept ⊢
    cases hfile : files (hitPath s hit) with
    | none =>
      simp only [hfile] at hkept hrecorded ⊢
      refine ⟨rfl, hrecorded.elim hkept fun hnew => ?_⟩
      obtain ⟨-, content, hnone, -⟩ := hnew
      cases hnone
    | some file =>
      obtain ⟨content, rfl, hwrites⟩ := hreads file hfile
      simp only [hfile] at hkept hrecorded ⊢
      cases hmerged : merged s.py e (newlines content) with
      | none =>
        simp only [hmerged] at hkept ⊢
        refine ⟨rfl, hrecorded.elim hkept fun hnew => ?_⟩
        obtain ⟨-, content', hcontent', hid⟩ := hnew
        cases hcontent'
        rw [merged, if_neg hid] at hmerged
        cases hmerged
      | some text =>
        have hid : ¬ e.id.toList <:+: newlines content := by
          intro hid
          rw [merged, if_pos hid] at hmerged
          cases hmerged
        obtain ⟨written, rfl, hwrite⟩ :=
          writeText_writes ((writes_merged hmerged).mpr (hwrites hid)) files (hitPath s hit)
        simp only [hmerged, hwrite] at hkept ⊢
        refine ⟨rfl, hrecorded.elim hkept fun hnew => ?_⟩
        exact ⟨_, hnew.1, written, Function.update_self .., hsame ▸ caseLine_newCase hmerged⟩

lemma processEntries_registers {call : Call K} {rows entries : List LedgerEntry}
    (h : RegistersAll s call rows entries files)
    (hrow : ∀ e ∈ entries, ∃ x ∈ rows, caseLines s.py x = caseLines s.py e)
    (hsame : ∀ x ∈ rows, ∀ e ∈ entries, x.id = e.id → caseLines s.py x = caseLines s.py e) (n : ℕ) {x : LedgerEntry}
    (hx : x ∈ rows) (hrecorded : Recorded s x files ∨ ∃ e ∈ entries, caseLines s.py x = caseLines s.py e) :
    Recorded s x (processEntries s call entries n files).1 := by
  induction entries generalizing n files with
  | nil =>
    rcases hrecorded with hrecorded | ⟨e, he, -⟩
    · exact hrecorded
    · cases he
  | cons e entries ih =>
    obtain ⟨hcare, hregisters, hrest⟩ := h
    obtain ⟨y, hy, hcase⟩ := hrow e List.mem_cons_self
    have hsome := (processEntry_registers hcare hregisters hy hcase).1
    have hnext : Recorded s x (processEntry s call e files).1 ∨ ∃ e ∈ entries, caseLines s.py x = caseLines s.py e := by
      rcases hrecorded with hrecorded | ⟨e', he', hcase'⟩
      · exact Or.inl (processEntry_keeps hcare hx (hsame x hx e List.mem_cons_self) hrecorded)
      · rcases List.mem_cons.mp he' with rfl | he'
        · exact Or.inl (processEntry_registers hcare hregisters hx hcase').2
        · exact Or.inr ⟨e', he', hcase'⟩
    have htail := fun n => ih hrest (fun e he => hrow e (List.mem_cons_of_mem _ he))
      (fun x hx e he => hsame x hx e (List.mem_cons_of_mem _ he)) n hnext
    rw [processEntries]
    rcases hprocess : processEntry s call e files with ⟨files', _ | b⟩
    · rw [hprocess] at hsome
      cases hsome
    · rw [hprocess] at htail
      cases b <;> exact htail _

lemma mem_upTo {entries : List LedgerEntry} {e : LedgerEntry} (h : e ∈ upTo limit entries) :
    e ∈ entries := by
  rw [upTo] at h
  split at h <;> exact List.mem_of_mem_take h

omit [LinearOrder K] in
lemma exists_row {entries : List LedgerEntry}
    (hentries : meaningfulEntries s (listEntries ledger) = some entries)
    {e : LedgerEntry} (he : e ∈ upTo limit entries) : ∃ x ∈ meaningfulRows s ledger, Table.rowToEntry x = e := by
  have hmem := mem_upTo he
  rw [meaningfulEntries] at hentries
  split at hentries
  · rw [← Option.some.inj hentries, List.mem_filter, listEntries, List.mem_map] at hmem
    obtain ⟨⟨row, hrow, rfl⟩, hmeaningful⟩ := hmem
    have hrow' := List.mem_mergeSort.mp (List.mem_of_mem_take hrow)
    rw [List.mem_filter] at hrow'
    refine ⟨row, List.mem_filter.mpr ⟨hrow'.1, ?_⟩, rfl⟩
    rw [decide_eq_true_eq] at hmeaningful hrow' ⊢
    exact ⟨hrow'.2, hmeaningful⟩
  · cases hentries

/-- One call records what the limits let through, and nothing is left to do for the next. -/
theorem settles_of_covers (h : Covers s ledger limit calls files) : Settles s ledger limit calls files := by
  obtain ⟨entries, hentries, hcover, hregisters, hquiet⟩ := h
  have hevolve : ∀ k files, evolveAt s ledger limit calls k files =
      processEntries s { calls k with limit } (upTo limit entries) 0 files := by
    intro k files
    rw [evolveAt, evolveStep, hentries]
  have hrow : ∀ e ∈ upTo limit entries, ∃ x ∈ meaningfulRows s ledger, Table.rowToEntry x = e :=
    fun e he => exists_row hentries he
  have hsame : ∀ x ∈ meaningfulRows s ledger, ∀ e ∈ upTo limit entries, x.id = e.id →
      caseLines s.py x = caseLines s.py e :=
    fun x hx e he hid => caseLines_processed hentries (List.mem_of_mem_filter hx) he hid
  by_cases hnone : meaningfulRows s ledger = []
  · have hupTo : upTo limit entries = [] := by
      rw [List.eq_nil_iff_forall_not_mem]
      intro e he
      obtain ⟨x, hx, -⟩ := hrow e he
      rw [hnone] at hx
      cases hx
    refine ⟨0, Nat.zero_le _, by simp [hnone], fun k _ => ?_⟩
    rw [hevolve, hupTo, processEntries]
  have hlater : ∀ k ≥ 1, evolveAt s ledger limit calls k (filesAt s ledger limit calls files k) =
      (filesAt s ledger limit calls files k, some 0) := by
    intro k hk
    rw [hevolve]
    exact processEntries_quiet (hquiet k hk) 0
  have hfiles : ∀ k ≥ 1, filesAt s ledger limit calls files k = filesAt s ledger limit calls files 1 := by
    intro k hk
    induction k, hk using Nat.le_induction with
    | base => rfl
    | succ k hk ih =>
      rw [filesAt, hlater k hk]
      exact ih
  refine ⟨1, List.length_pos_of_ne_nil hnone, fun x hx => ?_, fun k hk => ?_⟩
  · rw [filesAt, filesAt, hevolve]
    refine processEntries_registers hregisters (fun e he => ?_) hsame 0 hx ((hcover x hx).imp_right fun he => ?_)
    · obtain ⟨x, hx, rfl⟩ := hrow e he
      exact ⟨x, hx, (caseLines_rowToEntry _ _).symm⟩
    · exact ⟨_, he, (caseLines_rowToEntry _ _).symm⟩
  · rw [← hfiles k hk]
    exact hlater k hk

section Nightly

lemma filesAt_single {e : LedgerEntry}
    (hevolve : ∀ k files, evolveAt s ledger limit calls k files = processEntries s { calls k with limit } [e] 0 files)
    (k : ℕ) : filesAt s ledger limit calls files (k + 1) =
      (processEntry s { calls k with limit } e (filesAt s ledger limit calls files k)).1 := by
  rw [filesAt, hevolve, processEntries]
  rcases processEntry s { calls k with limit } e (filesAt s ledger limit calls files k) with ⟨files, _ | _ | _⟩ <;> rfl

def Lacks (c : Char) (files : Files) : Prop := ∀ path content, files path = some (.text content) → content.count c = 0

omit [LinearOrder K] in
lemma lacks_writeText {call : Call K} {e : LedgerEntry} {c : Char} {text : Except Lone Word} {path : AbsPath}
    (hopened : call.writing e.id ≠ .refused) (htext : ∀ written, text = .ok written → written.count c = 0)
    (h : Lacks c files) : Lacks c (writeText call e files path text).1 := by
  have hupdate : ∀ file, (∀ content, file = .text content → content.count c = 0) →
      Lacks c (Function.update files path (some file)) := by
    intro file hfile path' content hread
    by_cases hwhere : path' = path
    · rw [hwhere, Function.update_self, Option.some.injEq] at hread
      exact hfile content hread
    · rw [Function.update_of_ne hwhere] at hread
      exact h path' content hread
  rcases writeText_cases hopened path text with ⟨-, written, hok, hwrite⟩ | ⟨-, left, hleft, hwrite⟩
  · rw [hwrite]
    apply hupdate
    intro content hcontent
    rw [← File.text.inj hcontent, htext written hok]
  · rw [hwrite]
    apply hupdate
    intro content hcontent
    rcases hleft content hcontent with rfl | ⟨written, hok, hprefix⟩
    · exact List.count_nil
    · have hle := hprefix.sublist.count_le c
      rw [htext written hok] at hle
      exact Nat.le_zero.mp hle

/-- A character gets into the files from the runbook or the case of the entry only. -/
lemma lacks_processEntry {call : Call K} {e : LedgerEntry} {c : Char}
    (hrunbook : ∀ text, runbook s.py e = some (.ok text) → text.count c = 0)
    (hcase : ∀ new_case, newCase s.py e = .ok new_case → new_case.count c = 0) (hline : c ≠ '\n' ∧ c ≠ '\r')
    (hheading : HEADING.count c = 0 ∧ "\n## Case Studies\n".toList.count c = 0) (h : Lacks c files) :
    Lacks c (processEntry s call e files).1 := by
  rcases processEntry_cases s call e files with ⟨hfiles, -⟩ | ⟨-, hopened, text, htext, hstep⟩ |
    ⟨hit, content, text, -, hopened, hcontent, htext, hstep⟩
  · rw [hfiles]
    exact h
  · rw [hstep]
    apply lacks_writeText hopened _ h
    rintro written rfl
    exact hrunbook written htext
  · rw [hstep]
    apply lacks_writeText hopened _ h
    rintro written rfl
    obtain ⟨new_case, hnew, hwritten⟩ := merged_eq htext
    have hread : (newlines content).count c = 0 := by
      rw [count_newlines hline.1 hline.2]
      exact h _ content hcontent
    have hnew := hcase new_case hnew
    rcases hwritten with ⟨-, rfl⟩ | ⟨-, rfl⟩
    · apply count_replace_eq_zero (by decide) _ hread
      rw [List.count_append]
      omega
    · simp only [List.count_append]
      omega

lemma lacks_filesAt {e : LedgerEntry} {c : Char}
    (hevolve : ∀ k files, evolveAt s ledger limit calls k files = processEntries s { calls k with limit } [e] 0 files)
    (hrunbook : ∀ text, runbook s.py e = some (.ok text) → text.count c = 0)
    (hcase : ∀ new_case, newCase s.py e = .ok new_case → new_case.count c = 0) (hline : c ≠ '\n' ∧ c ≠ '\r')
    (hheading : HEADING.count c = 0 ∧ "\n## Case Studies\n".toList.count c = 0) (h : Lacks c files) (k : ℕ) :
    Lacks c (filesAt s ledger limit calls files k) := by
  induction k with
  | zero => exact h
  | succ k ih =>
    rw [filesAt_single hevolve]
    exact lacks_processEntry hrunbook hcase hline hheading ih

/-- The slice takes the younger of two entries each time. -/
theorem older_never_recorded : ¬ ∃ calls : ℕ → Call ℚ,
    Settles setup ⟨[nightly "Z" 2, nightly "Y" 1], by decide⟩ 1 calls (fun _ => none) := by
  rintro ⟨calls, m, -, hrecorded, -⟩
  have hlisted : listEntries ⟨[nightly "Z" 2, nightly "Y" 1], by decide⟩ = [nightly "Z" 2, nightly "Y" 1] :=
    listEntries_eq (by decide) (by decide) (by decide)
  have hmeaningful : ∀ e ∈ [nightly "Z" 2, nightly "Y" 1], isMeaningful setup e = some true := by decide
  have hevolve : ∀ k files, evolveAt setup ⟨[nightly "Z" 2, nightly "Y" 1], by decide⟩ 1 calls k files =
      processEntries setup { calls k with limit := 1 } [nightly "Z" 2] 0 files := by
    intro k files
    rw [evolveAt, evolveStep, hlisted, meaningfulEntries_eq hmeaningful]
    rfl
  have hrunbook : ∀ text, runbook capital (nightly "Z" 2) = some (.ok text) → text.count 'Y' = 0 := by
    have hall : ((runbook capital (nightly "Z" 2)).bind Except.toOption).all (·.count 'Y' = 0) = true := by
      decide +kernel
    intro text htext
    rw [htext, Option.bind_some, Except.toOption, Option.all_some] at hall
    exact of_decide_eq_true hall
  have hcase : ∀ new_case, newCase capital (nightly "Z" 2) = .ok new_case → new_case.count 'Y' = 0 := by
    have hall : (newCase capital (nightly "Z" 2)).toOption.all (·.count 'Y' = 0) = true := by decide +kernel
    intro new_case hnew
    rw [hnew, Except.toOption, Option.all_some] at hall
    exact of_decide_eq_true hall
  have hnone : Lacks 'Y' fun _ => none := by
    intro path content hread
    cases hread
  have hletter : (caseLines capital (nightly "Y" 1)).all ('Y' ∈ ·) = true := by decide +kernel
  have hlacks := lacks_filesAt hevolve hrunbook hcase (by decide) (by decide) hnone m
  obtain ⟨path, -, read, hread, line, hline, hin⟩ := hrecorded (nightly "Y" 1)
    (List.mem_filter.mpr ⟨by simp, by decide⟩)
  have hmem := hin.subset (of_decide_eq_true (List.all_eq_true.mp hletter line hline))
  have hcount := hlacks path read hread
  rw [← count_newlines (by decide) (by decide), List.count_eq_zero] at hcount
  exact hcount hmem

def found : SearchHit ℚ where
  chunk :=
    { chunk_id := "/app/data/knowledge/evolved/nightly_backup_nightly-.md#0"
      source_path := "/app/data/knowledge/evolved/nightly_backup_nightly-.md"
      heading := "Runbook: Nightly Backup"
      level := 2
      body := "Automated runbook generated from successful execution of nightly_backup."
      priority_score := 1 / 2 }
  score := 16
  terms := ["nightly_backup"]

/-- The first call finds nothing, each later one the section of the runbook. -/
def answers (k : ℕ) : Call ℚ where
  limit := 50
  search _ := if k = 0 then [] else [found]
  writing _ := .whole

lemma nightly_id {text : Word} (h : runbook capital (nightly "Z" 2) = some (.ok text)) :
    (nightly "Z" 2).id.toList <:+: newlines text := by
  obtain ⟨line, hline, hin⟩ := caseLine_runbook h
  have hid : (caseLines capital (nightly "Z" 2)).all ((nightly "Z" 2).id.toList <:+: ·) = true := by decide +kernel
  exact (of_decide_eq_true (List.all_eq_true.mp hid line hline)).trans hin

lemma targetHit_answers {k : ℕ} (hk : k ≥ 1) :
    targetHit setup { answers k with limit := 50 } (nightly "Z" 2) = some found := by
  have hmatch : (actionTitle capital (nightly "Z" 2)).toList <:+: found.chunk.heading.toList ∧ (15 : ℚ) < found.score := by
    decide +kernel
  rw [targetHit]
  simp only [answers, if_neg (Nat.one_le_iff_ne_zero.mp hk)]
  exact List.find?_cons_of_pos (decide_eq_true hmatch)

/-- One file, with the id. -/
lemma quiet_answers {k : ℕ} (hk : k ≥ 1) {text : Word} (h : runbook capital (nightly "Z" 2) = some (.ok text))
    (path : AbsPath) : Quiet setup { answers k with limit := 50 } (nightly "Z" 2)
      (Function.update (fun _ => none) path (some (.text text))) := by
  refine ⟨found, targetHit_answers hk, fun file hfile => ?_⟩
  by_cases hwhere : hitPath setup found = path
  · rw [hwhere, Function.update_self] at hfile
    exact ⟨text, (Option.some.inj hfile).symm, nightly_id h⟩
  · rw [Function.update_of_ne hwhere] at hfile
    cases hfile

theorem one_entry_settles : Settles setup ⟨[nightly "Z" 2], by decide⟩ 50 answers (fun _ => none) := by
  obtain ⟨text, htext⟩ := runbook_nightly "Z" 2
  have hlisted : listEntries ⟨[nightly "Z" 2], by decide⟩ = [nightly "Z" 2] :=
    listEntries_eq (by decide) (List.pairwise_singleton _ _) (by decide)
  have hentries : meaningfulEntries setup [nightly "Z" 2] = some [nightly "Z" 2] := meaningfulEntries_eq (by decide)
  have hevolve : ∀ k files, evolveAt setup ⟨[nightly "Z" 2], by decide⟩ 50 answers k files =
      processEntries setup { answers k with limit := 50 } [nightly "Z" 2] 0 files := by
    intro k files
    rw [evolveAt, evolveStep, hlisted, hentries]
    rfl
  have hfiles : ∀ k ≥ 1, filesAt setup ⟨[nightly "Z" 2], by decide⟩ 50 answers (fun _ => none) k =
      Function.update (fun _ => none) (runbookPath setup (nightly "Z" 2)) (some (.text text)) := by
    intro k hk
    induction k, hk using Nat.le_induction with
    | base =>
      have hprocess := processEntry_call 50 htext fun _ => none
      rw [filesAt_single hevolve]
      exact congrArg Prod.fst hprocess
    | succ k hk ih => rw [filesAt_single hevolve, ih, processEntry_quiet (quiet_answers hk htext _)]
  refine settles_of_covers ⟨[nightly "Z" 2], by rw [hlisted, hentries], fun x hx => Or.inr ?_, ⟨?_, ?_, trivial⟩, fun k hk e he => ?_⟩
  · rw [List.mem_singleton.mp (List.mem_of_mem_filter hx)]
    exact List.mem_singleton_self _
  · rintro - - - x - - ⟨-, text, hfile, -⟩
    cases hfile
  · exact ⟨⟨_, htext, rfl, text, rfl⟩, Or.inr (by decide +kernel)⟩
  · rw [List.mem_singleton.mp he, hfiles k hk]
    exact quiet_answers hk htext _

end Nightly

end OpsSentry.Knowledge.Evolution
