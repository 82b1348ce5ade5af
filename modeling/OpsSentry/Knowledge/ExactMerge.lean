import OpsSentry.Knowledge.EvolutionRounds

/-! What `_merge_into_runbook` does to one file: when it adds the case of an entry under the heading
of the cases and nothing else. -/

namespace OpsSentry.Knowledge.Evolution

open Foundation.Markup Foundation.Strings Ledger
open Foundation.PosixPath (AbsPath)
open Foundation.Lines (newlines newlines_self count_newlines count_return_newlines)

section Statement

variable {K : Type} (s : Setup K) (call : Call K) (e : LedgerEntry) (files : Files) (hit : SearchHit K)

def AtLineStart (pre : Word) : Prop := pre = [] ∨ ['\n'] <:+ pre

/-- Blanks, to the end of the line. -/
def EndsLine (post : Word) : Prop := ∃ blanks rest, post = blanks ++ rest ∧ (∀ c ∈ blanks, c = ' ' ∨ c = '\t') ∧
  (rest = [] ∨ ['\n'] <+: rest)

/-- A case line of the entry is in the text. -/
def HasCase (content : Word) : Prop := ∃ pre post, content = pre ++ (caseStart e ++ post) ∧ AtLineStart pre

/-- The text between the two begins below a heading of the cases. -/
def UnderHeading (pre post : Word) : Prop := (∃ start, pre = start ++ HEADING ∧ AtLineStart start) ∧ EndsLine post

/-- One case line is inserted below the heading, or a section with it is appended where there is no heading. -/
def Inserted (new_case content updated : Word) : Prop :=
  (∃ pre post, content = pre ++ post ∧ UnderHeading pre post ∧ updated = pre ++ new_case ++ post) ∨
  (¬ ∃ pre post, content = pre ++ post ∧ UnderHeading pre post) ∧
    updated = content ++ "\n## Case Studies\n".toList ++ new_case

def File.HasCase (file : File) : Prop := ∃ content, file = .text content ∧ Evolution.HasCase e (newlines content)

structure MergesExactly (file : File) : Prop where
  present : file.HasCase e → mergeIntoRunbook s call e files hit = (files, some false)
  absent : ¬ file.HasCase e → ∃ content new_case updated, file = .text content ∧ newCase s.py e = .ok new_case ∧
    Inserted new_case content updated ∧
    mergeIntoRunbook s call e files hit = (Function.update files (hitPath s hit) (some (.text updated)), some true)

/-- The words of the heading occur once, as the heading. -/
def OneHeading (content : Word) : Prop := ∃ start post, content = start ++ (HEADING ++ post) ∧ AtLineStart start ∧
  EndsLine post ∧ ¬ HEADING <:+: start ∧ ¬ HEADING <:+: post

/-- The file can be written, holds no carriage return, and the words of the heading at most once. -/
def Mergeable (content : Word) : Prop :=
  Writes call e (newCase s.py e) ∧ '\r' ∉ content ∧ (HEADING <:+: content → OneHeading content)

end Statement

section Texts

variable {e : LedgerEntry} {content updated new_case : Word} {c : Char}

lemma caseStart_contains_id (e : LedgerEntry) : e.id.toList <:+: caseStart e := by
  rw [caseStart_eq, ← List.cons_append, ← List.cons_append]
  exact ⟨_, _, rfl⟩

lemma HasCase.contains_id (h : HasCase e content) : e.id.toList <:+: content := by
  obtain ⟨pre, post, rfl, -⟩ := h
  exact (caseStart_contains_id e).trans ⟨pre, post, List.append_assoc _ _ _⟩

lemma star_mem_newCase {py : Python} (h : newCase py e = .ok new_case) : 0 < new_case.count '*' := by
  obtain ⟨summary, -, rfl⟩ := newCase_eq h
  rw [List.count_pos_iff]
  simp

lemma heading_unbordered : Unbordered HEADING := by decide

lemma heading_ne_nil : HEADING ≠ [] := by decide

lemma UnderHeading.contains_heading {pre post : Word} (h : UnderHeading pre post) :
    HEADING <:+: pre ++ post := by
  obtain ⟨⟨start, rfl, -⟩, -⟩ := h
  exact ⟨start, post, rfl⟩

/-- What is inserted or appended is counted. -/
lemma Inserted.count_eq (h : Inserted new_case content updated) :
    updated.count c = content.count c + new_case.count c ∨
      updated.count c = content.count c + "\n## Case Studies\n".toList.count c + new_case.count c := by
  rcases h with ⟨pre, post, rfl, -, rfl⟩ | ⟨-, rfl⟩
  · left
    simp only [List.count_append]
    omega
  · right
    simp only [List.count_append]

lemma Inserted.count_star (h : Inserted new_case content updated) (hc : c = '*' ∨ c = '\r') :
    updated.count c = content.count c + new_case.count c := by
  have hsection : "\n## Case Studies\n".toList.count c = 0 := by
    rcases hc with rfl | rfl <;> decide
  have hcount := h.count_eq (c := c)
  omega

/-- Text that is read with no carriage return in it is what it was. -/
lemma notMem_return {nc : Word} (hcount : updated.count '\r' = content.count '\r' + nc.count '\r')
    (hupdated : updated.count '\r' = nc.count '\r') : '\r' ∉ content := by
  rw [← List.count_eq_zero]
  omega

lemma inserted_iff_of_heading (hstar : 0 < new_case.count '*') (h : HEADING <:+: newlines content) :
    Inserted new_case content (replace HEADING (HEADING ++ new_case) (newlines content)) ↔
      '\r' ∉ content ∧ OneHeading content := by
  constructor
  · intro hin
    obtain ⟨start, post, hsplit, hstart, hreplace⟩ := replace_first heading_ne_nil h (HEADING ++ new_case)
    have hpost : ¬ HEADING <:+: post := by
      intro hmore
      have hstars := hin.count_star (c := '*') (Or.inl rfl)
      have hmany := count_replace heading_ne_nil hmore new_case '*'
      have hread := count_newlines (c := '*') (by decide) (by decide) content
      rw [hsplit] at hread
      rw [hreplace] at hstars
      simp only [List.count_append] at hstars hread
      omega
    have hreturn : '\r' ∉ content := by
      refine notMem_return (hin.count_star (Or.inr rfl)) ?_
      have hread := count_return_newlines content
      rw [hsplit] at hread
      rw [hreplace, replace_absent hpost]
      simp only [List.count_append] at hread ⊢
      omega
    rw [newlines_self hreturn] at hsplit hin hreplace
    refine ⟨hreturn, start, post, hsplit, ?_⟩
    rcases hin with ⟨pre, post', hcontent, ⟨⟨start', rfl, hline⟩, hends⟩, -⟩ | ⟨-, happended⟩
    · rw [hsplit, List.append_assoc] at hcontent
      obtain ⟨rfl, rfl⟩ := heading_unbordered.unique hcontent hstart hpost
      exact ⟨hline, hends, hstart, hpost⟩
    · have hcount := congrArg (List.count 'C') happended
      have hsection : "\n## Case Studies\n".toList.count 'C' = 1 := by decide
      rw [hreplace, replace_absent hpost] at hcount
      have hread := congrArg (List.count 'C') hsplit
      simp only [List.count_append] at hcount hread
      omega
  · rintro ⟨hreturn, start, post, hcontent, hline, hends, hstart, hpost⟩
    rw [newlines_self hreturn]
    refine Or.inl ⟨start ++ HEADING, post, by rw [hcontent, List.append_assoc], ⟨⟨start, rfl, hline⟩, hends⟩, ?_⟩
    rw [hcontent, heading_unbordered.replace_once heading_ne_nil hstart hpost]
    simp only [List.append_assoc]

lemma inserted_iff_of_none (h : ¬ HEADING <:+: newlines content) :
    Inserted new_case content (newlines content ++ "\n## Case Studies\n".toList ++ new_case) ↔ '\r' ∉ content := by
  constructor
  · intro hin
    refine notMem_return (hin.count_star (Or.inr rfl)) ?_
    have hread := count_return_newlines content
    have hsection : "\n## Case Studies\n".toList.count '\r' = 0 := by decide
    simp only [List.count_append] at hread ⊢
    omega
  · intro hreturn
    rw [newlines_self hreturn] at h ⊢
    refine Or.inr ⟨?_, rfl⟩
    rintro ⟨pre, post, rfl, hunder⟩
    exact h hunder.contains_heading

lemma inserted_iff {py : Python} (hcase : newCase py e = .ok new_case)
    (hupdated : merged py e (newlines content) = some (.ok updated)) :
    Inserted new_case content updated ↔ '\r' ∉ content ∧ (HEADING <:+: content → OneHeading content) := by
  obtain ⟨new_case', hcase', hmerged⟩ := merged_eq hupdated
  obtain rfl := Except.ok.inj (hcase.symm.trans hcase')
  rcases hmerged with ⟨hheading, rfl⟩ | ⟨hheading, rfl⟩
  · rw [inserted_iff_of_heading (star_mem_newCase hcase) hheading]
    refine and_congr_right fun hreturn => ?_
    rw [newlines_self hreturn] at hheading
    exact ⟨fun hone _ => hone, fun hone => hone hheading⟩
  · rw [inserted_iff_of_none hheading]
    refine ⟨fun hreturn => ⟨hreturn, fun hin => ?_⟩, And.left⟩
    rw [newlines_self hreturn] at hheading
    exact absurd hin hheading

end Texts

section Merge

variable {K : Type} {s : Setup K} {call : Call K} {e : LedgerEntry} {files : Files} {hit : SearchHit K}
  {content : Word}

lemma mergeIntoRunbook_none (call : Call K) (hfile : files (hitPath s hit) = some (.text content))
    (hid : e.id.toList <:+: newlines content) : mergeIntoRunbook s call e files hit = (files, some false) := by
  have hmerged : merged s.py e (newlines content) = none := if_pos hid
  simp only [mergeIntoRunbook, hfile, hmerged]

lemma mergeIntoRunbook_some (call : Call K) {text : Except Lone Word} (hfile : files (hitPath s hit) = some (.text content))
    (hmerged : merged s.py e (newlines content) = some text) :
    mergeIntoRunbook s call e files hit = writeText call e files (hitPath s hit) text := by
  simp only [mergeIntoRunbook, hfile, hmerged]

lemma exists_merged (py : Python) (hid : ¬ e.id.toList <:+: content) : ∃ text, merged py e content = some text := by
  rw [merged, if_neg hid]
  exact ⟨_, rfl⟩

/-- A call that returns `True` has written the whole of a text. -/
lemma writeText_eq_true {path : AbsPath} {text : Except Lone Word} {updated : Word}
    (h : writeText call e files path text = (Function.update files path (some (.text updated)), some true)) :
    Writes call e text ∧ text = .ok updated := by
  have hopened : call.writing e.id ≠ .refused := by
    intro hrefused
    simp only [writeText, hrefused, Prod.mk.injEq] at h
    cases h.2
  rcases writeText_cases hopened path text with ⟨hwrites, written, rfl, hwrite⟩ | ⟨-, left, -, hwrite⟩
  · have hfile := congrFun (Prod.mk.inj (hwrite.symm.trans h)).1 path
    rw [Function.update_self, Function.update_self, Option.some.injEq, File.text.injEq] at hfile
    exact ⟨hwrites, hfile ▸ rfl⟩
  · cases (Prod.mk.inj (hwrite.symm.trans h)).2

/-- Without the id in the file, the call is exact if and only if the file can be merged into. -/
lemma mergesExactly_iff_mergeable (hfile : files (hitPath s hit) = some (.text content))
    (hid : ¬ e.id.toList <:+: newlines content) :
    MergesExactly s call e files hit (.text content) ↔ Mergeable s call e content := by
  have hnone : ¬ (File.text content).HasCase e := by
    rintro ⟨_, ⟨⟩, hcase⟩
    exact hid hcase.contains_id
  obtain ⟨text, hmerged⟩ := exists_merged s.py hid
  have heq := mergeIntoRunbook_some call hfile hmerged
  constructor
  · intro h
    obtain ⟨_, new_case, updated, ⟨⟩, hcase, hin, hmerge⟩ := h.absent hnone
    obtain ⟨hwrites, rfl⟩ := writeText_eq_true (heq.symm.trans hmerge)
    exact ⟨(writes_merged hmerged).mp hwrites, (inserted_iff hcase hmerged).mp hin⟩
  · rintro ⟨hwrites, hcontent⟩
    obtain ⟨new_case, hcase⟩ := hwrites.2
    obtain ⟨updated, rfl, hwrite⟩ := writeText_writes ((writes_merged hmerged).mpr hwrites) files (hitPath s hit)
    refine ⟨fun h => absurd h hnone, fun _ => ⟨content, new_case, updated, rfl, hcase, ?_, heq.trans hwrite⟩⟩
    exact (inserted_iff hcase hmerged).mpr hcontent

/-- A case is merged exactly as it should be if and only if the file can be read, the entry's id is nowhere
in it but for a case line of it, and otherwise it is one that the case can be merged into. -/
theorem merges_exactly_iff (s : Setup K) (call : Call K) (e : LedgerEntry) (files : Files)
    (hit : SearchHit K) (file : File) (hfile : files (hitPath s hit) = some file) :
    MergesExactly s call e files hit file ↔ ∃ content, file = .text content ∧
      (e.id.toList <:+: newlines content → HasCase e (newlines content)) ∧
        (¬ e.id.toList <:+: newlines content → Mergeable s call e content) := by
  cases file with
  | unreadable =>
    have hnone : ¬ File.unreadable.HasCase e := fun ⟨_, h, _⟩ => nomatch h
    refine iff_of_false (fun h => ?_) fun ⟨_, h, _⟩ => nomatch h
    obtain ⟨_, _, _, h, -⟩ := h.absent hnone
    cases h
  | text content =>
    have hcontent : ∀ {P : Word → Prop}, (∃ content', File.text content = .text content' ∧ P content') ↔ P content := by
      intro P
      simp
    rw [hcontent]
    by_cases hid : e.id.toList <:+: newlines content
    · have heq := mergeIntoRunbook_none call hfile hid
      constructor
      · intro h
        refine ⟨fun _ => ?_, fun hnot => absurd hid hnot⟩
        by_contra hcase
        obtain ⟨_, _, _, -, -, -, hmerge⟩ := h.absent (mt hcontent.mp hcase)
        rw [heq] at hmerge
        cases (Prod.mk.inj hmerge).2
      · rintro ⟨hcase, -⟩
        exact ⟨fun _ => heq, fun hnot => absurd (hcontent.mpr (hcase hid)) hnot⟩
    · rw [mergesExactly_iff_mergeable hfile hid]
      exact ⟨fun h => ⟨fun h' => absurd h' hid, fun _ => h⟩, fun h => h.2 hid⟩

end Merge

section Nightly

/-- A runbook with a case of another entry. -/
def studies : Word := "## Case Studies\n\n- **Case nightly-ZZ**: Another successful instance. (Success at 7)\n".toList

lemma studies_mergeable : Mergeable setup (call 50) (nightly "Y" 1) studies := by
  refine ⟨⟨rfl, _, rfl⟩, by decide +kernel, fun _ => ⟨[], studies.drop HEADING.length, by decide +kernel, Or.inl rfl, ?_, ?_, ?_⟩⟩
  · exact ⟨[], studies.drop HEADING.length, rfl, by simp, Or.inr ⟨studies.drop (HEADING.length + 1), by decide +kernel⟩⟩
  · decide +kernel
  · decide +kernel

theorem other_case_inserted :
    MergesExactly setup (call 50) (nightly "Y" 1) (fun _ => some (.text studies)) found (.text studies) :=
  (merges_exactly_iff setup (call 50) (nightly "Y" 1) (fun _ => some (.text studies)) found (.text studies) rfl).mpr
    ⟨studies, rfl, fun h => absurd h (by decide +kernel), fun _ => studies_mergeable⟩

/-- The id of another entry begins with that of the entry. -/
theorem id_in_other_case :
    ¬ ∀ (s : Setup ℚ) (call : Call ℚ) (e : LedgerEntry) (files : Files) (hit : SearchHit ℚ)
    (file : File), files (hitPath s hit) = some file → MergesExactly s call e files hit file := by
  intro h
  have hid : (nightly "Z" 2).id.toList <:+: newlines studies := by decide +kernel
  have hcase : ¬ (File.text studies).HasCase (nightly "Z" 2) := by
    rintro ⟨_, ⟨⟩, pre, post, hsplit, -⟩
    have hin : caseStart (nightly "Z" 2) <:+: newlines studies := ⟨pre, post, by rw [hsplit, List.append_assoc]⟩
    revert hin
    decide +kernel
  obtain ⟨_, _, updated, -, -, -, hmerge⟩ :=
    (h setup (call 50) (nightly "Z" 2) (fun _ => some (.text studies)) found (.text studies) rfl).absent hcase
  rw [mergeIntoRunbook_none (call 50) rfl hid] at hmerge
  cases (Prod.mk.inj hmerge).2

end Nightly

end OpsSentry.Knowledge.Evolution
