import OpsSentry.GlobalSync.SyncBuffer

/-! What a reader of the buffer gets after crashes in the middle of a line. -/

namespace OpsSentry.GlobalSync

open Foundation.JsonText Foundation.Runs

variable {F : Type} {fl : Floats F}

section Lines

variable (fl) (e : SyncEnvelope F)

lemma wf_to_record : WF e.to_record := by
  obtain ⟨hnode, htype, hversion, hpayload⟩ := e.clean
  refine ⟨?_, ⟨valid_str _, hversion⟩, ⟨valid_str _, trivial⟩, ⟨valid_str _, hnode⟩, ⟨valid_str _, htype⟩,
    ⟨valid_str _, hpayload⟩, trivial⟩
  have hkeys : (["schema_version", "ts", "nodeId", "msgType", "payload"].map str).Nodup :=
    (List.nodup_map_iff fun _ _ => str_injective).mpr (by decide)
  exact hkeys

lemma line_eq : ∃ w, line fl e = '{' :: (w ++ ['}']) := by
  rw [line, dumpsSorted, SyncEnvelope.to_record, sortKeys, dumps]
  exact ⟨_, rfl⟩

variable {fl}

lemma strip_line : strip (line fl e) = line fl e := by
  obtain ⟨w, hw⟩ := line_eq fl e
  have hlast : '{' :: (w ++ ['}']) = ('{' :: w) ++ ['}'] := rfl
  rw [strip, hw, List.dropWhile_cons_of_neg (by decide), hlast, List.rdropWhile_concat_neg _ _ _ (by decide)]

lemma newline_notMem_line : '\n' ∉ line fl e := (printable_dumpsSorted fl _).notMem rfl

lemma return_notMem_line : '\r' ∉ line fl e := (printable_dumpsSorted fl _).notMem rfl

lemma loads_line :
    loads fl (line fl e) = some (sortKeys e.to_record) := loads_dumps (wf_sortKeys _ (wf_to_record e))

lemma line_ne_nil : line fl e ≠ [] := by
  obtain ⟨w, hw⟩ := line_eq fl e
  rw [hw]
  exact List.cons_ne_nil _ _

lemma records_line (lines : List Word) :
    records fl (line fl e :: lines) = (records fl lines).map (sortKeys e.to_record :: ·) := by
  rw [records, List.map_cons, strip_line, List.filter_cons_of_pos (by simpa using line_ne_nil e), List.mapM_cons,
    loads_line, records]
  cases List.mapM (loads fl) ((lines.map strip).filter (· ≠ [])) with
  | none => rfl
  | some found => rfl

end Lines

section Appends

variable {appends : List (Append F)}

lemma bytes_sublist (a : Append F) : (a.bytes fl).Sublist (written fl a.envelope) := by
  rw [Append.bytes]
  split
  · exact List.Sublist.refl _
  · exact List.take_sublist _ _

lemma return_notMem_bytes (fl : Floats F) (appends : List (Append F)) :
    '\r' ∉ appends.flatMap (Append.bytes fl) := by
  rw [List.mem_flatMap]
  rintro ⟨a, -, ha⟩
  have hmem := (bytes_sublist a).subset ha
  rw [written, List.mem_append, or_iff_right (return_notMem_line _)] at hmem
  exact absurd hmem (by decide)

lemma bytes_of_lt {e : SyncEnvelope F} {n : ℕ} (h : (line fl e).length < n) :
    Append.bytes fl ⟨e, some n⟩ = line fl e ++ ['\n'] := by
  change (line fl e ++ ['\n']).take n = _
  apply List.take_of_length_le
  rw [List.length_append, List.length_singleton]
  omega

lemma bytes_of_eq (e : SyncEnvelope F) : Append.bytes fl ⟨e, some (line fl e).length⟩ = line fl e :=
  List.take_left

lemma bytes_of_nothing (h : ∀ a ∈ appends, a.cut = some 0) : appends.flatMap (Append.bytes fl) = [] := by
  rw [List.flatMap_eq_nil_iff]
  intro a ha
  rw [Append.bytes, h a ha]
  rfl

lemma picks_of_nothing (h : ∀ a ∈ appends, a.cut = some 0) : Picks fl appends [] := by
  induction appends with
  | nil => exact .nil
  | cons a appends ih =>
    obtain ⟨e, cut⟩ := a
    obtain rfl : cut = some 0 := h _ List.mem_cons_self
    exact .cut (ih fun a ha => h a (List.mem_cons_of_mem _ ha))

/-- Crashes that keep the lines apart leave what can be read. -/
lemma records_framed (h : Framed fl appends) :
    ∃ found picked, records fl ((appends.flatMap (Append.bytes fl)).splitOn '\n') = some found ∧
      Picks fl appends picked ∧ List.Forall₂ (fun (e : SyncEnvelope F) record => Same e.to_record record) picked found := by
  induction appends with
  | nil => exact ⟨[], [], rfl, .nil, .nil⟩
  | cons a appends ih =>
    obtain ⟨e, cut⟩ := a
    obtain ⟨hcut, hrest⟩ := h
    dsimp only at hcut
    obtain ⟨found, picked, hfound, hpicked, hsame⟩ := ih hrest
    have hwhole (hbytes : Append.bytes fl ⟨e, cut⟩ = line fl e ++ ['\n']) :
        records fl (((⟨e, cut⟩ :: appends).flatMap (Append.bytes fl)).splitOn '\n') =
          some (sortKeys e.to_record :: found) := by
      rw [List.flatMap_cons, hbytes, List.append_assoc, List.singleton_append,
        List.splitOn_append_cons_self_of_not_mem (newline_notMem_line e), records_line, hfound, Option.map_some]
    have hrecord := same_sortKeys (wf_to_record e)
    cases cut with
    | none => exact ⟨_, _, hwhole rfl, .returned hpicked, .cons hrecord hsame⟩
    | some n =>
      rcases hcut n rfl with rfl | hlong | ⟨rfl, hlast⟩
      · exact ⟨found, picked, hfound, .cut hpicked, hsame⟩
      · exact ⟨_, _, hwhole (bytes_of_lt hlong), .complete (Nat.le_of_lt hlong) hpicked, .cons hrecord hsame⟩
      · refine ⟨[sortKeys e.to_record], [e], ?_, .complete (Nat.le_refl _) (picks_of_nothing hlast), .cons hrecord .nil⟩
        rw [List.flatMap_cons, bytes_of_eq, bytes_of_nothing hlast, List.append_nil,
          List.splitOn_eq_singleton (newline_notMem_line e), records_line]
        rfl

end Appends

section Runs

variable {s t : State F}

/-- The file is what the appends have written since the last `clear`. -/
def Holds (fl : Floats F) (s : State F) : Prop := s.buffer_path.getD [] = s.appends.flatMap (Append.bytes fl)

lemma holds_start : Holds fl State.start := by
  rw [Holds]
  rfl

lemma holds_step {call : Call F} (h : Holds fl s) (hstep : step fl s call = some t) : Holds fl t := by
  cases call with
  | append a =>
    cases hstep
    rw [Holds, List.flatMap_append, List.flatMap_singleton, ← h]
    rfl
  | read_all =>
    cases hstep
    exact h
  | clear =>
    cases hstep
    rfl

lemma reads_of_framed (h : Holds fl s) (hframed : Framed fl s.appends) : Reads fl s := by
  obtain ⟨found, picked, hfound, hrest⟩ := records_framed hframed
  refine ⟨found, picked, ?_, hrest⟩
  rw [← h] at hfound
  cases hpath : s.buffer_path with
  | none =>
    rw [hpath] at hfound
    exact hfound
  | some text =>
    have hreturn : '\r' ∉ text := by
      have hnot := return_notMem_bytes fl s.appends
      rwa [← h, hpath] at hnot
    have hlines : Foundation.Lines.newlines text = text := by
      simpa [Foundation.Lines.newlines] using Foundation.Lines.newlines_of_notMem hreturn []
    rw [hpath] at hfound
    change records fl ((Foundation.Lines.newlines text).splitOn '\n') = _
    rw [hlines]
    exact hfound

/-- In every run, wherever the crashes have kept the lines apart. -/
theorem reads (hrun : Reachable (step fl) State.start s) (h : Framed fl s.appends) : Reads fl s :=
  reads_of_framed (reachable_invariant holds_step holds_start hrun) h

end Runs

section Sample

def ones : Floats Unit where
  repr _ := "1.0".toList
  parse _ := ()
  float_text _ := by
    refine ⟨[], ['1'], ['.', '0'], [], ⟨Or.inl rfl, Or.inr ⟨by decide, by decide, by simp [Digits]⟩,
      Or.inr ⟨['0'], by decide, by simp [Digits], rfl⟩, Or.inl rfl⟩, by decide, rfl⟩
  parse_repr _ := rfl

def envelope : SyncEnvelope Unit where
  node_id := str "node-1"
  msg_type := str "AUDIT"
  payload := [(str "load", .float ())]
  schema_version := str "1.0"
  ts := 1700000000000
  clean := ⟨valid_str _, valid_str _, valid_str _, by simp, ⟨valid_str _, trivial⟩, trivial⟩

/-- A crash before the first byte, and then another append. -/
theorem append_after_crash_reads :
    Reads ones ⟨some (written ones envelope), [⟨envelope, some 0⟩, ⟨envelope, none⟩]⟩ :=
  reads ⟨[.append ⟨envelope, some 0⟩, .append ⟨envelope, none⟩], rfl⟩ ⟨by simp, by simp, trivial⟩

/-- One byte of a line, and the buffer cannot be read any more. -/
theorem first_byte_not_read : ¬ ∀ s : State Unit, Reachable (step ones) State.start s → Reads ones s := by
  intro h
  obtain ⟨w, hw⟩ := line_eq ones envelope
  have hbyte : Append.bytes ones ⟨envelope, some 1⟩ = ['{'] := by
    change (line ones envelope ++ ['\n']).take 1 = ['{']
    rw [hw]
    rfl
  have hreach : Reachable (step ones) State.start (⟨some ['{'], [⟨envelope, some 1⟩]⟩ : State Unit) := by
    refine ⟨[.append ⟨envelope, some 1⟩], ?_⟩
    rw [← hbyte]
    rfl
  obtain ⟨found, picked, hfound, -⟩ := h _ hreach
  have hraises : read_all ones (some ['{']) = none := by
    decide
  rw [hraises] at hfound
  cases hfound

end Sample

end OpsSentry.GlobalSync
