import OpsSentry.Foundation.JsonRaw
import OpsSentry.Foundation.Lines
import Mathlib.Data.List.DropRight
import Mathlib.Logic.Function.Basic

/-! `session_manager.py`: the history of a session, a file to which `append_history` adds a line for
each message and of which `load_history` reads the last ones. -/

namespace OpsSentry.Agent.History

open Foundation Foundation.JsonText Foundation.Lines

variable {Id F : Type} [DecidableEq Id]

/-- A JSON object; none of its strings holds a surrogate. -/
structure Message (F : Type) where
  fields : List (Str × Json F)
  valid : WFWith NoSurrogates (.obj fields)

def Message.json (m : Message F) : Json F := .obj m.fields

/-- The text of `history.jsonl` in each session's directory, where there is one. -/
abbrev Histories (Id : Type) := Id → Option Word

def touch (session_id : Id) (histories : Histories Id) : Histories Id :=
  Function.update histories session_id (some ((histories session_id).getD []))

def appendHistory (fl : Floats F) (session_id : Id) (message : Message F) (histories : Histories Id) :
    Histories Id :=
  let histories := touch session_id histories
  Function.update histories session_id
    ((histories session_id).map (· ++ (dumpsWith raw fl message.json ++ ['\n'])))

/-- `lines[-limit:]` -/
def lastLines (limit : ℤ) (lines : List Word) : List Word :=
  lines.drop (if 0 < limit then lines.length - limit else -limit).toNat

/-- A line that is no JSON is passed over. -/
def loadHistory (fl : Floats F) (session_id : Id) (limit : ℤ) (histories : Histories Id) : List (Json F) :=
  match histories session_id with
  | none => []
  | some text => (lastLines limit (readlines (newlines text))).filterMap (JsonText.loads fl)

/-- The calls that touch a history: `get_or_create_session` makes an empty one. -/
inductive Call (Id F : Type)
  | getOrCreate (session_id : Id)
  | append (session_id : Id) (message : Message F)

def Call.perform (fl : Floats F) (histories : Histories Id) : Call Id F → Histories Id
  | .getOrCreate session_id => touch session_id histories
  | .append session_id message => appendHistory fl session_id message histories

def performAll (fl : Floats F) (calls : List (Call Id F)) : Histories Id :=
  calls.foldl (Call.perform fl) (fun _ => none)

/-- What was appended to the session's history. -/
def Call.message (session_id : Id) : Call Id F → Option (Message F)
  | .getOrCreate _ => none
  | .append sid message => if sid = session_id then some message else none

def messages (session_id : Id) (calls : List (Call Id F)) : List (Message F) :=
  calls.filterMap (Call.message session_id)

variable {fl : Floats F} {session_id : Id} {histories : Histories Id}

def written (fl : Floats F) (ms : List (Message F)) : Word :=
  (ms.map fun m => dumpsWith raw fl m.json).flatMap (· ++ ['\n'])

lemma written_append (ms : List (Message F)) (m : Message F) :
    written fl (ms ++ [m]) = written fl ms ++ (dumpsWith raw fl m.json ++ ['\n']) := by
  simp [written]

lemma getD_touch (sid : Id) :
    (touch sid histories session_id).getD [] = (histories session_id).getD [] := by
  by_cases h : session_id = sid
  · subst h
    simp [touch]
  · rw [touch, Function.update_of_ne h]

lemma perform_text {ms : List (Message F)} (h : (histories session_id).getD [] = written fl ms)
    (call : Call Id F) :
    (call.perform fl histories session_id).getD [] =
      written fl (ms ++ (call.message session_id).toList) := by
  cases call with
  | getOrCreate sid => rw [Call.perform, getD_touch, h, Call.message, Option.toList_none, List.append_nil]
  | append sid message =>
    by_cases hsid : sid = session_id
    · subst hsid
      rw [Call.perform, appendHistory, Function.update_self, touch, Function.update_self, Option.map_some,
        Option.getD_some, Call.message, if_pos rfl, Option.toList_some, written_append, h]
    · rw [Call.perform, appendHistory, Function.update_of_ne (Ne.symm hsid), getD_touch, h, Call.message,
        if_neg hsid, Option.toList_none, List.append_nil]

lemma performAll_text (fl : Floats F) (session_id : Id) (calls : List (Call Id F)) :
    (performAll fl calls session_id).getD [] = written fl (messages session_id calls) := by
  have hrun : ∀ (histories : Histories Id) (ms : List (Message F)),
      (histories session_id).getD [] = written fl ms →
      (calls.foldl (Call.perform fl) histories session_id).getD [] = written fl (ms ++ messages session_id calls) := by
    induction calls with
    | nil =>
      intro histories ms h
      rw [messages, List.filterMap_nil, List.append_nil]
      exact h
    | cons call calls ih =>
      intro histories ms h
      have hstep := ih _ _ (perform_text h call)
      rw [List.append_assoc] at hstep
      have hcons : messages session_id (call :: calls) =
          (call.message session_id).toList ++ messages session_id calls := by
        rw [messages, List.filterMap_cons]
        cases call.message session_id <;> rfl
      rw [hcons]
      exact hstep
  exact hrun _ [] rfl

lemma lines_written (ms : List (Message F)) :
    readlines (newlines (written fl ms)) = ms.map fun m => dumpsWith raw fl m.json ++ ['\n'] := by
  rw [written, readlines_flatMap, List.map_map]
  · rfl
  · intro l hl
    obtain ⟨m, -, rfl⟩ := List.mem_map.1 hl
    exact ⟨fun h => (inLine_dumpsRaw fl m.json _ h).1 rfl, fun h => (inLine_dumpsRaw fl m.json _ h).2 rfl⟩

lemma loads_written (ms : List (Message F)) :
    (ms.map fun m => dumpsWith raw fl m.json ++ ['\n']).filterMap (JsonText.loads fl) = ms.map Message.json := by
  induction ms with
  | nil => rfl
  | cons m ms ih =>
    have hloads : JsonText.loads fl (dumpsWith raw fl m.json ++ ['\n']) = some m.json := loads_dumpsWith m.valid rfl
    rw [List.map_cons, List.filterMap_cons, hloads, ih, List.map_cons]

lemma lastLines_map {α : Type} (f : α → Word) (xs : List α) {limit : ℤ} (h : 1 ≤ limit) :
    lastLines limit (xs.map f) = (xs.rtake limit.toNat).map f := by
  have hdrop : ((xs.length : ℤ) - limit).toNat = xs.length - limit.toNat := by omega
  rw [lastLines, if_pos (by omega), List.length_map, hdrop, List.rtake, List.map_drop]

omit [DecidableEq Id] in
lemma loadHistory_eq (limit : ℤ) : loadHistory fl session_id limit histories =
    (lastLines limit (readlines (newlines ((histories session_id).getD [])))).filterMap (JsonText.loads fl) := by
  rw [loadHistory]
  cases histories session_id with
  | none =>
    rw [Option.getD_none, newlines, readlines, readlinesFrom, if_pos rfl, lastLines, List.drop_nil]
    rfl
  | some text => rfl

/-- What was appended last is what is read. -/
theorem load_appended (fl : Floats F) (session_id : Id) (calls : List (Call Id F)) {limit : ℤ}
    (h : 1 ≤ limit) :
    loadHistory fl session_id limit (performAll fl calls) =
      ((messages session_id calls).rtake limit.toNat).map Message.json := by
  rw [loadHistory_eq, performAll_text, lines_written, lastLines_map _ _ h, loads_written]

def said (content : String) : Message F :=
  { fields := [(str "content", .str (str content))]
    valid := ⟨List.nodup_singleton _, ⟨noSurrogates_str _, noSurrogates_str _⟩, trivial⟩ }

/-- A float that is always `0.0`. -/
def zeros : Floats Unit where
  repr _ := "0.0".toList
  parse _ := ()
  float_text _ := ⟨[], ['0'], ['.', '0'], [],
    ⟨.inl rfl, .inl rfl, .inr ⟨['0'], by decide, by simp [Digits], rfl⟩, .inl rfl⟩, by decide, rfl⟩
  parse_repr _ := rfl

/-- The second message holds a return, a newline and a line separator. -/
theorem load_appended_two :
    loadHistory zeros "s" 2 (performAll zeros [.append "s" (said "a"), .append "t" (said "b"),
      .append "s" (said "c\r\n\u2028d"), .append "s" (said "e")]) =
      [(said "c\r\n\u2028d").json, (said "e").json] :=
  load_appended zeros "s" _ (by decide)

end OpsSentry.Agent.History
