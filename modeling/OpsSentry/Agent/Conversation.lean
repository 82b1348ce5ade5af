import OpsSentry.Agent.AgentVM
import OpsSentry.Foundation.Exchange

/-! When the conversations that `chat` sends are well-formed. The tool loop answers every call,
but the endpoint keeps none of the answers: a call that an earlier turn left in the history has
lost them. -/

namespace OpsSentry.Agent.Conversation

open Foundation.Exchange Foundation.Programs Foundation.Runs Foundation.Values

def callIds : Message → List (Option String)
  | .assistant _ tool_calls => tool_calls.map ToolCall.id
  | _ => []

def answeredId : Message → Option (Option String)
  | .tool tool_call_id _ _ => some tool_call_id
  | _ => none

/-- Each assistant message with tool calls is directly followed by exactly one tool message for
each of its call ids, and each tool message answers a call of the assistant message it follows. -/
def WellFormed (messages : List Message) : Prop := Matched callIds answeredId [] [] messages

instance (messages : List Message) : Decidable (WellFormed messages) :=
  inferInstanceAs (Decidable (Matched callIds answeredId [] [] messages))

def kept (history : List Message) : List Message :=
  if 20 ≤ history.length then history.take 1 ++ history.drop (history.length - 10) else history

/-- No call that a response makes repeats the id of another. -/
def Distinct (deltas : List Delta) : Prop :=
  ∀ tool_calls, accumulate [] deltas = .ok tool_calls → (tool_calls.map ToolCall.id).Nodup

/-- No call is left in what is kept of the history, and no response of the turn repeats an id. -/
def Clean (t : Turn) : Prop :=
  (∀ m ∈ kept t.history, callIds m = []) ∧ ∀ deltas ∈ t.responses, Distinct deltas

lemma compactContext_system (system_prompt : String) (history : List Message) :
    compactContext (.system system_prompt :: history) = .system system_prompt :: kept history := by
  rw [compactContext, kept]
  rw [List.length_cons]
  by_cases h : 20 ≤ history.length
  · have hdrop : history.length + 1 - 10 = history.length - 10 + 1 := by omega
    rw [if_pos h, if_pos (by omega), hdrop, List.drop_succ_cons]
    rfl
  · rw [if_neg h, if_neg (by omega)]

lemma mem_of_mem_kept {history : List Message} {m : Message} (h : m ∈ kept history) : m ∈ history := by
  rw [kept] at h
  split at h
  · rcases List.mem_append.mp h with h | h
    · exact List.mem_of_mem_take h
    · exact List.mem_of_mem_drop h
  · exact h

/-- Nothing that is kept in a history answers a call. -/
def Unanswering (messages : List Message) : Prop := ∀ m ∈ messages, answeredId m = none

lemma unanswering_append {ms ns : List Message} (hm : Unanswering ms) (hn : Unanswering ns) :
    Unanswering (ms ++ ns) := by
  intro m h
  rcases List.mem_append.mp h with h | h
  · exact hm m h
  · exact hn m h

lemma unanswering_singleton {m : Message} (h : answeredId m = none) : Unanswering [m] := by
  intro b hb
  rwa [List.mem_singleton.mp hb]

variable {A : Type}

def Exact (c : Completion) : Prop := WellFormed c.messages ↔ Clean c.turn

structure Inv (w : World A) : Prop where
  file : Unanswering w.file
  history : ∀ a h, w.history a = some h → Unanswering h
  exact : ∀ c ∈ w.completions, Exact c

variable {α : Type} {a : A} {T : Turn}

lemma Inv.write {w : World A} (hi : Inv w) {m : Message} (hm : answeredId m = none) : Inv (w.write m) :=
  { hi with file := unanswering_append hi.file (unanswering_singleton hm) }

lemma Inv.send {w : World A} (hi : Inv w) {messages : List Message} (h : Exact ⟨w.turn a, messages⟩) :
    Inv (w.send a messages) where
  file := hi.file
  history := hi.history
  exact := by
    intro c hc
    rcases List.mem_append.mp hc with hc | hc
    · exact hi.exact c hc
    · rw [List.mem_singleton.mp hc]
      exact h

lemma Inv.current {w : World A} (hi : Inv w) : Unanswering ((w.history a).getD []) := by
  cases hh : w.history a with
  | none =>
    intro m hm
    cases hm
  | some h => exact hi.history a h hh

variable [DecidableEq A]

/-- A connection counts on its own turn. -/
def contract (A : Type) [DecidableEq A] : Contract Host A (World A) Procedure where
  Inv := Inv
  Rely a s t := t.turn a = s.turn a
  Guard _ _ _ := True
  Pre _ _ _ := True
  refl _ _ := rfl
  trans h h' := h'.trans h

lemma Inv.setHistory {w : World A} (hi : Inv w) {a : A} {h : Option (List Message)}
    (hh : ∀ l, h = some l → Unanswering l) : Inv (w.setHistory a h) where
  file := hi.file
  history := by
    intro b l hl
    by_cases hb : b = a
    · subst b
      exact hh l (by simpa [World.setHistory] using hl)
    · exact hi.history b l (by simpa [World.setHistory, hb] using hl)
  exact := hi.exact

/-- The commands that leave the turn alone. -/
def Quiet : Command → Prop
  | .history | .acompletion _ => False
  | .remember m | .appendHistory m => answeredId m = none
  | _ => True

lemma exec_quiet {a : A} {o : Oracle} {w w' : World A} {c : Command} {y : Reply c} (hc : Quiet c)
    (hi : Inv w) (h : exec a o w c = some (w', y)) : Inv w' ∧ w'.turn = w.turn := by
  cases c with
  | history => exact hc.elim
  | acompletion messages => exact hc.elim
  | remember m =>
    cases h
    refine ⟨hi.setHistory ?_, rfl⟩
    intro l hl
    obtain ⟨l', hl', rfl⟩ := Option.map_eq_some_iff.mp hl
    exact unanswering_append (hi.history a l' hl') (unanswering_singleton hc)
  | appendHistory m =>
    simp only [exec] at h
    split at h <;> cases h
    · exact ⟨hi, rfl⟩
    · exact ⟨hi.write hc, rfl⟩
  | loadHistory =>
    cases h
    refine ⟨hi.setHistory ?_, rfl⟩
    rintro l ⟨⟩
    intro m hm
    exact hi.file m (List.mem_of_mem_drop hm)
  | _ => cases h; exact ⟨hi, rfl⟩

variable {J : World A → Prop} {Q : Except Exc α → World A → Prop}

abbrev wp (a : A) (J : World A → Prop) (Q : Except Exc α → World A → Prop) (q : Code α) (w : World A) :
    Prop :=
  (contract A).wp (chatSession A) a J Q q w

def At (a : A) (T : Turn) (w : World A) : Prop := w.turn a = T

lemma wp_perform {c : Command} {f : Reply c → Code α} {w : World A} (hc : Quiet c) (hw : At a T w)
    (h : ∀ y w', At a T w' → wp a J Q (f y) w') : wp a J Q (perform c >>= f) w := by
  intro t ht hi _ o w' y hexec
  obtain ⟨hi', hturn⟩ := exec_quiet hc hi hexec
  refine ⟨⟨hi', fun b _ => congrFun hturn b⟩, h y w' ?_⟩
  exact (congrFun hturn a).trans (ht.trans hw)

def Raises (Q : Except Exc α → World A → Prop) : Prop := ∀ e w, Q (.error e) w

lemma wp_orThrow {β : Type} {x : Except Exc β} {f : β → Code α} {w : World A} (hr : Raises Q)
    (h : ∀ v, x = .ok v → wp a J Q (f v) w) : wp a J Q (orThrow x >>= f) w := by
  cases x with
  | error e => exact hr e w
  | ok v => exact h v rfl

lemma wp_yieldChunk {chunk : Chunk} {Q : Except Exc Unit → World A → Prop} {w : World A}
    (hm : ∀ m, chunk = .message m → answeredId m = none) (hw : At a T w) (hr : Raises Q)
    (h : ∀ w', At a T w' → Q (.ok ()) w') : wp a J Q (yieldChunk chunk) w := by
  apply wp_perform (c := .sendText chunk) trivial hw
  intro y w₁ hw₁
  apply wp_orThrow hr
  intro _ _
  cases chunk with
  | message m =>
    apply wp_perform (c := .remember m) (hm m rfl) hw₁
    intro _ w₂ hw₂
    apply wp_perform (c := .appendHistory m) (hm m rfl) hw₂
    intro z w₃ hw₃
    cases z with
    | error e => exact hr e w₃
    | ok v => exact h w₃ hw₃
  | _ => exact h w₁ hw₁

lemma wp_yieldContent {content : Option String} {Q : Except Exc String → World A → Prop} {w : World A}
    (hw : At a T w) (hr : Raises Q) (h : ∀ s w', At a T w' → Q (.ok s) w') :
    wp a J Q (yieldContent content) w := by
  cases content with
  | none => exact h "" w hw
  | some s =>
    rw [yieldContent]
    by_cases hs : s = ""
    · simp only [hs, ↓reduceIte]
      exact h "" w hw
    · simp only [hs, ↓reduceIte]
      apply Contract.wp_bind
      apply wp_yieldChunk (by simp) hw hr
      intro w' hw'
      exact h s w' hw'

lemma accumulate_cons {calls calls' calls'' : List ToolCall} {delta : Delta} {deltas : List Delta}
    (h : delta.tool_calls.foldlM addFragment calls = .ok calls') (h' : accumulate calls' deltas = .ok calls'') :
    accumulate calls (delta :: deltas) = .ok calls'' := by
  rw [accumulate, List.foldlM_cons, h]
  exact h'

lemma wp_consume {deltas : List Delta} {Q : Except Exc (String × List ToolCall) → World A → Prop}
    (hr : Raises Q) {full_content : String} {calls : List ToolCall} {w : World A} (hw : At a T w)
    (h : ∀ s calls' w', At a T w' → accumulate calls deltas = .ok calls' → Q (.ok (s, calls')) w') :
    wp a J Q (consume full_content calls deltas) w := by
  induction deltas generalizing full_content calls w with
  | nil => exact h full_content calls w hw rfl
  | cons delta deltas ih =>
    apply Contract.wp_bind
    apply wp_yieldContent hw hr
    intro s w₁ hw₁
    apply wp_orThrow hr
    intro calls' hcalls
    apply ih hw₁
    intro s' calls'' w₂ hw₂ hacc
    exact h s' calls'' w₂ hw₂ (accumulate_cons hcalls hacc)

lemma wp_parseArguments {text : String} {Q : Except Exc Value → World A → Prop} {w : World A}
    (hw : At a T w) (hr : Raises Q) (h : ∀ v w', At a T w' → Q (.ok v) w') :
    wp a J Q (parseArguments text) w := by
  apply wp_perform (c := .loads text) trivial hw
  intro y w' hw'
  cases y with
  | ok args => exact h args w' hw'
  | error e =>
    cases e with
    | jsonDecode => exact h (.dict []) w' hw'
    | _ => exact hr _ w'

lemma wp_runTools {calls : List ToolCall} {Q : Except Exc (List Message) → World A → Prop} (hr : Raises Q)
    {messages : List Message} {w : World A} (hw : At a T w)
    (h : ∀ answers w', At a T w' → answers.map answeredId = (calls.map ToolCall.id).map some →
      Q (.ok (messages ++ answers)) w') : wp a J Q (runTools messages calls) w := by
  induction calls generalizing messages w with
  | nil =>
    have hnil := h [] w hw rfl
    rwa [List.append_nil] at hnil
  | cons tc calls ih =>
    apply Contract.wp_bind
    apply wp_parseArguments hw hr
    intro args w₁ hw₁
    apply Contract.wp_bind
    apply wp_yieldChunk (by simp) hw₁ hr
    intro w₂ hw₂
    apply wp_perform (c := .dispatch tc.name args) trivial hw₂
    intro y w₃ hw₃
    apply wp_orThrow hr
    intro result_data _
    apply wp_perform (c := .dumps result_data) trivial hw₃
    intro y w₄ hw₄
    apply wp_orThrow hr
    intro result_str _
    apply Contract.wp_bind
    apply wp_yieldChunk (by simp) hw₄ hr
    intro w₅ hw₅
    apply ih hw₅
    intro answers w₆ hw₆ hanswers
    rw [List.append_assoc, List.singleton_append]
    exact h _ w₆ hw₆ (by simp [answeredId, hanswers])

/-- Whatever fresh messages follow, the conversation so far is well-formed exactly when the
turn is clean. -/
def Tells (T : Turn) (messages : List Message) : Prop :=
  ∀ tail, Fresh answeredId tail → (WellFormed (messages ++ tail) ↔ Clean T ∧ WellFormed tail)

lemma Tells.exact {messages : List Message} (h : Tells T messages) : WellFormed messages ↔ Clean T := by
  have hnil : WellFormed [] := settled_nil
  have hfresh : Fresh answeredId ([] : List Message) := by
    intro m hm
    cases hm
  simpa [hnil] using h [] hfresh

lemma tells_start {system_prompt : String} {history : List Message} (hh : Unanswering history) :
    Tells ⟨history, []⟩ (compactContext (.system system_prompt :: history)) := by
  intro tail htail
  rw [compactContext_system]
  have hnone : ∀ m ∈ Message.system system_prompt :: kept history, answeredId m = none := by
    intro m hm
    rcases List.mem_cons.mp hm with rfl | hm
    · rfl
    · exact hh m (mem_of_mem_kept hm)
  rw [WellFormed, matched_unanswered hnone htail, List.forall_mem_cons]
  simp [Clean, WellFormed, callIds]

lemma Tells.round {messages answers : List Message} (h : Tells T messages) {deltas : List Delta}
    {s : String} {calls : List ToolCall} (hacc : accumulate [] deltas = .ok calls)
    (hanswers : answers.map answeredId = (calls.map ToolCall.id).map some) :
    Tells ⟨T.history, T.responses ++ [deltas]⟩ (messages ++ assistantMsg s calls :: answers) := by
  intro tail htail
  have hfresh : Fresh answeredId (assistantMsg s calls :: (answers ++ tail)) := by
    rintro _ ⟨⟩
    rfl
  have hdistinct : Distinct deltas ↔ (calls.map ToolCall.id).Nodup := by
    constructor
    · intro hd
      exact hd calls hacc
    · intro hn calls' hacc'
      rw [hacc] at hacc'
      cases hacc'
      exact hn
  have hround : WellFormed (assistantMsg s calls :: (answers ++ tail)) ↔ Distinct deltas ∧ WellFormed tail := by
    rw [hdistinct]
    exact matched_round rfl hanswers htail
  have hclean : Clean ⟨T.history, T.responses ++ [deltas]⟩ ↔ Clean T ∧ Distinct deltas := by
    simp only [Clean, List.forall_mem_append, List.forall_mem_singleton, and_assoc]
  rw [List.append_assoc, List.cons_append, h _ hfresh, hround, hclean, and_assoc]

lemma Inv.setTurn {w : World A} (hi : Inv w) (T : Turn) : Inv (w.setTurn a T) :=
  ⟨hi.file, hi.history, hi.exact⟩

lemma turn_setTurn (w : World A) {b : A} (hb : b ≠ a) (T : Turn) : (w.setTurn a T).turn b = w.turn b := by
  simp [World.setTurn, hb]

lemma wp_acompletion {messages : List Message} {f : Except Exc Stream → Code α} {w : World A}
    (hw : At a T w) (ht : Tells T messages)
    (h : ∀ o w', At a ⟨T.history, T.responses ++ [o.stream.deltas]⟩ w' →
      wp a J Q (f (Oracle.reply o o.stream)) w') : wp a J Q (acompletion messages >>= f) w := by
  intro t hrely hi _ o w' y hexec
  cases hexec
  have hturn : t.turn a = T := hrely.trans hw
  have hsend : Inv (t.send a messages) := by
    apply hi.send
    rw [hturn]
    exact ht.exact
  refine ⟨⟨hsend.setTurn _, fun b hb => turn_setTurn _ hb _⟩, h o _ ?_⟩
  rw [At, ← hturn]
  simp [World.answered, World.setTurn, World.send]

lemma wp_loop {Q : Except Exc Unit → World A → Prop} (hr : Raises Q)
    (h : ∀ T w, At a T w → Q (.ok ()) w) {max_loops : ℕ} {messages : List Message} {w : World A}
    (hw : At a T w) (ht : Tells T messages) : wp a J Q (loop messages max_loops) w := by
  induction max_loops generalizing T messages w with
  | zero => exact h T w hw
  | succ n ih =>
    apply wp_acompletion hw ht
    intro o w₁ hw₁
    apply wp_orThrow hr
    intro stream hstream
    have hdeltas : stream.deltas = o.stream.deltas := by
      rw [Oracle.reply] at hstream
      split at hstream <;> cases hstream
      rfl
    apply Contract.wp_bind
    apply wp_consume hr hw₁
    intro s calls w₂ hw₂ hacc
    rw [hdeltas] at hacc
    apply wp_orThrow hr
    intro _ _
    apply Contract.wp_bind
    refine wp_yieldChunk ?_ hw₂ hr ?_
    · rintro m ⟨⟩
      rfl
    · intro w₃ hw₃
      by_cases hcalls : calls = []
      · simp only [hcalls, ↓reduceIte]
        exact h _ w₃ hw₃
      · simp only [hcalls, ↓reduceIte]
        apply Contract.wp_bind
        apply wp_runTools hr hw₃
        intro answers w₄ hw₄ hanswers
        apply ih hw₄
        rw [List.append_assoc, List.singleton_append]
        exact ht.round hacc hanswers

lemma wp_history {f : List Message → Code α} {w : World A}
    (h : ∀ hs w', Unanswering hs → At a ⟨hs, []⟩ w' → wp a J Q (f hs) w') :
    wp a J Q (history >>= f) w := by
  intro t _ hi _ o w' y hexec
  cases hexec
  refine ⟨⟨hi.setTurn _, fun b hb => turn_setTurn _ hb _⟩, h _ _ hi.current ?_⟩
  simp [At, World.setTurn]

lemma wp_chat {Q : Except Exc Unit → World A → Prop} (hr : Raises Q) (h : ∀ T w, At a T w → Q (.ok ()) w)
    {w : World A} (hw : At a T w) : wp a J Q chat w := by
  apply wp_perform (c := .assembleSystemPrompt) trivial hw
  intro y w₁ _
  apply wp_orThrow hr
  intro system_prompt _
  apply wp_history
  intro hs w₂ hhs hw₂
  apply Contract.wp_bind
  apply wp_loop _ _ hw₂ (tells_start hhs)
  · exact hr
  · intro T' w₃ hw₃
    refine wp_yieldChunk (by simp) hw₃ hr ?_
    intro w₄ hw₄
    exact h T' w₄ hw₄

lemma wp_receive {message_text : Value} {Q : Except Exc Unit → World A → Prop} (h : ∀ x w, Q x w)
    {w : World A} : wp a J Q (receive message_text) w := by
  have hr : Raises Q := fun e w => h (.error e) w
  rw [receive]
  split
  · apply wp_perform (c := .remember (.user message_text)) rfl rfl
    intro _ w₁ hw₁
    apply wp_perform (c := .appendHistory (.user message_text)) rfl hw₁
    intro y w₂ hw₂
    apply wp_orThrow hr
    intro _ _
    apply Contract.wp_handle
    apply wp_chat _ _ hw₂
    · intro e w₃
      apply wp_perform (c := .sendText (.error e.text)) trivial rfl
      intro y w₄ _
      cases y with
      | error e => exact h (.error e) w₄
      | ok v => exact h (.ok v) w₄
    · intro _ w₃ _
      exact h (.ok ()) w₃
  · exact h _ w

lemma meets : (contract A).Meets (chatSession A) where
  enter := by
    intro a p s w hi h
    simp only [chatSession] at h
    split at h <;> cases h <;> exact ⟨Contract.Yields.refl hi, trivial⟩
  body := by
    intro a p s hi _
    have hends : ∀ x t, (contract A).Finishes (chatSession A) a p x t := by
      intro x _ t _ hit
      cases x with
      | ok v => exact Contract.Yields.refl hit
      | error e => exact ⟨hit.setHistory (fun l hl => by cases hl), fun b _ => rfl⟩
    cases p with
    | connect =>
      apply wp_perform (c := .loadHistory) trivial rfl
      intro y w' _
      exact hends (.ok y) w'
    | receive message_text => exact wp_receive hends
  crash := by
    intro a s w hi h
    cases h
    exact ⟨hi.setHistory (fun l hl => by cases hl), fun b _ => rfl⟩
  environment := fun e => e.elim

/-- A list that is sent to the LLM is well-formed exactly when no call is left in what was kept
of the history, and no response of the turn has repeated an id. -/
theorem wellFormed_iff_clean {t : Pool Host A (World A) Procedure Exc Unit}
    {ls : List (Label A Procedure Oracle Empty)}
    (hr : run (chatSession A).step (Pool.idle newSession) ls = some t) :
    ∀ c ∈ t.shared.completions, WellFormed c.messages ↔
      (∀ m ∈ kept c.turn.history, callIds m = []) ∧ ∀ deltas ∈ c.turn.responses, Distinct deltas := by
  have hstart : Inv (newSession : World A) := by
    constructor
    · intro m hm
      cases hm
    · intro a h hh
      cases hh
    · intro c hc
      cases hc
  have hinv : Inv t.shared := (contract A).sound_of_unguarded meets (fun _ _ _ => trivial) hstart hr
  exact hinv.exact

section Turns

def calling : Stream := ⟨[⟨none, [⟨0, some "call-1", some "bash", some "\x7b\x7d"⟩]⟩], none⟩

def answering : Stream := ⟨[⟨some "done", []⟩], none⟩

/-- A turn that the LLM starts with `first`, in which each command gets the same kind of reply. -/
def play (first : Stream) (n m : ℕ) : List (Label Unit Procedure Oracle Empty) :=
  .invoke () (.receive (.str "status?")) ::
    (List.replicate n (.advance () { stream := first }) ++
      List.replicate m (.advance () { stream := answering }))

/-- A turn with a tool call, and a second turn that has it in its history. -/
def twoTurns : List (Label Unit Procedure Oracle Empty) :=
  [.invoke () .connect, .advance () {}, .advance () {}] ++ play calling 13 7 ++ play answering 5 6

theorem twoTurns_iff_clean : ∃ t, run (chatSession Unit).step (Pool.idle newSession) twoTurns = some t ∧
    t.shared.completions.length = 3 ∧
      ∀ c ∈ t.shared.completions, WellFormed c.messages ↔
        (∀ m ∈ kept c.turn.history, callIds m = []) ∧ ∀ deltas ∈ c.turn.responses, Distinct deltas := by
  obtain ⟨t, hrun, ht⟩ := exists_of_run_any (chatSession Unit).step (Pool.idle newSession) twoTurns
    (fun t => t.shared.completions.length == 3) (by decide +kernel)
  exact ⟨t, hrun, eq_of_beq ht, wellFormed_iff_clean hrun⟩

/-- The first list of the second turn has the call of the first turn and not its answer. -/
theorem second_turn_ill_formed : ¬ ∀ (ls : List (Label Unit Procedure Oracle Empty))
    (t : Pool Host Unit (World Unit) Procedure Exc Unit),
    run (chatSession Unit).step (Pool.idle newSession) ls = some t →
      ∀ c ∈ t.shared.completions, WellFormed c.messages := by
  intro h
  obtain ⟨t, hrun, ht⟩ := exists_of_run_any (chatSession Unit).step (Pool.idle newSession) twoTurns
    (fun t => t.shared.completions.any fun c => !decide (WellFormed c.messages)) (by decide +kernel)
  obtain ⟨c, hc, hbad⟩ := List.any_eq_true.mp ht
  exact absurd (h twoTurns t hrun c hc) (by simpa using hbad)

end Turns

end OpsSentry.Agent.Conversation
