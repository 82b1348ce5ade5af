import OpsSentry.Agent.AgentVM
import OpsSentry.Agent.SessionHistory
import OpsSentry.Foundation.Answers
import OpsSentry.Foundation.JsonLoads
import OpsSentry.Foundation.JsonRaw
import OpsSentry.Foundation.JsonValues
import OpsSentry.Tools.Registry

/-! The tool calls of `AgentVM.chat` with the answers that `json` and `ToolRegistry.dispatch` give. -/

namespace OpsSentry.Agent.ToolResults

open Foundation.JsonLoads Foundation.JsonText Foundation.JsonValues Foundation.Programs Foundation.Strings
open Foundation.Values
open Tools (ToolRegistry Outcome)

section Answers

variable {F : Type} (fl : Floats F)

def floatText : Number F → String
  | .finite x => String.ofList (fl.repr x)
  | .nan => "nan"
  | .infinity false => "inf"
  | .infinity true => "-inf"

/-- A string among the values, which has no surrogates here. -/
def text (s : Str) : String := String.ofList (s.map Char.ofNat)

mutual

/-- The object that `json.loads` makes. -/
def toValue : Json (Number F) → Value
  | .null => .null
  | .bool b => .bool b
  | .int n => .int n
  | .float x => .float (floatText fl x)
  | .str s => .str (text s)
  | .arr xs => .list (toValues xs)
  | .obj kvs => .dict (toFields kvs)

def toValues : List (Json (Number F)) → List Value
  | [] => []
  | x :: xs => toValue x :: toValues xs

def toFields : List (Str × Json (Number F)) → Dict
  | [] => []
  | (k, x) :: kvs => (.ofPoints k, toValue x) :: toFields kvs

end

variable {fl}

def jsonLoads (py : Interpreter fl) (arguments : String) : Except Exc Value :=
  match py.loads arguments.toList with
  | .ok x => .ok (toValue fl x)
  | .error .decode => .error .jsonDecode
  | .error .digits => .error (.other "Exceeds the limit (4300 digits) for integer string conversion")
  | .error .recursion => .error (.other "maximum recursion depth exceeded while decoding a JSON object")

/-- `json.dumps` with `ensure_ascii=False`. -/
def jsonDumps (fl : Floats F) (v : Value) : String := String.ofList (dumpsWith raw fl (toJson fl v))

/-- The dict that a handler or a policy check returns. -/
def resultData : Outcome → Value
  | .blocked reason => .dict [("blocked", .bool true), ("reason", .str reason)]
  | .pendingApproval entry_id => .dict [("pending_approval", .str entry_id)]
  | .finished result error =>
    let data : Dict := [("exit_code", .int result.exit_code), ("stdout", .str result.stdout),
      ("stderr", .str result.stderr), ("duration_ms", .int result.duration_ms), ("truncated", .bool result.truncated)]
    .dict (data ++ (error.map fun e => (.text "error", .str e)).toList)
  | .failed error => .dict [("error", .str error), ("exit_code", .int (-1))]

def answerOf : Except Tools.Exc Outcome → Except Exc Value
  | .ok outcome => .ok (resultData outcome)
  | .error e => .error (.other e.text)

/-- Arguments that are no `dict` have no `get`, but the name is checked before. -/
def withoutGet (r : ToolRegistry) (tool_name : String) : Exc :=
  if tool_name ≠ "bash" ∧ tool_name ≠ "process" ∨ r.disabled tool_name then .other tool_name
  else .other "object has no attribute 'get'"

/-- What the commands answer while no exception leaves a ledger call and the chunks are consumed. The
sandbox may raise. -/
def Answers (r : ToolRegistry) (py : Interpreter fl) : (c : Command) → Reply c → Prop
  | .loads arguments, reply => reply = jsonLoads py arguments
  | .dispatch tool_name (.dict args), reply => ∃ x, (r.dispatch tool_name args).CanEnd (fun _ _ => True) x ∧
      (∀ e, x ≠ .error (.ledger e)) ∧ reply = answerOf x
  | .dispatch tool_name _, reply => reply = .error (withoutGet r tool_name)
  | .dumps v, reply => reply = .ok (jsonDumps fl v)
  | .sendText _, reply => reply = .ok ()
  | .appendHistory _, reply => reply = .ok ()
  | _, _ => True

/-- One tool message for each call, in order. -/
def Appends (messages : List Message) (tool_calls : List ToolCall) (x : Except Exc (List Message)) : Prop :=
  ∃ added, x = .ok (messages ++ added) ∧
    List.Forall₂ (fun tc m => ∃ content, m = .tool tc.id tc.name content) tool_calls added

def commandOf (kvs : List (Str × Json (Number F))) : Json (Number F) := (kvs.lookup (str "command")).getD (.str [])

/-- A registered tool that is not disabled, with arguments that are an object whose command is a string,
or that are malformed. -/
def Fine (r : ToolRegistry) (py : Interpreter fl) (tc : ToolCall) : Prop :=
  (tc.name = "bash" ∨ tc.name = "process") ∧ r.disabled tc.name = false ∧
    match py.loads tc.arguments.toList with
    | .ok (.obj kvs) => ∃ command, commandOf kvs = .str command
    | .ok _ => False
    | .error e => e = .decode

end Answers

section Dispatch

open Ledger (LedgerEntry)

variable {r : ToolRegistry} {tool_name command : String} {args : Dict} {α : Type}

/-- An end that is no exception other than one of the ledger. -/
def Settles (x : Except Tools.Exc α) : Prop := (∃ a, x = .ok a) ∨ ∃ e, x = .error (.ledger e)

lemma endsIn_any {I : Interface} {ε : Type} {R : (c : I.Command) → I.Reply c → Prop} {Q : Except ε α → Prop}
    (h : ∀ x, Q x) (p : Prog I ε α) : p.EndsIn R Q := by
  induction p with
  | ret a => exact h _
  | raise e => exact h _
  | again => trivial
  | call c k ih => exact fun r _ => ih r

lemma ledger_settles (p : Ledger.Code α) : (Tools.ledger p).EndsIn (fun _ _ => True) Settles := by
  apply Prog.EndsIn.lift
  apply endsIn_any
  intro x
  cases x with
  | ok a => exact Or.inl ⟨a, rfl⟩
  | error e => exact Or.inr ⟨e, rfl⟩

lemma ledger_bind_settles {p : Ledger.Code α} {β : Type} {f : α → Tools.Code β}
    (h : ∀ a, (f a).EndsIn (fun _ _ => True) Settles) : (Tools.ledger p >>= f).EndsIn (fun _ _ => True) Settles := by
  apply Prog.EndsIn.bind
  refine (ledger_settles p).mono fun x hx => ?_
  rcases hx with ⟨a, rfl⟩ | ⟨e, rfl⟩
  · exact h a
  · exact Or.inr ⟨e, rfl⟩

lemma dispatchSandbox_settles (x : Tools.Execution) :
    (ToolRegistry.dispatchSandbox x).EndsIn (fun _ _ => True) Settles := by
  apply ledger_bind_settles
  intro entry
  apply ledger_bind_settles
  intro _
  apply Prog.EndsIn.handle
  apply endsIn_any
  intro y
  cases y with
  | ok outcome => exact Or.inl ⟨outcome, rfl⟩
  | error e =>
    apply ledger_bind_settles
    intro _
    exact Or.inl ⟨_, rfl⟩

lemma dispatch_eq (hname : tool_name = "bash" ∨ tool_name = "process")
    (henabled : r.disabled tool_name = false)
    (hcommand : (args.lookup (.text "command")).getD (.str "") = .str command) :
    r.dispatch tool_name args = r.dispatchCommand tool_name command args := by
  have hregistered : ¬ (tool_name ≠ "bash" ∧ tool_name ≠ "process") := by
    rintro ⟨hbash, hprocess⟩
    exact hname.elim hbash hprocess
  rw [ToolRegistry.dispatch, if_neg hregistered, henabled]
  simp [hcommand]

lemma dispatchCommand_settles (r : ToolRegistry) (tool_name command : String) (args : Dict) :
    (r.dispatchCommand tool_name command args).EndsIn (fun _ _ => True) Settles := by
  rw [ToolRegistry.dispatchCommand]
  split
  · exact ledger_bind_settles fun _ => Or.inl ⟨_, rfl⟩
  · split
    · exact ledger_bind_settles fun _ => Or.inl ⟨_, rfl⟩
    · exact dispatchSandbox_settles _

end Dispatch

section Runs

open Ledger (LedgerEntry)

variable {r : ToolRegistry} {tool_name command : String} {args : Dict} {α : Type}

lemma createEntry_canEnd (action : String) (metadata : Dict) (e : LedgerEntry) :
    (Ledger.createEntry action none none none (some metadata)).CanEnd (fun _ _ => True) (.ok e) :=
  ⟨"", trivial, .ok none, trivial, (0 : Int64), trivial, (0 : Int64), trivial, .ok (), trivial, .ok (some e), trivial, rfl⟩

lemma transitionTo_canEnd (entry_id : Foundation.Strings.PyStr) (status : Ledger.Status) (checkpoint : Option Dict)
    (error : Option Foundation.Strings.PyStr) (e : LedgerEntry) : (Ledger.transitionTo entry_id status checkpoint error).CanEnd (fun _ _ => True) (.ok e) :=
  ⟨(0 : Int64), trivial, .ok true, trivial, .ok (some e), trivial, rfl⟩

lemma ledger_canEnd {p : Ledger.Code α} {a : α} (h : p.CanEnd (fun _ _ => True) (.ok a)) :
    (Tools.ledger p).CanEnd (fun _ _ => True) (.ok a) :=
  Prog.CanEnd.lift (fun _ y _ => ⟨y, rfl, trivial⟩) h

/-- A row and a result for the calls to give. -/
def someEntry : LedgerEntry := ⟨"", "", .pending, [], 0, 0, none, [], none⟩

def someResult : Tools.SandboxResult := ⟨0, "", "", 0, false, ""⟩

lemma dispatchSandbox_canEnd (x : Tools.Execution) :
    ∃ outcome, (ToolRegistry.dispatchSandbox x).CanEnd (fun _ _ => True) (.ok outcome) := by
  refine ⟨.finished someResult (ToolRegistry.permissionDenied someResult),
    Prog.CanEnd.bind (ledger_canEnd (createEntry_canEnd _ _ someEntry)) ?_⟩
  refine Prog.CanEnd.bind (ledger_canEnd (transitionTo_canEnd _ _ _ _ someEntry)) ?_
  apply Prog.CanEnd.handle
  refine ⟨.ok someResult, trivial, ?_⟩
  change Prog.CanEnd _ _ (Tools.ledger (Ledger.markCompleted someEntry.id _) >>= fun _ => _)
  exact Prog.CanEnd.bind (ledger_canEnd (transitionTo_canEnd _ _ _ _ someEntry)) rfl

lemma dispatchCommand_canEnd (r : ToolRegistry) (tool_name command : String) (args : Dict) :
    ∃ outcome, (r.dispatchCommand tool_name command args).CanEnd (fun _ _ => True) (.ok outcome) := by
  rw [ToolRegistry.dispatchCommand]
  split
  · exact ⟨_, Prog.CanEnd.bind (ledger_canEnd (createEntry_canEnd _ _ someEntry)) rfl⟩
  · split
    · exact ⟨_, Prog.CanEnd.bind (ledger_canEnd (createEntry_canEnd _ _ someEntry)) rfl⟩
    · exact dispatchSandbox_canEnd _

end Runs

section Arguments

variable {F : Type} {fl : Floats F} {py : Interpreter fl} {kvs : List (Str × Json (Number F))}
  {x : Json (Number F)}
  {s : Str} {r : ToolRegistry} {tc : ToolCall}

lemma ofPoints_eq_command_iff : PyStr.ofPoints s = .text "command" ↔ s = str "command" := by
  constructor
  · intro h
    rw [PyStr.ofPoints] at h
    split at h
    · cases h
    have hchars : s.map Char.ofNat = "command".toList :=
      String.ofList_injective ((PyStr.text.inj h).trans (by decide))
    have hvalid : ∀ c ∈ s, c.isValidChar := by
      intro c hc
      by_contra hinvalid
      have hzero : Char.ofNat c = '\x00' := dif_neg hinvalid
      have hmem : '\x00' ∈ "command".toList := by
        rw [← hzero, ← hchars]
        exact List.mem_map_of_mem hc
      exact absurd hmem (by decide)
    have hback : s.map (Char.toNat ∘ Char.ofNat) = s.map id := List.map_congr_left fun c hc => toNat_ofNat (hvalid c hc)
    rw [str, ← hchars, List.map_map, hback, List.map_id]
  · rintro rfl
    exact PyStr.ofPoints_points (.text "command")

lemma lookup_toFields (kvs : List (Str × Json (Number F))) :
    (toFields fl kvs).lookup (.text "command") = (kvs.lookup (str "command")).map (toValue fl) := by
  induction kvs with
  | nil => rfl
  | cons p kvs ih =>
    obtain ⟨k, x⟩ := p
    rw [toFields, List.lookup_cons, List.lookup_cons, ih]
    by_cases hk : str "command" = k
    · have hkey : PyStr.ofPoints k = .text "command" := ofPoints_eq_command_iff.mpr hk.symm
      simp [hk, hkey]
    · have hkey : (.text "command" == PyStr.ofPoints k) = false := by
        rw [beq_eq_false_iff_ne]
        exact fun h => hk (ofPoints_eq_command_iff.mp h.symm).symm
      rw [hkey, beq_eq_false_iff_ne.mpr hk]

lemma toValue_eq_str_iff : (∃ command, toValue fl x = .str command) ↔ ∃ s, x = .str s := by
  cases x <;> simp [toValue]

/-- A registered tool that is not disabled, with a `dict` whose command is a string. -/
def Callable (r : ToolRegistry) (tool_name : String) (args : Value) : Prop :=
  (tool_name = "bash" ∨ tool_name = "process") ∧ r.disabled tool_name = false ∧
    ∃ kvs command, args = .dict kvs ∧ (kvs.lookup (.text "command")).getD (.str "") = .str command

lemma command_toFields_iff (kvs : List (Str × Json (Number F))) :
    (∃ command, ((toFields fl kvs).lookup (.text "command")).getD (.str "") = .str command) ↔ ∃ s, commandOf kvs = .str s := by
  rw [lookup_toFields, commandOf]
  cases kvs.lookup (str "command") with
  | none => exact iff_of_true ⟨"", rfl⟩ ⟨[], rfl⟩
  | some x => exact toValue_eq_str_iff

lemma fine_iff : Fine r py tc ↔
    match jsonLoads py tc.arguments with
    | .ok args => Callable r tc.name args
    | .error .jsonDecode => Callable r tc.name (.dict [])
    | .error _ => False := by
  rw [Fine, jsonLoads]
  cases py.loads tc.arguments.toList with
  | error e =>
    cases e with
    | decode =>
      refine and_congr_right fun _ => and_congr_right fun _ => iff_of_true rfl ⟨[], "", rfl, rfl⟩
    | digits => simp
    | recursion => simp
  | ok x =>
    cases x with
    | obj kvs =>
      refine and_congr_right fun _ => and_congr_right fun _ => ?_
      refine (@command_toFields_iff F fl kvs).symm.trans ?_
      constructor
      · rintro ⟨command, h⟩
        exact ⟨_, command, rfl, h⟩
      · rintro ⟨_, command, heq, h⟩
        cases heq
        exact ⟨command, h⟩
    | _ =>
      refine and_congr_right fun _ => and_congr_right fun _ => iff_of_false id ?_
      rintro ⟨kvs, command, heq, -⟩
      cases heq

lemma dispatch_raises {tool_name : String} {kvs : Dict} (h : ¬ Callable r tool_name (.dict kvs)) :
    ∃ e, r.dispatch tool_name kvs = throw e ∧ ∀ l, e ≠ .ledger l := by
  rw [ToolRegistry.dispatch]
  split
  · exact ⟨_, rfl, by simp⟩
  · rename_i hname
    split
    · exact ⟨_, rfl, by simp⟩
    · rename_i henabled
      split
      · rename_i command hcommand
        refine (h ⟨?_, by simpa using henabled, kvs, command, rfl, hcommand⟩).elim
        by_contra hne
        exact hname (not_or.mp hne)
      · exact ⟨_, rfl, by simp⟩

/-- A call that raises does so whatever the ledger and the sandbox answer. -/
lemma exists_error {args : Value} (h : ¬ Callable r tc.name args) :
    ∃ e, Answers r py (.dispatch tc.name args) (.error e) := by
  cases args with
  | dict kvs =>
    obtain ⟨e, hraises, hledger⟩ := dispatch_raises h
    refine ⟨_, .error e, ?_, fun l hl => hledger l (Except.error.inj hl), rfl⟩
    rw [hraises]
    rfl
  | _ => exact ⟨_, rfl⟩

lemma answer_ok {args : Value} (h : Callable r tc.name args) {reply : Except Exc Value}
    (hreply : Answers r py (.dispatch tc.name args) reply) : ∃ v, reply = .ok v := by
  obtain ⟨hname, henabled, kvs, command, rfl, hcommand⟩ := h
  obtain ⟨x, hx, hledger, rfl⟩ := hreply
  rw [dispatch_eq hname henabled hcommand] at hx
  rcases (dispatchCommand_settles r tc.name command kvs).of_canEnd hx with ⟨outcome, rfl⟩ | ⟨e, rfl⟩
  · exact ⟨_, rfl⟩
  · exact (hledger e rfl).elim

lemma exists_ok {args : Value} (h : Callable r tc.name args) :
    ∃ v, Answers r py (.dispatch tc.name args) (.ok v) := by
  obtain ⟨hname, henabled, kvs, command, rfl, hcommand⟩ := h
  obtain ⟨outcome, houtcome⟩ := dispatchCommand_canEnd r tc.name command kvs
  exact ⟨_, .ok outcome, by rwa [dispatch_eq hname henabled hcommand], by simp, rfl⟩

end Arguments

section Loop

variable {F : Type} {fl : Floats F} {py : Interpreter fl} {r : ToolRegistry} {tc : ToolCall}
  {tcs : List ToolCall}
  {messages : List Message} {Q : Except Exc (List Message) → Prop}

/-- The call behind its arguments. -/
def runCall (messages : List Message) (tc : ToolCall) (tcs : List ToolCall) (args : Value) : Code (List Message) := do
  yieldChunk (.tool_call tc.name args)
  let result_data ← orThrow (← dispatch tc.name args)
  let result_str ← orThrow (← dumps result_data)
  yieldChunk (.tool_result tc.name result_data)
  runTools (messages ++ [.tool tc.id tc.name result_str]) tcs

lemma endsIn_runTools_iff : (runTools messages (tc :: tcs)).EndsIn (Answers r py) Q ↔
    match jsonLoads py tc.arguments with
    | .ok args => (runCall messages tc tcs args).EndsIn (Answers r py) Q
    | .error .jsonDecode => (runCall messages tc tcs (.dict [])).EndsIn (Answers r py) Q
    | .error e => Q (.error e) := by
  have hcall : (runTools messages (tc :: tcs)).EndsIn (Answers r py) Q ↔ ∀ reply, reply = jsonLoads py tc.arguments →
      ((match reply with
        | .ok args => pure args
        | .error .jsonDecode => pure (.dict [])
        | .error e => throw e : Code Value) >>= runCall messages tc tcs).EndsIn (Answers r py) Q := Iff.rfl
  rw [hcall, forall_eq]
  cases jsonLoads py tc.arguments with
  | ok args => exact Iff.rfl
  | error e => cases e <;> exact Iff.rfl

/-- A chunk that is no message is sent and changes nothing. -/
lemma endsIn_yieldChunk_iff {chunk : Chunk} {k : Code (List Message)} (h : ∀ m, chunk ≠ .message m) :
    (yieldChunk chunk >>= fun _ => k).EndsIn (Answers r py) Q ↔ k.EndsIn (Answers r py) Q := by
  cases chunk with
  | message m => exact (h m rfl).elim
  | _ =>
    exact @forall_eq _ (fun u => ((orThrow u >>= fun _ => pure ()) >>= fun _ => k).EndsIn (Answers r py) Q) (.ok ())

lemma endsIn_dumps_iff {v : Value} {k : String → Code (List Message)} :
    (dumps v >>= fun s => orThrow s >>= k).EndsIn (Answers r py) Q ↔ (k (jsonDumps fl v)).EndsIn (Answers r py) Q := by
  have hcall : (dumps v >>= fun s => orThrow s >>= k).EndsIn (Answers r py) Q ↔
      ∀ s, s = .ok (jsonDumps fl v) → (orThrow s >>= k).EndsIn (Answers r py) Q := Iff.rfl
  rw [hcall, forall_eq]
  exact Iff.rfl

lemma endsIn_runCall_iff {args : Value} : (runCall messages tc tcs args).EndsIn (Answers r py) Q ↔
    ∀ reply, Answers r py (.dispatch tc.name args) reply →
      match reply with
      | .ok v => (runTools (messages ++ [.tool tc.id tc.name (jsonDumps fl v)]) tcs).EndsIn (Answers r py) Q
      | .error e => Q (.error e) := by
  rw [runCall, endsIn_yieldChunk_iff (by simp)]
  refine forall_congr' fun reply => imp_congr_right fun _ => ?_
  cases reply with
  | error e => exact Iff.rfl
  | ok v => exact endsIn_dumps_iff.trans (endsIn_yieldChunk_iff (by simp))

/-- A call that is fine is answered and the loop goes on behind it. -/
lemma endsIn_cons_of_fine (h : Fine r py tc)
    (hrest : ∀ content, (runTools (messages ++ [.tool tc.id tc.name content]) tcs).EndsIn (Answers r py) Q) :
    (runTools messages (tc :: tcs)).EndsIn (Answers r py) Q := by
  have hcall : ∀ args, Callable r tc.name args → (runCall messages tc tcs args).EndsIn (Answers r py) Q := by
    intro args hargs
    rw [endsIn_runCall_iff]
    intro reply hreply
    obtain ⟨v, rfl⟩ := answer_ok hargs hreply
    exact hrest _
  rw [fine_iff] at h
  rw [endsIn_runTools_iff]
  cases hjson : jsonLoads py tc.arguments with
  | ok args =>
    rw [hjson] at h
    exact hcall args h
  | error e =>
    rw [hjson] at h
    cases e with
    | jsonDecode => exact hcall _ h
    | _ => exact h.elim

lemma Appends.cons {content : String} {x : Except Exc (List Message)}
    (h : Appends (messages ++ [.tool tc.id tc.name content]) tcs x) : Appends messages (tc :: tcs) x := by
  obtain ⟨added, rfl, hadded⟩ := h
  exact ⟨_ :: added, by simp, List.Forall₂.cons ⟨content, rfl⟩ hadded⟩

lemma appends_of_fine (h : ∀ tc ∈ tcs, Fine r py tc) :
    (runTools messages tcs).EndsIn (Answers r py) (Appends messages tcs) := by
  induction tcs generalizing messages with
  | nil => exact ⟨[], by simp, List.Forall₂.nil⟩
  | cons tc tcs ih =>
    apply endsIn_cons_of_fine (h tc List.mem_cons_self)
    intro content
    exact (ih fun tc htc => h tc (List.mem_cons_of_mem _ htc)).mono fun x hx => hx.cons

/-- Where no call raises, each is fine. -/
lemma fine_of_endsIn (h : (runTools messages tcs).EndsIn (Answers r py) fun x => ∃ ms, x = .ok ms) :
    ∀ tc ∈ tcs, Fine r py tc := by
  induction tcs generalizing messages with
  | nil => exact List.forall_mem_nil _
  | cons tc tcs ih =>
    have hcall : ∀ args, (runCall messages tc tcs args).EndsIn (Answers r py) (fun x => ∃ ms, x = .ok ms) →
        Callable r tc.name args ∧ ∀ tc ∈ tcs, Fine r py tc := by
      intro args hargs
      rw [endsIn_runCall_iff] at hargs
      have hcallable : Callable r tc.name args := by
        by_contra hnot
        obtain ⟨e, he⟩ := @exists_error F fl py r tc args hnot
        obtain ⟨ms, hms⟩ := hargs _ he
        cases hms
      obtain ⟨v, hv⟩ := @exists_ok F fl py r tc args hcallable
      exact ⟨hcallable, ih (hargs _ hv)⟩
    rw [endsIn_runTools_iff] at h
    rw [List.forall_mem_cons, fine_iff]
    cases hjson : jsonLoads py tc.arguments with
    | ok args =>
      rw [hjson] at h
      exact hcall args h
    | error e =>
      rw [hjson] at h
      cases e with
      | jsonDecode => exact hcall _ h
      | _ =>
        obtain ⟨ms, hms⟩ := h
        cases hms

end Loop

theorem tool_calls_answered_iff {F : Type} {fl : Floats F} (r : ToolRegistry) (py : Interpreter fl)
    (messages : List Message) (tool_calls : List ToolCall) :
    (runTools messages tool_calls).EndsIn (Answers r py) (Appends messages tool_calls) ↔
      ∀ tc ∈ tool_calls, Fine r py tc := by
  constructor
  · intro h
    apply fine_of_endsIn
    exact h.mono fun x ⟨added, hx, _⟩ => ⟨_, hx⟩
  · exact appends_of_fine

section Sample

lemma finite_unit (x : Unit) : Number.finite () = Number.finite x := rfl

lemma two_le_two : 2 ≤ 2 := le_refl 2

def zerosInterpreter : Interpreter History.zeros where
  float _ := .finite ()
  float_repr := finite_unit
  limit := 2
  room := two_le_two

def unknownTool : ToolCall := ⟨some "call_1", "read_file", "\x7b\x7d"⟩

/-- No tool has that name. -/
theorem unknown_tool_aborts :
    ¬ (runTools [] [unknownTool]).EndsIn (Answers ⟨.root, .empty⟩ zerosInterpreter) (Appends [] [unknownTool]) := by
  intro h
  have hfine : Fine ⟨.root, .empty⟩ zerosInterpreter unknownTool := by
    apply @fine_of_endsIn _ _ zerosInterpreter ⟨.root, .empty⟩ [unknownTool] []
    · exact h.mono fun x ⟨added, hx, _⟩ => ⟨_, hx⟩
    · exact List.mem_cons_self
  exact absurd hfine.1 (by decide)

end Sample

end OpsSentry.Agent.ToolResults
