import OpsSentry.Agent.ToolPermissions
import OpsSentry.Cron.Engine
import OpsSentry.Tools.Registry

/-! `CronEngine._execute_payload`: the tool that a job calls, and the tool groups of its agent. -/

namespace OpsSentry.Cron

open Agent.Manager Foundation.Dicts Foundation.PosixPath Foundation.Programs Foundation.Values Tools

def groupsOf (tools : Agent.Manager.Tools) : OrderedDict String Bool where
  items := Group.all.map fun g => (g.text, tools g)
  nodup := by
    rw [List.map_map]
    change (Group.all.map Group.text).Nodup
    decide +kernel

section Payloads

variable {K : Type} (py : Builtins) (place : CoreDir → K) (cwd : AbsPath) (s : Store K) (job : CronJob)

def profileOf (did : String) : Except Agent.Manager.Exc AgentProfile :=
  (perform (getAgent py place (.str job.uid) (.str did)) s).1

/-- Without a profile the registry gets no groups at all. -/
def enabledGroups : OrderedDict String Bool :=
  match job.did with
  | none => .empty
  | some did =>
    if did = "" then .empty
    else
      match profileOf py place s job did with
      | .ok profile => groupsOf profile.tools
      | .error _ => .empty

def toolOf (payload : Payload) : Option (Option String × Dict) :=
  if payload.kind = "command" then some (some "bash", [("command", optional .str payload.command)])
  else if payload.kind = "tool" then some (payload.tool, payload.args.getD [])
  else none

/-- The branches for payloads of kind `command` and `tool`. -/
def executePayload : Option (Tools.Code Outcome) :=
  (toolOf job.payload).map fun tool =>
    match tool.1 with
    | none => throw (.toolNotRegistered "None")
    | some tool_name => (⟨cwd, enabledGroups py place s job⟩ : ToolRegistry).dispatch tool_name tool.2

end Payloads

section Dispatch

variable {r : ToolRegistry} {tool_name command : String} {args : Dict} {α : Type}

def Sandboxed : Host.Command → Prop
  | .execute _ => True
  | .ledger _ => False

/-- A shell tool whose command passes the two policy checks. -/
def Runnable (cwd : AbsPath) (tool_name : String) (args : Dict) : Prop :=
  (tool_name = "bash" ∨ tool_name = "process") ∧
    ∃ command, (args.lookup (.text "command")).getD (.str "") = .str command ∧
      isGloballyDenied command = false ∧ requiresApproval cwd command = false

lemma ledger_issues (p : Ledger.Code α) : (Tools.ledger p).Issues fun c => ¬ Sandboxed c :=
  Prog.Issues.lift (Prog.issues_of_forall (fun _ => id) p)

lemma recorded_not_reaches {action : String} {metadata : Dict} {f : Ledger.LedgerEntry → Outcome} :
    ¬ Prog.Reaches Sandboxed (do
      let entry ← ToolRegistry.createEntry action metadata
      pure (f entry) : Tools.Code Outcome) :=
  Prog.not_reaches_of_issues ((ledger_issues _).bind fun _ => trivial)

lemma nonempty_entry : Nonempty Ledger.LedgerEntry :=
  ⟨{ id := "e-1", action := "", status := .pending, checkpoint := [], created_at := 0, updated_at := 0,
     accio_ref := none, metadata := [], last_error := none }⟩

lemma createEntry_reaches {action : String} {metadata : Dict} {k : Ledger.LedgerEntry → Tools.Code α}
    (h : ∀ e, (k e).Reaches Sandboxed) : (ToolRegistry.createEntry action metadata >>= k).Reaches Sandboxed := by
  refine Prog.Reaches.after "e-1" (Prog.Reaches.after (.ok none) ?_)
  refine Prog.Reaches.after (0 : Int64) (Prog.Reaches.after (0 : Int64) ?_)
  obtain ⟨e⟩ := nonempty_entry
  exact Prog.Reaches.after (.ok ()) (Prog.Reaches.after (.ok (some e)) (h e))

lemma markRunning_reaches {entry_id : String} {k : Ledger.LedgerEntry → Tools.Code α}
    (h : ∀ e, (k e).Reaches Sandboxed) :
    (Tools.ledger (Ledger.markRunning entry_id none) >>= k).Reaches Sandboxed := by
  have hrun : Ledger.markRunning entry_id none = Ledger.transitionTo entry_id .running none none :=
    Ledger.transition_text entry_id .running none none
  obtain ⟨e⟩ := nonempty_entry
  rw [hrun]
  exact Prog.Reaches.after (0 : Int64) (Prog.Reaches.after (.ok true) (Prog.Reaches.after (.ok (some e)) (h e)))

lemma dispatchSandbox_reaches (x : Execution) : (ToolRegistry.dispatchSandbox x).Reaches Sandboxed :=
  createEntry_reaches fun _ => markRunning_reaches fun _ => Or.inl trivial

lemma dispatchCommand_reaches_iff : (r.dispatchCommand tool_name command args).Reaches Sandboxed ↔
    isGloballyDenied command = false ∧ requiresApproval r.cwd command = false := by
  rw [ToolRegistry.dispatchCommand]
  cases isGloballyDenied command with
  | true => simpa using recorded_not_reaches
  | false =>
    cases requiresApproval r.cwd command with
    | true => simpa using recorded_not_reaches
    | false => simpa using dispatchSandbox_reaches _

lemma dispatch_reaches_iff :
    (r.dispatch tool_name args).Reaches Sandboxed ↔ Runnable r.cwd tool_name args ∧ r.disabled tool_name = false := by
  rw [ToolRegistry.dispatch, Runnable]
  by_cases hshell : tool_name = "bash" ∨ tool_name = "process"
  · rw [if_neg (by tauto)]
    cases hdisabled : r.disabled tool_name with
    | true => simp [Prog.Reaches]
    | false =>
      rw [if_neg (by simp)]
      cases (args.lookup (.text "command")).getD (.str "") with
      | str command => simpa [hshell] using dispatchCommand_reaches_iff
      | _ => simp [Prog.Reaches]
  · rw [if_pos (by tauto)]
    simp [hshell, Prog.Reaches]

end Dispatch

section Rights

variable {K : Type} {py : Builtins} {place : CoreDir → K} {cwd : AbsPath} {s : Store K} {job : CronJob}
  {did : String}

/-- If the payload gets as far as a tool handler, `get_agent` has returned a profile, and the profile
does not disable the tool. -/
def KeepsRights (py : Builtins) (place : CoreDir → K) (cwd : AbsPath) (s : Store K) (job : CronJob) (did : String) :
    Prop :=
  ∀ code, executePayload py place cwd s job = some code → code.Reaches Sandboxed →
    ∃ profile tool_name args, profileOf py place s job did = .ok profile ∧
      toolOf job.payload = some (some tool_name, args) ∧
      (⟨cwd, groupsOf profile.tools⟩ : ToolRegistry).disabled tool_name = false

/-- The call of the payload gets to a handler unless its tool is disabled. -/
def CallsRunnable (cwd : AbsPath) (payload : Payload) : Prop :=
  ∃ tool_name args, toolOf payload = some (some tool_name, args) ∧ Runnable cwd tool_name args

lemma disabled_empty (tool_name : String) : (⟨cwd, .empty⟩ : ToolRegistry).disabled tool_name = false := by
  rw [ToolRegistry.disabled]
  split <;> rfl

lemma profileOf_ne_empty {profile : AgentProfile} (h : profileOf py place s job did = .ok profile) : did ≠ "" := by
  rintro rfl
  cases hresolve : resolveAgentCoreDir py place (.str job.uid) (.str "") s with
  | error e =>
    rw [profileOf, getAgent, perform_reads_error hresolve] at h
    cases h
  | ok core_dir =>
    obtain ⟨uid, -, hresolve⟩ := bind_ok hresolve
    obtain ⟨normalized, hdid, -⟩ := bind_ok hresolve
    obtain ⟨text, htext, -⟩ := bind_ok hdid
    obtain ⟨hstrip, hne⟩ := requireNonEmpty_ok htext
    rw [py.str_str] at hstrip
    exact hne (hstrip.symm.trans rfl)

lemma enabledGroups_ok {profile : AgentProfile} (hdid : job.did = some did)
    (h : profileOf py place s job did = .ok profile) : enabledGroups py place s job = groupsOf profile.tools := by
  simp only [enabledGroups, hdid, if_neg (profileOf_ne_empty h), h]

lemma enabledGroups_error {e : Agent.Manager.Exc} (hdid : job.did = some did)
    (h : profileOf py place s job did = .error e) : enabledGroups py place s job = .empty := by
  simp only [enabledGroups, hdid, h]
  exact ite_self _

lemma executePayload_reaches_iff :
    (∃ code, executePayload py place cwd s job = some code ∧ code.Reaches Sandboxed) ↔
    ∃ tool_name args, toolOf job.payload = some (some tool_name, args) ∧ Runnable cwd tool_name args ∧
      (⟨cwd, enabledGroups py place s job⟩ : ToolRegistry).disabled tool_name = false := by
  rw [executePayload]
  cases htool : toolOf job.payload with
  | none => simp
  | some tool =>
    obtain ⟨_ | tool_name, args⟩ := tool
    · simp [Prog.Reaches]
    · simp [dispatch_reaches_iff]

lemma not_keepsRights (hdid : job.did = some did)
    (hprofile : ¬ ∃ profile, profileOf py place s job did = .ok profile)
    (hcall : CallsRunnable cwd job.payload) : ¬ KeepsRights py place cwd s job did := by
  intro h
  obtain ⟨tool_name, args, htool, hrun⟩ := hcall
  cases hp : profileOf py place s job did with
  | ok profile => exact hprofile ⟨profile, hp⟩
  | error e =>
    have hopen : (⟨cwd, enabledGroups py place s job⟩ : ToolRegistry).disabled tool_name = false := by
      rw [enabledGroups_error hdid hp]
      exact disabled_empty tool_name
    obtain ⟨code, hcode, hreach⟩ := executePayload_reaches_iff.mpr ⟨tool_name, args, htool, hrun, hopen⟩
    obtain ⟨profile, -, -, hok, -⟩ := h code hcode hreach
    exact hprofile ⟨profile, hok⟩

def uptime : CronJob :=
  { id := "a", name := "uptime", schedule := { kind := "every", everyMs := some 60000 },
    payload := { kind := "command", command := some "uptime" }, uid := "u1", did := some "DID-1", created_at := 0 }

def created : Store (String × String) := (perform (creation.exec plain accounts) fun _ => none).2

end Rights

end OpsSentry.Cron
