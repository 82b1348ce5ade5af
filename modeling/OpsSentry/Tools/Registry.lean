import OpsSentry.Foundation.Dicts
import OpsSentry.Ledger.OpsLedger
import OpsSentry.Tools.Policy

/-! `ToolRegistry.dispatch` with its two default tools, over the ledger and the sandbox. -/

namespace OpsSentry.Tools

open Foundation.Dicts Foundation.PosixPath Foundation.Programs Foundation.Values

structure SandboxResult where
  exit_code : ℤ
  stdout : String
  stderr : String
  duration_ms : ℤ
  truncated : Bool
  sandbox_mode : String

def SandboxResult.toAuditRecord (r : SandboxResult) : Dict :=
  [("type", .str "sandbox_exec"), ("sandbox_mode", .str r.sandbox_mode), ("exit_code", .int r.exit_code),
    ("duration_ms", .int r.duration_ms), ("stdout_truncated", .bool r.truncated)]

inductive Exc
  | toolNotRegistered (tool_name : String)
  | toolDisabled (tool_name : String)
  | type
  | ledger (e : Ledger.Exc)
  | sandbox (message : String)

def Exc.text : Exc → String
  | .toolNotRegistered tool_name | .toolDisabled tool_name => tool_name
  | .type => "expected string or bytes-like object"
  | .ledger e => e.text
  | .sandbox message => message

structure Execution where
  command : String
  timeout_seconds : Value
  workdir : Value
  env : Value

inductive Command
  | ledger (c : Ledger.Command)
  | execute (x : Execution)

def Reply : Command → Type
  | .ledger c => Ledger.Reply c
  | .execute _ => Except Exc SandboxResult

abbrev Host : Interface := ⟨Command, Reply⟩

abbrev Code (α : Type) := Prog Host Exc α

def onLedger : Embedding Ledger.Database Host := ⟨.ledger, fun _ r => r⟩

def ledger {α : Type} (p : Ledger.Code α) : Code α := p.lift onLedger .ledger

def execute (x : Execution) : Code (Except Exc SandboxResult) := Prog.perform (I := Host) (.execute x)

inductive Outcome
  | blocked (reason : String)
  | pendingApproval (entry_id : String)
  | finished (result : SandboxResult) (error : Option String)
  | failed (error : String)

structure ToolRegistry where
  cwd : AbsPath
  enabled_groups : OrderedDict String Bool

def toolGroups : List (String × String) :=
  [("bash", "command_execution"), ("process", "command_execution"), ("list", "file_system"),
   ("read", "file_system"), ("grep", "file_system"), ("glob", "file_system"), ("ripgrep", "file_system"),
   ("write", "file_system"), ("edit", "file_system"), ("web_fetch", "network_probe"),
   ("cron", "cron_trigger"), ("question", "human_confirm"), ("memory_search", "memory_planning"),
   ("memory_get", "memory_planning"), ("task_create", "memory_planning"), ("task_get", "memory_planning"),
   ("task_update", "memory_planning"), ("task_list", "memory_planning"),
   ("sessions_spawn", "agent_collaboration"), ("sessions_list", "agent_collaboration"),
   ("sessions_history", "agent_collaboration"), ("sessions_send", "agent_collaboration"),
   ("mcp_call", "external_integration"), ("listen_gmail_reply", "notification"),
   ("unlisten_gmail", "notification")]

def getToolGroup (tool_name : String) : Option String := toolGroups.lookup tool_name

namespace ToolRegistry

variable (r : ToolRegistry)

/-- `not self.enabled_groups.get(group_name, True)`. -/
def disabled (tool_name : String) : Bool :=
  match getToolGroup tool_name with
  | some group_name => r.enabled_groups.get? group_name = some false
  | none => false

def createEntry (action : String) (metadata : Dict) : Code Ledger.LedgerEntry :=
  ledger (Ledger.createEntry action none none none (some metadata))

def permissionDenied (result : SandboxResult) : Option String :=
  if "permission denied".toList <:+: (lower result.stderr).toList then some "Permission denied detected"
  else none

def runSandboxed (x : Execution) (entry_id : String) : Code Outcome := do
  let result ← orThrow (← execute x)
  let _ ← ledger (Ledger.markCompleted entry_id (some result.toAuditRecord))
  pure (.finished result (permissionDenied result))

def dispatchSandbox (x : Execution) : Code Outcome := do
  let entry ← createEntry "sandbox_exec" [("tool", .str "bash"), ("command", .str x.command)]
  let _ ← ledger (Ledger.markRunning entry.id none)
  tryCatch (runSandboxed x entry.id) fun e => do
    let _ ← ledger (Ledger.markFailed entry.id e.text none)
    pure (.failed e.text)

def executionOf (command : String) (args : Dict) : Execution where
  command := command
  timeout_seconds := (args.lookup (.text "timeout")).getD (.int 30)
  workdir := (args.lookup (.text "workdir")).getD .null
  env := (args.lookup (.text "env")).getD .null

def dispatchCommand (tool_name command : String) (args : Dict) : Code Outcome := do
  if isGloballyDenied command then
    let _ ← createEntry "tool_policy_blocked"
      [("tool", .str tool_name), ("command", .str command), ("reason", .str "L1 Global Deny")]
    pure (.blocked "Security Violation: L1 Policy")
  else if requiresApproval r.cwd command then
    let entry ← createEntry "approval_required"
      [("tool", .str tool_name), ("command", .str command), ("reason", .str "L3 Path Approval")]
    pure (.pendingApproval entry.id)
  else dispatchSandbox (executionOf command args)

/-- A command that is no string makes the search of the first pattern raise. -/
def dispatch (tool_name : String) (args : Dict) : Code Outcome :=
  if tool_name ≠ "bash" ∧ tool_name ≠ "process" then throw (.toolNotRegistered tool_name)
  else if r.disabled tool_name then throw (.toolDisabled tool_name)
  else
    match (args.lookup (.text "command")).getD (.str "") with
    | .str command => r.dispatchCommand tool_name command args
    | _ => throw .type

end ToolRegistry

end OpsSentry.Tools
