import OpsSentry.Foundation.PosixPath
import OpsSentry.Foundation.Text
import OpsSentry.Foundation.Values
import Mathlib.Logic.Function.Basic

/-! `agent_manager.py`: the profile of an agent in `agent_config.json`, its tool groups once more in
`tool-registry.jsonc`, and the calls that write the two files. -/

namespace OpsSentry.Agent.Manager

open Foundation.PosixPath Foundation.Strings Foundation.Text Foundation.Values

inductive Exc
  | agentNotFound (did : String)
  | agentAlreadyExists (did : String)
  | invalidAgentConfig (message : String)
  | invalidCoreFile (message : String)
  | invalidToolRegistry (message : String)
  | invalidSkillBinding (message : String)
  | missingJsonFile (name : String)
  | jsonDecode
  | key (name : String)
  | type
  | value
deriving DecidableEq

/-- `str`, `int` and `str.upper`, with what the manager relies on. -/
structure Builtins where
  str : Value → String
  int : Value → Except Exc ℤ
  upper : String → String
  str_str : ∀ s, str (.str s) = s
  int_int : ∀ n, int (.int n) = .ok n
  upper_upper : ∀ s, upper (upper s) = upper s
  upper_ascii : ∀ s, (∀ c ∈ s.toList, c.toNat < 128 ∧ c.toUpper = c) → upper s = s
  strip_upper : ∀ s, strip s = s → strip (upper s) = upper s

inductive Group
  | file_system
  | command_execution
  | network_probe
  | cron_trigger
  | human_confirm
  | memory_planning
  | agent_collaboration
  | external_integration
  | notification
deriving DecidableEq

namespace Group

def all : List Group :=
  [file_system, command_execution, network_probe, cron_trigger, human_confirm, memory_planning,
   agent_collaboration, external_integration, notification]

def text : Group → String
  | file_system => "file_system"
  | command_execution => "command_execution"
  | network_probe => "network_probe"
  | cron_trigger => "cron_trigger"
  | human_confirm => "human_confirm"
  | memory_planning => "memory_planning"
  | agent_collaboration => "agent_collaboration"
  | external_integration => "external_integration"
  | notification => "notification"

def ofKey? : Value → Option Group
  | .str key => all.find? fun g => g.text = key
  | _ => none

end Group

def DEFAULT_TOOL_GROUPS : Group → List String
  | .file_system => ["list", "read", "grep", "glob", "ripgrep", "write", "edit"]
  | .command_execution => ["bash", "process"]
  | .network_probe => ["web_fetch"]
  | .cron_trigger => ["cron"]
  | .human_confirm => ["question"]
  | .memory_planning => ["memory_search", "memory_get", "task_create", "task_get", "task_update", "task_list"]
  | .agent_collaboration => ["sessions_spawn", "sessions_list", "sessions_history", "sessions_send"]
  | .external_integration => ["mcp_call"]
  | .notification => ["listen_gmail_reply", "unlisten_gmail"]

abbrev Tools := Group → Bool

def DEFAULT_TOOL_ENABLEMENT : Tools
  | .human_confirm => false
  | _ => true

def DEFAULT_DENIED_TOOLS : List String :=
  ["product_supplier_search", "image_generate", "image_edit", "see_image", "web_search", "get_weather",
   "get_location"]

def toolsValue (tools : Tools) : Value := .dict (Group.all.map fun g => (g.text, .bool (tools g)))

def CORE_FILE_NAMES : List String := ["SOUL.md", "IDENTITY.md", "AGENTS.md", "MEMORY.md", "USER.md"]
def VALID_VIBES : List String := ["professional", "expert", "balance"]
def VALID_MODEL_PROVIDERS : List String := ["claude", "openai", "qwen", "moonshot", "zhipu", "minimax", "auto"]

section Validation

/-- One element of the sequence that `dict` is given. -/
def dictItem : Value → Except Exc (Value × Value)
  | .list [.list _, _] => .error .type
  | .list [.dict _, _] => .error .type
  | .list [k, v] => .ok (k, v)
  | .list _ => .error .value
  | .str s =>
    match s.toList with
    | [a, b] => .ok (.str (String.ofList [a]), .str (String.ofList [b]))
    | _ => .error .value
  | .dict [(k, _), (l, _)] => .ok (.ofStr k, .ofStr l)
  | .dict _ => .error .value
  | _ => .error .type

/-- `dict(value).items()`. -/
def dictItems : Value → Except Exc (List (Value × Value))
  | .dict kvs => .ok (kvs.map fun p => (.ofStr p.1, p.2))
  | .list xs => xs.mapM dictItem
  | .str s => if s = "" then .ok [] else .error .value
  | _ => .error .type

/-- What a `for` loop runs over. -/
def iter : Value → Except Exc (List Value)
  | .list xs => .ok xs
  | .dict kvs => .ok (kvs.map fun p => .ofStr p.1)
  | .str s => .ok (s.toList.map fun c => .str (String.ofList [c]))
  | _ => .error .type

variable (py : Builtins)

def requireNonEmpty (field_name : String) (value : Value) : Except Exc String :=
  let text := strip (py.str value)
  if text = "" then .error (.invalidAgentConfig (field_name ++ " must not be empty")) else .ok text

def requireOneOf (field_name : String) (valid : List String) (value : Value) : Except Exc String := do
  let text ← requireNonEmpty py field_name value
  if text ∈ valid then pure text
  else throw (.invalidAgentConfig ("unsupported " ++ field_name ++ ": " ++ text))

def validateVibe (value : Value) : Except Exc String := requireOneOf py "vibe" VALID_VIBES value

def validateModelProvider (value : Value) : Except Exc String :=
  requireOneOf py "model_provider" VALID_MODEL_PROVIDERS value

def HasSeparator (did : String) : Prop := '/' ∈ did.toList ∨ '\\' ∈ did.toList ∨ "..".toList <:+: did.toList

instance (did : String) : Decidable (HasSeparator did) := inferInstanceAs (Decidable (_ ∨ _ ∨ _))

def normalizeDid (value : Value) : Except Exc String := do
  let text ← requireNonEmpty py "did" value
  let did := py.upper text
  if ¬ "DID-".toList <+: did.toList then
    throw (.invalidAgentConfig ("invalid did format: " ++ did))
  else if HasSeparator did then
    throw (.invalidAgentConfig ("path traversal detected in did: " ++ did))
  else pure did

def addGroup (normalized : Tools) (item : Value × Value) : Except Exc Tools :=
  match Group.ofKey? item.1 with
  | some g => .ok (Function.update normalized g item.2.truthy)
  | none => .error (.invalidToolRegistry ("unsupported tool group: " ++ py.str item.1))

def normalizeTools (value : Value) : Except Exc Tools := do
  let items ← dictItems value
  items.foldlM (addGroup py) DEFAULT_TOOL_ENABLEMENT

def normalizeSkillName (skill_name : Value) : Except Exc String :=
  let skill := strip (py.str skill_name)
  if skill = "" then .error (.invalidSkillBinding "skill_name must not be empty")
  else if '/' ∈ skill.toList ∨ '\\' ∈ skill.toList ∨ skill = "." ∨ skill = ".." then
    .error (.invalidSkillBinding ("invalid skill_name: " ++ skill))
  else .ok skill

def addSkill (normalized : List String) (skill : Value) : Except Exc (List String) := do
  let cleaned ← normalizeSkillName py skill
  pure (if cleaned ∈ normalized then normalized else normalized ++ [cleaned])

def normalizeSkills (skills : Value) : Except Exc (List String) := do
  let elements ← iter skills
  elements.foldlM (addSkill py) []

def addOverride (normalized : List (String × String)) (item : Value × Value) :
    Except Exc (List (String × String)) :=
  match item.1 with
  | .str filename =>
    if filename ∈ CORE_FILE_NAMES then .ok (put normalized filename (py.str item.2))
    else .error (.invalidCoreFile ("unsupported core file override: " ++ filename))
  | key => .error (.invalidCoreFile ("unsupported core file override: " ++ py.str key))

def normalizeCoreFileOverrides (overrides : Value) : Except Exc (List (String × String)) := do
  let items ← dictItems overrides
  items.foldlM (addOverride py) []

def validateCoreFilename (filename : Value) : Except Exc String :=
  let normalized := strip (py.str filename)
  if normalized ∈ CORE_FILE_NAMES then .ok normalized
  else .error (.invalidCoreFile ("unsupported core file: " ++ py.str filename))

end Validation

structure AgentProfile where
  did : String
  uid : String
  name : String
  description : String
  vibe : String
  model_provider : String
  model_id : String
  tools : Tools
  skills : List String
  created_at : ℤ
  updated_at : ℤ

def AgentProfile.toRecord (p : AgentProfile) : Dict :=
  [("did", .str p.did), ("name", .str p.name), ("description", .str p.description), ("vibe", .str p.vibe),
    ("model_provider", .str p.model_provider), ("model_id", .str p.model_id), ("tools", toolsValue p.tools),
    ("skills", .list (p.skills.map .str)), ("created_at", .int p.created_at), ("updated_at", .int p.updated_at)]

section Records

variable (py : Builtins)

/-- `record[key]`. -/
def item (record : Dict) (key : String) : Except Exc Value :=
  match record.lookup (.text key) with
  | some value => .ok value
  | none => .error (.key key)

/-- `record.get(key) or default`. -/
def getOr (record : Dict) (key : String) (default : Value) : Value :=
  match record.lookup (.text key) with
  | some value => if value.truthy then value else default
  | none => default

def fromDict (uid : String) (record : Dict) : Except Exc AgentProfile := do
  let did ← normalizeDid py (← item record "did")
  let uid ← requireNonEmpty py "uid" (.str uid)
  let name ← requireNonEmpty py "name" (← item record "name")
  let description ← requireNonEmpty py "description" (← item record "description")
  let vibe ← validateVibe py (← item record "vibe")
  let model_provider ← validateModelProvider py (← item record "model_provider")
  let model_id ← requireNonEmpty py "model_id" (← item record "model_id")
  let tools ← normalizeTools py (getOr record "tools" (toolsValue DEFAULT_TOOL_ENABLEMENT))
  let skills ← normalizeSkills py (getOr record "skills" (.list []))
  let created_at ← py.int (← item record "created_at")
  let updated_at ← py.int (← item record "updated_at")
  pure { did, uid, name, description, vibe, model_provider, model_id, tools, skills, created_at, updated_at }

/-- The first thing that is looked up in the record is `record["did"]`. -/
def fromRecord (uid : String) : Value → Except Exc AgentProfile
  | .dict record => fromDict py uid record
  | _ => .error .type

structure AgentCreateRequest where
  uid : Value
  name : Value
  description : Value
  vibe : Value
  model_provider : Value
  model_id : Value
  tools : Value := toolsValue DEFAULT_TOOL_ENABLEMENT
  skills : Value := .list []
  core_files : Value := .dict []
  did : Option Value := none

/-- What `__post_init__` makes of a request. -/
structure AgentConfig where
  uid : String
  name : String
  description : String
  vibe : String
  model_provider : String
  model_id : String
  tools : Tools
  skills : List String
  core_files : List (String × String)
  did : Option String

def AgentCreateRequest.postInit (r : AgentCreateRequest) : Except Exc AgentConfig := do
  let uid ← requireNonEmpty py "uid" r.uid
  let name ← requireNonEmpty py "name" r.name
  let description ← requireNonEmpty py "description" r.description
  let vibe ← validateVibe py r.vibe
  let model_provider ← validateModelProvider py r.model_provider
  let model_id ← requireNonEmpty py "model_id" r.model_id
  let tools ← normalizeTools py r.tools
  let skills ← normalizeSkills py r.skills
  let core_files ← normalizeCoreFileOverrides py r.core_files
  let did ← r.did.mapM (normalizeDid py)
  pure { uid, name, description, vibe, model_provider, model_id, tools, skills, core_files, did }

end Records

inductive JsonFile
  | missing
  | unreadable
  | json (value : Value)

def JsonFile.get? (key : String) : JsonFile → Option Value
  | .json (.dict record) => record.lookup (.text key)
  | _ => none

/-- The directory `agent-core`. -/
structure AgentDir where
  agent_config : JsonFile := .missing
  tool_registry : JsonFile := .missing
  core_files : List (String × String) := []

/-- The path `accounts/<uid>/agents/<did>/agent-core`. -/
structure CoreDir where
  uid : String
  did : String

/-- `core_dir.parents[2].name`. -/
def CoreDir.accountName (core_dir : CoreDir) : String :=
  match ((components [] core_dir.uid.toList).filter fun n => n ≠ "" ∧ n ≠ ".").getLast? with
  | some name => name
  | none => if IsAbsolute core_dir.uid then "" else "accounts"

section Store

variable {K : Type} [DecidableEq K]

/-- The directories that exist. -/
abbrev Store (K : Type) := K → Option AgentDir

/-- What a call has written stays when it raises. -/
abbrev Code (K : Type) (α : Type) := ExceptT Exc (StateM (Store K)) α

def perform {α : Type} (p : Code K α) (s : Store K) : Except Exc α × Store K := p.run.run s

def reads {α : Type} (f : Store K → Except Exc α) : Code K α := fun s => (f s, s)

def check {α : Type} (r : Except Exc α) : Code K α := reads fun _ => r

variable (py : Builtins) (place : CoreDir → K)

def resolveAgentCoreDir (uid did : Value) (s : Store K) : Except Exc CoreDir := do
  let uid ← requireNonEmpty py "uid" uid
  let normalized ← normalizeDid py did
  let path : CoreDir := ⟨uid, normalized⟩
  if (s (place path)).isSome then pure path else throw (.agentNotFound normalized)

def readJson (name : String) : JsonFile → Except Exc Value
  | .missing => .error (.missingJsonFile name)
  | .unreadable => .error .jsonDecode
  | .json value => .ok value

def loadProfile (core_dir : CoreDir) (s : Store K) : Except Exc AgentProfile := do
  let record ← readJson "agent_config.json" (((s (place core_dir)).map AgentDir.agent_config).getD .missing)
  fromRecord py core_dir.accountName record

def getAgent (uid did : Value) : Code K AgentProfile := do
  let core_dir ← reads (resolveAgentCoreDir py place uid did)
  reads (loadProfile py place core_dir)

def mkdir (core_dir : CoreDir) : Code K Unit := modify fun s => Function.update s (place core_dir) (some {})

def modifyDir (core_dir : CoreDir) (f : AgentDir → AgentDir) : Code K Unit :=
  modify fun s => Function.update s (place core_dir) ((s (place core_dir)).map f)

def writeConfig (core_dir : CoreDir) (profile : AgentProfile) : Code K Unit :=
  modifyDir place core_dir fun dir => { dir with agent_config := .json (.dict profile.toRecord) }

def buildToolRegistry (enabled_groups : Tools) : Except Exc Dict := do
  let enabled_groups ← normalizeTools py (toolsValue enabled_groups)
  pure [("enabled_groups", toolsValue enabled_groups),
    ("tool_groups", .dict (Group.all.map fun g => (g.text, .list ((DEFAULT_TOOL_GROUPS g).map .str)))),
    ("denied_tools", .list (DEFAULT_DENIED_TOOLS.map .str))]

def writeToolRegistry (core_dir : CoreDir) (tools : Tools) : Code K Unit := do
  let payload ← check (buildToolRegistry py tools)
  modifyDir place core_dir fun dir => { dir with tool_registry := .json (.dict payload) }

def writeText (core_dir : CoreDir) (filename content : String) : Code K Unit :=
  modifyDir place core_dir fun dir => { dir with core_files := put dir.core_files filename content }

def defaultCoreFiles (profile : AgentProfile) (overrides : List (String × String)) : List (String × String) :=
  overrides.foldl (fun materialized file => put materialized file.1 file.2)
    [("SOUL.md", "# " ++ profile.name ++ " SOUL\n\n- 核心原则：证据优先，先诊断后执行。\n" ++
        "- 安全边界：未经明确批准，不执行破坏性命令。\n- 输出要求：结论简洁，记录关键操作与风险。\n"),
     ("IDENTITY.md", "# 身份定义\n\n- 名称：" ++ profile.name ++ "\n- 风格：" ++ profile.vibe ++
        "\n- 职责：" ++ profile.description ++ "\n- 模型：" ++ profile.model_provider ++ "/" ++
        profile.model_id ++ "\n"),
     ("AGENTS.md", "# 协作规则\n\n- 高风险操作必须先给出风险说明。\n" ++
        "- 需要协作时，优先把任务拆成独立子任务。\n- 无法确认的信息必须显式标注不确定性。\n"),
     ("MEMORY.md", "# Long-term Memory\n\n"),
     ("USER.md", "# User Profile\n\n- 服务对象：IT 运维团队\n- 默认时区：Asia/Shanghai\n" ++
        "- 目标：提升巡检、告警响应和变更审计效率\n")]

def HEX_DIGITS : List Char :=
  ['0', '1', '2', '3', '4', '5', '6', '7', '8', '9', 'A', 'B', 'C', 'D', 'E', 'F']

/-- `uuid.uuid4().hex.upper()`. -/
structure HexToken where
  digits : List Char
  length : digits.length = 32
  hex : ∀ c ∈ digits, c ∈ HEX_DIGITS

def generateDid (token : HexToken) : String :=
  String.ofList (['D', 'I', 'D', '-'] ++ token.digits.take 8 ++ ['-'] ++ (token.digits.drop 8).take 6)

def AgentConfig.profile (config : AgentConfig) (did : String) (now : ℤ) : AgentProfile :=
  { did, uid := config.uid, name := config.name, description := config.description, vibe := config.vibe,
    model_provider := config.model_provider, model_id := config.model_id, tools := config.tools,
    skills := config.skills, created_at := now, updated_at := now }

def AgentConfig.didOr (config : AgentConfig) (token : HexToken) : String := config.did.getD (generateDid token)

def createAgent (request : AgentCreateRequest) (token : HexToken) (now : ℤ) : Code K AgentProfile := do
  let config ← check (request.postInit py)
  let did := config.didOr token
  let core_dir : CoreDir := ⟨config.uid, did⟩
  reads fun s => if (s (place core_dir)).isSome then .error (.agentAlreadyExists did) else .ok ()
  mkdir place core_dir
  let profile := config.profile did now
  writeConfig place core_dir profile
  writeToolRegistry py place core_dir profile.tools
  (defaultCoreFiles profile config.core_files).forM fun file => writeText place core_dir file.1 file.2
  getAgent py place (.str config.uid) (.str profile.did)

def allowed_fields : List PyStr :=
  ["name", "description", "vibe", "model_provider", "model_id", "tools", "skills"]

def refuseUnknown (patch : Dict) : Except Exc Unit :=
  let unknown_fields := (patch.map Prod.fst).filter fun field => field ∉ allowed_fields
  if unknown_fields = [] then .ok ()
  else .error (.invalidAgentConfig
    ("unsupported patch fields: " ++ py.str (.list ((unknown_fields.mergeSort fun f g => !g.points.lex f.points).map .ofStr))))

def patched {α : Type} (patch : Dict) (field : String) (old : α) (validate : Value → Except Exc α) :
    Except Exc α :=
  match patch.lookup (.text field) with
  | some value => validate value
  | none => .ok old

/-- The fields of a patch before `tools`. -/
def patchTexts (patch : Dict) (profile : AgentProfile) : Except Exc AgentProfile := do
  let name ← patched patch "name" profile.name (requireNonEmpty py "name")
  let description ← patched patch "description" profile.description (requireNonEmpty py "description")
  let vibe ← patched patch "vibe" profile.vibe (validateVibe py)
  let model_provider ← patched patch "model_provider" profile.model_provider (validateModelProvider py)
  let model_id ← patched patch "model_id" profile.model_id (requireNonEmpty py "model_id")
  pure { profile with name, description, vibe, model_provider, model_id }

def patchTools (core_dir : CoreDir) (patch : Dict) (profile : AgentProfile) : Code K AgentProfile :=
  match patch.lookup (.text "tools") with
  | some value => do
    let tools ← check (normalizeTools py value)
    writeToolRegistry py place core_dir tools
    pure { profile with tools }
  | none => pure profile

/-- `update_agent` from the skills on. -/
def finishUpdate (core_dir : CoreDir) (patch : Dict) (now : ℤ) (profile : AgentProfile) :
    Code K AgentProfile := do
  let skills ← check (patched patch "skills" profile.skills (normalizeSkills py))
  let profile := { profile with skills, updated_at := now }
  writeConfig place core_dir profile
  check (fromDict py profile.uid profile.toRecord)

def updateAgent (uid did : Value) (patch : Dict) (now : ℤ) : Code K AgentProfile := do
  let core_dir ← reads (resolveAgentCoreDir py place uid did)
  let profile ← reads (loadProfile py place core_dir)
  check (refuseUnknown py patch)
  let profile ← check (patchTexts py patch profile)
  let profile ← patchTools py place core_dir patch profile
  finishUpdate py place core_dir patch now profile

def updateToolRegistry (uid did tools : Value) (now : ℤ) : Code K Unit := do
  let normalized_tools ← check (normalizeTools py tools)
  let core_dir ← reads (resolveAgentCoreDir py place uid did)
  let profile ← reads (loadProfile py place core_dir)
  let profile := { profile with tools := normalized_tools, updated_at := now }
  writeConfig place core_dir profile
  writeToolRegistry py place core_dir profile.tools

def bindSkill (uid did skill_name : Value) (now : ℤ) : Code K Unit := do
  let normalized_skill ← check (normalizeSkillName py skill_name)
  let core_dir ← reads (resolveAgentCoreDir py place uid did)
  let profile ← reads (loadProfile py place core_dir)
  if normalized_skill ∉ profile.skills then
    writeConfig place core_dir { profile with skills := profile.skills ++ [normalized_skill], updated_at := now }

def unbindSkill (uid did skill_name : Value) (now : ℤ) : Code K Unit := do
  let normalized_skill ← check (normalizeSkillName py skill_name)
  let core_dir ← reads (resolveAgentCoreDir py place uid did)
  let profile ← reads (loadProfile py place core_dir)
  if normalized_skill ∈ profile.skills then
    writeConfig place core_dir
      { profile with skills := profile.skills.filter (· ≠ normalized_skill), updated_at := now }

def writeCoreFile (uid did filename content : Value) : Code K Unit := do
  let normalized_file ← check (validateCoreFilename py filename)
  let core_dir ← reads (resolveAgentCoreDir py place uid did)
  writeText place core_dir normalized_file (py.str content)

def readCoreFile (uid did filename : Value) : Code K String := do
  let normalized_file ← check (validateCoreFilename py filename)
  let core_dir ← reads (resolveAgentCoreDir py place uid did)
  reads fun s =>
    match (((s (place core_dir)).map AgentDir.core_files).getD []).lookup normalized_file with
    | some content => .ok content
    | none => .error (.invalidCoreFile ("core file not found: " ++ normalized_file))

def deleteAgent (uid did : Value) : Code K Unit := do
  let core_dir ← reads (resolveAgentCoreDir py place uid did)
  modify fun s => Function.update s (place core_dir) none

end Store

/-- A call with its arguments, and what the clock and `uuid4` give it. -/
inductive Call
  | create_agent (request : AgentCreateRequest) (token : HexToken) (now : ℤ)
  | update_agent (uid did : Value) (patch : Dict) (now : ℤ)
  | update_tool_registry (uid did tools : Value) (now : ℤ)
  | bind_skill (uid did skill_name : Value) (now : ℤ)
  | unbind_skill (uid did skill_name : Value) (now : ℤ)
  | write_core_file (uid did filename content : Value)

section Calls

variable {K : Type} [DecidableEq K] (py : Builtins) (place : CoreDir → K)

def Call.exec : Call → Code K Unit
  | .create_agent request token now => do let _ ← createAgent py place request token now
  | .update_agent uid did patch now => do let _ ← updateAgent py place uid did patch now
  | .update_tool_registry uid did tools now => updateToolRegistry py place uid did tools now
  | .bind_skill uid did skill_name now => bindSkill py place uid did skill_name now
  | .unbind_skill uid did skill_name now => unbindSkill py place uid did skill_name now
  | .write_core_file uid did filename content => writeCoreFile py place uid did filename content

def step (s : Store K) (c : Call) : Option (Store K) := some (perform (c.exec py place) s).2

end Calls

end OpsSentry.Agent.Manager
