import OpsSentry.Agent.AgentManager

/-! `agent_manager.py`: the paths that the calls of the `AgentManager` read, write and remove. -/

namespace OpsSentry.Agent.Accounts

open Foundation.PosixPath Foundation.Text Foundation.Values Manager

/-- What a call reads, writes or removes. -/
inductive Access
  | entry (path : Parts)
  | made (path there : Parts)
  | scratch (path : Parts)
  | tree (path : Parts)

/-- `mkdir` makes the directories on the way that are not there, `mkstemp` puts some letters between
the name of the file and `.tmp`, and `rmtree` takes all below. -/
def Access.Covers : Access → Parts → Prop
  | entry path, q => q = path
  | made path there, q => q <+: path ∧ ¬ q <+: there
  | scratch path, q => ∃ token : String, '/' ∉ token.toList ∧
      q = path.dropLast ++ [path.getLastD "" ++ "." ++ token ++ ".tmp"]
  | tree path, q => ∃ names, (∀ n ∈ names, IsName n) ∧ q = path ++ names

def SKILLS_DIR_NAME : String := "skills"
def AGENT_CONFIG_FILE : String := "agent_config.json"
def TOOL_REGISTRY_FILE : String := "tool-registry.jsonc"

/-- What the manager takes the uid and the did for, and the paths that it touches at most. -/
structure Touch where
  uid : String
  did : Option String
  accesses : List Access

section Calls

variable (py : Builtins) (accounts_dir : AbsPath)

def agentsDir (uid : String) : Parts := joined (joined accounts_dir.names uid) "agents"

def agentCoreDir (uid did : String) : Parts := joined (joined (agentsDir accounts_dir uid) did) "agent-core"

/-- `accounts_dir` itself is there. -/
def writeText (path : Parts) : List Access := [.made path.dropLast accounts_dir.names, .scratch path, .entry path]

/-- A call on the directory of an agent. -/
def inCoreDir (uid did : Value) (rest : Parts → List Access) : Except Exc Touch := do
  let uid ← requireNonEmpty py "uid" uid
  let normalized ← normalizeDid py did
  let core_dir := agentCoreDir accounts_dir uid normalized
  pure ⟨uid, some normalized, .entry core_dir :: rest core_dir⟩

def getAgent (uid did : Value) : Except Exc Touch :=
  inCoreDir py accounts_dir uid did fun core_dir => [.entry (joined core_dir AGENT_CONFIG_FILE)]

def createAgent (request : AgentCreateRequest) (token : HexToken) (now : ℤ) : Except Exc Touch := do
  let config ← request.postInit py
  let did := config.didOr token
  let core_dir := agentCoreDir accounts_dir config.uid did
  let profile := config.profile did now
  let files := (defaultCoreFiles profile config.core_files).map Prod.fst
  let got ← getAgent py accounts_dir (.str config.uid) (.str profile.did)
  pure ⟨config.uid, some did,
    [.entry core_dir, .made core_dir accounts_dir.names, .made (joined core_dir SKILLS_DIR_NAME) accounts_dir.names] ++
      (AGENT_CONFIG_FILE :: TOOL_REGISTRY_FILE :: files).flatMap (fun name => writeText accounts_dir (joined core_dir name)) ++
      got.accesses⟩

def updateAgent (uid did : Value) : Except Exc Touch :=
  inCoreDir py accounts_dir uid did fun core_dir =>
    [.entry (joined core_dir AGENT_CONFIG_FILE)] ++ writeText accounts_dir (joined core_dir TOOL_REGISTRY_FILE) ++
      writeText accounts_dir (joined core_dir AGENT_CONFIG_FILE)

/-- `rmtree` of `core_dir.parent`. -/
def deleteAgent (uid did : Value) : Except Exc Touch :=
  inCoreDir py accounts_dir uid did fun core_dir => [.tree core_dir.dropLast]

/-- For each directory that is found, what `glob` looks for there. -/
def listAgents (uid : Value) (found : List String) : Except Exc Touch := do
  let uid ← requireNonEmpty py "uid" uid
  let agents_dir := agentsDir accounts_dir uid
  pure ⟨uid, none, .entry agents_dir :: found.flatMap fun name =>
    [.entry (agents_dir ++ [name]), .entry (agents_dir ++ [name, "agent-core"]),
      .entry (agents_dir ++ [name, "agent-core", AGENT_CONFIG_FILE])]⟩

def readCoreFile (uid did filename : Value) : Except Exc Touch := do
  let normalized_file ← validateCoreFilename py filename
  inCoreDir py accounts_dir uid did fun core_dir => [.entry (joined core_dir normalized_file)]

def writeCoreFile (uid did filename : Value) : Except Exc Touch := do
  let normalized_file ← validateCoreFilename py filename
  inCoreDir py accounts_dir uid did fun core_dir => writeText accounts_dir (joined core_dir normalized_file)

def bindSkill (uid did skill_name : Value) : Except Exc Touch := do
  let _ ← normalizeSkillName py skill_name
  inCoreDir py accounts_dir uid did fun core_dir =>
    .entry (joined core_dir AGENT_CONFIG_FILE) :: writeText accounts_dir (joined core_dir AGENT_CONFIG_FILE)

/-- The calls, with the names that `list_agents` finds in the directory. -/
inductive Operation
  | create_agent (request : AgentCreateRequest) (token : HexToken) (now : ℤ)
  | get_agent (uid did : Value)
  | update_agent (uid did : Value)
  | delete_agent (uid did : Value)
  | list_agents (uid : Value) (found : List {name : String // IsName name})
  | read_core_file (uid did filename : Value)
  | write_core_file (uid did filename : Value)
  | bind_skill (uid did skill_name : Value)

/-- An error where the arguments are not accepted. -/
def Operation.touch : Operation → Except Exc Touch
  | create_agent request token now => createAgent py accounts_dir request token now
  | get_agent uid did => getAgent py accounts_dir uid did
  | update_agent uid did => updateAgent py accounts_dir uid did
  | delete_agent uid did => deleteAgent py accounts_dir uid did
  | list_agents uid found => listAgents py accounts_dir uid (found.map Subtype.val)
  | read_core_file uid did filename => readCoreFile py accounts_dir uid did filename
  | write_core_file uid did filename => writeCoreFile py accounts_dir uid did filename
  | bind_skill uid did skill_name => bindSkill py accounts_dir uid did skill_name

end Calls

section Isolation

variable (accounts_dir : AbsPath)

/-- In the directory of an agent, or one of the two directories above it. -/
def Within (U D : String) (p : AbsPath) : Prop :=
  accounts_dir.names ++ [U, "agents", D] <+: p.names ∨ p.names = accounts_dir.names ++ [U, "agents"] ∨
    p.names = accounts_dir.names ++ [U]

/-- The uid is the one component and the did, if there is one, the other. -/
def Confined (t : Touch) : Prop :=
  ∃ U, t.uid = U ∧ IsName U ∧ ∀ a ∈ t.accesses, ∀ q, a.Covers q →
    ∃ D, (∀ did ∈ t.did, did = D) ∧ IsName D ∧ Within accounts_dir U D (normal q)

/-- Both are confined, and for different uids nothing that the one touches is above, below or the
same as what the other touches. -/
def Isolated (t t' : Touch) : Prop :=
  Confined accounts_dir t ∧ Confined accounts_dir t' ∧
    (t.uid ≠ t'.uid → ∀ a ∈ t.accesses, ∀ a' ∈ t'.accesses, ∀ q q', a.Covers q → a'.Covers q' →
      ¬ (normal q).Below (normal q') ∧ ¬ (normal q').Below (normal q))

end Isolation

end OpsSentry.Agent.Accounts
