import OpsSentry.Agent.AgentManager

/-! `auth.py`, `routers/agents.py` and `routers/skills.py`: the requests for agents, and who sends
them. -/

namespace OpsSentry.Agent.Manager.Routes

open Foundation.Text Foundation.Values

/-- An `HTTPException`, with a text of its own or with that of what the manager raised, or an
exception that nothing catches. -/
inductive Failure
  | http (status : ℕ) (detail : String)
  | manager (status : ℕ) (e : Exc)
  | internal

structure CurrentUser where
  user_id : String
  role : String
  org_id : String

inductive TokenError
  | expired
  | invalid

/-- `jwt.decode` with the secret. -/
abbrev Jwt := String → Except TokenError Dict

section Auth

variable (jwt : Jwt)

def decodeToken (token : String) : Except Failure Dict :=
  match jwt token with
  | .ok payload => .ok payload
  | .error .expired => .error (.http 401 "Token expired")
  | .error .invalid => .error (.http 401 "Invalid token")

def claim (payload : Dict) (key : String) : Value := (payload.lookup (.text key)).getD .null

/-- `CurrentUser` refuses claims that are no strings. -/
def userOf (payload : Dict) : Except Failure CurrentUser :=
  let user_id := claim payload "sub"
  let role := claim payload "role"
  let org_id := claim payload "org_id"
  if !user_id.truthy || !role.truthy || !org_id.truthy then
    .error (.http 401 "Invalid token payload: missing sub, role, or org_id")
  else
    match user_id, role, org_id with
    | .str user_id, .str role, .str org_id => .ok ⟨user_id, role, org_id⟩
    | _, _, _ => .error .internal

/-- The credentials are what `HTTPBearer` finds in the request. -/
def getCurrentUser : Option String → Except Failure CurrentUser
  | none => .error (.http 403 "Not authenticated")
  | some token => do
    let payload ← decodeToken jwt token
    userOf payload

def requireRole (allowed_roles : List String) (user : CurrentUser) : Except Failure CurrentUser :=
  if user.role = "admin" then .ok user
  else if user.role ∉ allowed_roles then
    .error (.http 403 ("Permission denied: role '" ++ user.role ++ "' not authorized"))
  else .ok user

def verifyResourceOwnership (resource_uid : String) (user : CurrentUser) : Except Failure String :=
  if user.role = "admin" then .ok resource_uid
  else if resource_uid ≠ user.user_id then .error (.http 403 "Access denied: Resource ownership mismatch")
  else .ok resource_uid

/-- `get_resource_uid`. -/
def getResourceUid (credentials : Option String) (uid : String) : Except Failure String := do
  let user ← getCurrentUser jwt credentials
  verifyResourceOwnership uid user

/-- What the routes that change an agent depend on. -/
def asOperator (credentials : Option String) (uid : String) : Except Failure String := do
  let uid ← getResourceUid jwt credentials uid
  let user ← getCurrentUser jwt credentials
  let _ ← requireRole ["admin", "operator"] user
  pure uid

end Auth

/-- A route with its parameters, and what the clock and `uuid4` give it. What `list_agents` and
`scan_skills` find is left open: they read only. -/
inductive Route
  | create_agent (body : AgentCreateRequest) (token : HexToken) (now : ℤ)
  | list_agents (uid : String) (found : Except Exc (List AgentProfile))
  | get_agent (uid did : String)
  | update_agent (uid did : String) (update : Option Dict) (now : ℤ)
  | delete_agent (uid did : String)
  | read_core_file (uid did filename : String)
  | bind_skill (uid did skill_id : String) (now : ℤ)
  | unbind_skill (uid did skill_id : String) (now : ℤ)
  | execute_agent (uid did : String)
  | list_available_skills (uid did : String) (found : Except String (List String))
  | get_agent_enabled_skills (uid did : String)
  | bind_skill_to_agent (uid did skill_name : String) (now : ℤ)
  | unbind_skill_from_agent (uid did skill_name : String) (now : ℤ)

structure Request where
  credentials : Option String
  route : Route

inductive Response
  | profile (profile : AgentProfile)
  | profiles (profiles : List AgentProfile)
  | coreFile (filename content : String)
  | skills (names : List String)
  | status (text detail : String)

section Handlers

variable {K : Type} [DecidableEq K] (py : Builtins) (place : CoreDir → K) (jwt : Jwt) (s : Store K)

/-- A call of the manager in a `try`. -/
def attempt {α : Type} (status : ℕ) (call : Code K α) (f : α → Response) : Except Failure Response × Store K :=
  (((perform call s).1.mapError (Failure.manager status)).map f, (perform call s).2)

/-- A route whose dependencies may refuse the request. -/
def withUid (uid : Except Failure String) (route : String → Except Failure Response × Store K) :
    Except Failure Response × Store K :=
  match uid with
  | .error e => (.error e, s)
  | .ok uid => route uid

/-- Without a body, `update` is `None`, which `set` refuses. -/
def updateOrNone (uid did : Value) (update : Option Dict) (now : ℤ) : Code K AgentProfile :=
  match update with
  | some patch => updateAgent py place uid did patch now
  | none => do
    let core_dir ← reads (resolveAgentCoreDir py place uid did)
    let _ ← reads (loadProfile py place core_dir)
    check (.error .type)

/-- The uid of a valid body is checked in the route itself. -/
def checkOwner (credentials : Option String) (body : AgentCreateRequest) : Except Failure String := do
  let user ← getCurrentUser jwt credentials
  let user ← requireRole ["admin", "operator"] user
  match body.postInit py with
  | .error _ => throw .internal
  | .ok config => verifyResourceOwnership config.uid user

def Request.handle (r : Request) : Except Failure Response × Store K :=
  match r.route with
  | .create_agent body token now =>
    withUid s (checkOwner py jwt r.credentials body) fun _ =>
      attempt s 400 (createAgent py place body token now) .profile
  | .list_agents uid found =>
    withUid s (getResourceUid jwt r.credentials uid) fun _ =>
      attempt s 500 (check found) .profiles
  | .get_agent uid did =>
    withUid s (getResourceUid jwt r.credentials uid) fun uid =>
      attempt s 404 (getAgent py place (.str uid) (.str did)) .profile
  | .update_agent uid did update now =>
    withUid s (asOperator jwt r.credentials uid) fun uid =>
      attempt s 400 (updateOrNone py place (.str uid) (.str did) update now) .profile
  | .delete_agent uid did =>
    withUid s (asOperator jwt r.credentials uid) fun uid =>
      attempt s 400 (deleteAgent py place (.str uid) (.str did)) fun _ => .status "deleted" ""
  | .read_core_file uid did filename =>
    withUid s (getResourceUid jwt r.credentials uid) fun uid =>
      attempt s 404 (readCoreFile py place (.str uid) (.str did) (.str filename)) (.coreFile filename)
  | .bind_skill uid did skill_id now =>
    withUid s (asOperator jwt r.credentials uid) fun uid =>
      attempt s 400 (bindSkill py place (.str uid) (.str did) (.str skill_id) now) fun _ => .status "bound" skill_id
  | .unbind_skill uid did skill_id now =>
    withUid s (asOperator jwt r.credentials uid) fun uid =>
      attempt s 400 (unbindSkill py place (.str uid) (.str did) (.str skill_id) now) fun _ => .status "unbound" skill_id
  | .execute_agent uid did =>
    withUid s (asOperator jwt r.credentials uid) fun uid => (.ok (.status "executed" (uid ++ "/" ++ did)), s)
  | .list_available_skills _ _ found =>
    ((found.map Response.skills).mapError (Failure.http 500), s)
  | .get_agent_enabled_skills uid did =>
    attempt s 404 (getAgent py place (.str uid) (.str did)) fun profile => .skills profile.skills
  | .bind_skill_to_agent uid did skill_name now =>
    attempt s 400 (bindSkill py place (.str uid) (.str did) (.str skill_name) now) fun _ =>
      .status "success" ("Skill " ++ skill_name ++ " bound to " ++ did)
  | .unbind_skill_from_agent uid did skill_name now =>
    attempt s 400 (unbindSkill py place (.str uid) (.str did) (.str skill_name) now) fun _ =>
      .status "success" ("Skill " ++ skill_name ++ " unbound from " ++ did)

end Handlers

section Claims

variable {K : Type} [DecidableEq K] (py : Builtins) (place : CoreDir → K) (agent : CoreDir → Prop) (jwt : Jwt) (s : Store K)

/-- A valid token of an admin, or of an operator with this uid. -/
def Entitled (credentials : Option String) (uid : String) : Prop :=
  ∃ user, getCurrentUser jwt credentials = .ok user ∧ (user.role = "admin" ∨ user.role = "operator" ∧ user.user_id = uid)

/-- Whatever agent changes, the sender is entitled to change it. Several pairs of a uid and a did may lead to one
directory; `agent` says which of them are names of the agent that is kept there. -/
def Guarded (r : Request) : Prop :=
  ∀ d, agent d → (r.handle py place jwt s).2 (place d) ≠ s (place d) → Entitled jwt r.credentials d.uid

/-- An agent that is kept in this directory. -/
def Kept (core_dir d : CoreDir) : Prop := agent d ∧ place d = place core_dir

/-- An agent that is there, with a profile that can be loaded. -/
def Loads (uid did : String) (core_dir : CoreDir) (profile : AgentProfile) : Prop :=
  resolveAgentCoreDir py place (.str uid) (.str did) s = .ok core_dir ∧ loadProfile py place core_dir s = .ok profile

/-- The skill is new for the agent. -/
def Binds (uid did skill_name : String) (core_dir : CoreDir) : Prop :=
  ∃ profile skill, Loads py place s uid did core_dir profile ∧ normalizeSkillName py (.str skill_name) = .ok skill ∧
    skill ∉ profile.skills

def Unbinds (uid did skill_name : String) (core_dir : CoreDir) : Prop :=
  ∃ profile skill, Loads py place s uid did core_dir profile ∧ normalizeSkillName py (.str skill_name) = .ok skill ∧
    skill ∈ profile.skills

def Deletes (uid did : String) (core_dir : CoreDir) : Prop :=
  resolveAgentCoreDir py place (.str uid) (.str did) s = .ok core_dir

/-- A patch whose texts have made `q` of the profile is valid up to its tool groups, and these are
not those in `tool-registry.jsonc`; or it is valid, and the new profile is not that in
`agent_config.json`. -/
def Rewrites (dir : AgentDir) (q : AgentProfile) (patch : Dict) (now : ℤ) : Prop :=
  (∃ value tools, patch.lookup (.text "tools") = some value ∧ normalizeTools py value = .ok tools ∧
    ∀ payload, buildToolRegistry py tools = .ok payload → dir.tool_registry ≠ .json (.dict payload)) ∨
  ∃ tools skills, patched patch "tools" q.tools (normalizeTools py) = .ok tools ∧
    patched patch "skills" q.skills (normalizeSkills py) = .ok skills ∧
    dir.agent_config ≠ .json (.dict { q with tools, skills, updated_at := now }.toRecord)

def Updates (uid did : String) (update : Option Dict) (now : ℤ) (core_dir : CoreDir) : Prop :=
  ∃ patch dir profile q, update = some patch ∧ s (place core_dir) = some dir ∧ Loads py place s uid did core_dir profile ∧
    refuseUnknown py patch = .ok () ∧ patchTexts py patch profile = .ok q ∧ Rewrites py dir q patch now

def Creates (body : AgentCreateRequest) (token : HexToken) (core_dir : CoreDir) : Prop :=
  ∃ config, body.postInit py = .ok config ∧ core_dir = ⟨config.uid, config.didOr token⟩ ∧ s (place core_dir) = none

/-- If the sender is an operator by this uid, it is the uid of all agents that are kept there. -/
def CalledAs (credentials : Option String) (uid : String) (core_dir : CoreDir) : Prop :=
  ∀ user, getCurrentUser jwt credentials = .ok user → user.role = "operator" → user.user_id = uid →
    ∀ d, Kept place agent core_dir d → d.uid = uid

def Condition (r : Request) : Prop :=
  match r.route with
  | .create_agent body token _ =>
    ∀ core_dir, Creates py place s body token core_dir → CalledAs place agent jwt r.credentials core_dir.uid core_dir
  | .update_agent uid did update now =>
    ∀ core_dir, Updates py place s uid did update now core_dir → CalledAs place agent jwt r.credentials uid core_dir
  | .delete_agent uid did =>
    ∀ core_dir, Deletes py place s uid did core_dir → CalledAs place agent jwt r.credentials uid core_dir
  | .bind_skill uid did skill_id _ =>
    ∀ core_dir, Binds py place s uid did skill_id core_dir → CalledAs place agent jwt r.credentials uid core_dir
  | .unbind_skill uid did skill_id _ =>
    ∀ core_dir, Unbinds py place s uid did skill_id core_dir → CalledAs place agent jwt r.credentials uid core_dir
  | .bind_skill_to_agent uid did skill_name _ =>
    ∀ core_dir, Binds py place s uid did skill_name core_dir →
      ∀ d, Kept place agent core_dir d → Entitled jwt r.credentials d.uid
  | .unbind_skill_from_agent uid did skill_name _ =>
    ∀ core_dir, Unbinds py place s uid did skill_name core_dir →
      ∀ d, Kept place agent core_dir d → Entitled jwt r.credentials d.uid
  | _ => True

end Claims

end OpsSentry.Agent.Manager.Routes
