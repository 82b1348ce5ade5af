import OpsSentry.Agent.AgentManager
import OpsSentry.Foundation.Runs
import Mathlib.Data.List.Nodup

/-! The tool groups of an agent are the same in `agent_config.json` and `tool-registry.jsonc`, as
long as no patch that changes them is refused at its skills. -/

namespace OpsSentry.Agent.Manager

open Foundation.PosixPath Foundation.Runs Foundation.Text Foundation.Values

section Values

variable {py : Builtins} {value : Value} {field_name text : String}

@[simp] lemma ok_bind {α β : Type} (a : α) (f : α → Except Exc β) : (Except.ok a >>= f) = f a := rfl
@[simp] lemma error_bind {α β : Type} (e : Exc) (f : α → Except Exc β) :
    (Except.error e >>= f) = Except.error e := rfl

lemma bind_ok {ε α β : Type} {x : Except ε α} {f : α → Except ε β} {b : β} (h : (x >>= f) = .ok b) :
    ∃ a, x = .ok a ∧ f a = .ok b := by
  cases x with
  | error e => cases h
  | ok a => exact ⟨a, rfl, h⟩

lemma requireNonEmpty_ok (h : requireNonEmpty py field_name value = .ok text) :
    strip (py.str value) = text ∧ text ≠ "" := by
  simp only [requireNonEmpty] at h
  split at h
  · cases h
  · cases h
    exact ⟨rfl, ‹_›⟩

lemma requireNonEmpty_str (hstrip : strip text = text) (hne : text ≠ "") :
    requireNonEmpty py field_name (.str text) = .ok text := by
  rw [requireNonEmpty, py.str_str, hstrip]
  exact if_neg hne

lemma requireNonEmpty_again (h : requireNonEmpty py field_name value = .ok text) :
    requireNonEmpty py field_name (.str text) = .ok text := by
  obtain ⟨rfl, hne⟩ := requireNonEmpty_ok h
  exact requireNonEmpty_str (strip_strip _) hne

lemma requireOneOf_again {valid : List String} (h : requireOneOf py field_name valid value = .ok text) :
    requireOneOf py field_name valid (.str text) = .ok text := by
  obtain ⟨t, ht, h⟩ := bind_ok h
  split at h
  · cases h
    rw [requireOneOf, requireNonEmpty_again ht, ok_bind, if_pos ‹_›]
    rfl
  · cases h

lemma normalizeDid_ok (h : normalizeDid py value = .ok text) :
    ∃ t, strip t = t ∧ py.upper t = text ∧ "DID-".toList <+: text.toList ∧ ¬ HasSeparator text := by
  obtain ⟨t, ht, h⟩ := bind_ok h
  obtain ⟨hstrip, -⟩ := requireNonEmpty_ok ht
  dsimp only at h
  split at h
  · cases h
  · split at h
    · cases h
    · rename_i hformat hpath
      cases h
      refine ⟨t, ?_, rfl, not_not.mp hformat, hpath⟩
      rw [← hstrip, strip_strip]

lemma normalizeDid_str (hstrip : strip text = text) (hup : py.upper text = text)
    (hformat : "DID-".toList <+: text.toList) (hpath : ¬ HasSeparator text) :
    normalizeDid py (.str text) = .ok text := by
  have hne : text ≠ "" := by
    rintro rfl
    simp at hformat
  simp only [normalizeDid, requireNonEmpty_str hstrip hne, ok_bind, hup]
  rw [if_neg (not_not.mpr hformat), if_neg hpath]
  rfl

lemma normalizeDid_again (h : normalizeDid py value = .ok text) :
    normalizeDid py (.str text) = .ok text := by
  obtain ⟨t, hstrip, rfl, hformat, hpath⟩ := normalizeDid_ok h
  exact normalizeDid_str (py.strip_upper t hstrip) (py.upper_upper t) hformat hpath

lemma generateDid_chars (token : HexToken) {c : Char} (hc : c ∈ (generateDid token).toList) :
    c ∈ ['D', 'I', 'D', '-'] ∨ c ∈ HEX_DIGITS := by
  simp only [generateDid, String.toList_ofList, List.mem_append] at hc
  rcases hc with ((hc | hc) | hc) | hc
  · exact Or.inl hc
  · exact Or.inr (token.hex c (List.mem_of_mem_take hc))
  · exact Or.inl (by simp [List.mem_singleton.mp hc])
  · exact Or.inr (token.hex c (List.mem_of_mem_drop (List.mem_of_mem_take hc)))

lemma normalizeDid_generated (token : HexToken) :
    normalizeDid py (.str (generateDid token)) = .ok (generateDid token) := by
  have hchars : (['D', 'I', 'D', '-'] ++ HEX_DIGITS).all (fun c =>
      isSpace c = false ∧ (c.toNat < 128 ∧ c.toUpper = c) ∧ c ≠ '/' ∧ c ≠ '\\' ∧ c ≠ '.') = true := by decide +kernel
  have hall : ∀ c ∈ (generateDid token).toList, _ := fun c hc =>
    of_decide_eq_true (List.all_eq_true.mp hchars c (List.mem_append.mpr (generateDid_chars token hc)))
  refine normalizeDid_str (strip_of_not_isSpace fun c hc => (hall c hc).1)
    (py.upper_ascii _ fun c hc => (hall c hc).2.1) ?_ ?_
  · rw [generateDid, List.append_assoc, List.append_assoc, String.toList_ofList, String.toList_ofList]
    exact List.prefix_append _ _
  · rintro (hc | hc | hc)
    · exact (hall _ hc).2.2.1 rfl
    · exact (hall _ hc).2.2.2.1 rfl
    · exact (hall '.' (hc.subset (by simp))).2.2.2.2 rfl

end Values

section Tools

variable {py : Builtins}

lemma ofKey_text (g : Group) : Group.ofKey? (.str g.text) = some g := by
  cases g <;> decide

lemma foldlM_groups (tools : Tools) (gs : List Group) (normalized : Tools) :
    (gs.map fun g => (Value.str g.text, Value.bool (tools g))).foldlM (addGroup py) normalized =
      .ok fun g => if g ∈ gs then tools g else normalized g := by
  induction gs generalizing normalized with
  | nil => simp [pure, Except.pure]
  | cons g gs ih =>
    rw [List.map_cons, List.foldlM_cons, addGroup, ofKey_text]
    refine (ih _).trans ?_
    congr 1
    funext a
    by_cases ha : a ∈ gs
    · simp [ha]
    · by_cases hag : a = g
      · subst hag
        simp [ha, Value.truthy]
      · simp [ha, hag]

lemma normalizeTools_toolsValue (tools : Tools) : normalizeTools py (toolsValue tools) = .ok tools := by
  have hall : ∀ g, g ∈ Group.all := by
    intro g
    cases g <;> decide
  rw [normalizeTools, toolsValue, dictItems, ok_bind, List.map_map]
  refine (foldlM_groups tools Group.all _).trans ?_
  simp only [hall, if_true]

lemma toolsValue_injective (py : Builtins) {tools tools' : Tools} (h : toolsValue tools = toolsValue tools') : tools = tools' := by
  have hok : normalizeTools py (toolsValue tools) = .ok tools := normalizeTools_toolsValue tools
  rw [h, normalizeTools_toolsValue] at hok
  exact (Except.ok.inj hok).symm

end Tools

section Skills

variable {py : Builtins} {value : Value} {skill : String} {skills : List String}

structure NormalSkills (py : Builtins) (skills : List String) : Prop where
  nodup : skills.Nodup
  name : ∀ skill ∈ skills, normalizeSkillName py (.str skill) = .ok skill

lemma normalizeSkillName_again (h : normalizeSkillName py value = .ok skill) :
    normalizeSkillName py (.str skill) = .ok skill := by
  simp only [normalizeSkillName] at h
  split at h
  · cases h
  · split at h
    · cases h
    · rename_i hne hpath
      cases h
      simp only [normalizeSkillName, py.str_str, strip_strip]
      rw [if_neg hne, if_neg hpath]

lemma NormalSkills.add (hs : NormalSkills py skills)
    (hname : normalizeSkillName py (.str skill) = .ok skill)
    (hnew : skill ∉ skills) : NormalSkills py (skills ++ [skill]) := by
  constructor
  · rw [← List.concat_eq_append]
    exact (List.nodup_concat _ _).mpr ⟨hnew, hs.nodup⟩
  · intro a ha
    rcases List.mem_append.mp ha with ha | ha
    · exact hs.name a ha
    · exact List.mem_singleton.mp ha ▸ hname

lemma NormalSkills.filter (hs : NormalSkills py skills) (p : String → Bool) :
    NormalSkills py (skills.filter p) :=
  ⟨hs.nodup.filter p, fun a ha => hs.name a (List.mem_of_mem_filter ha)⟩

lemma foldlM_addSkill_normal {elements : List Value} {normalized : List String}
    (hn : NormalSkills py normalized)
    (h : elements.foldlM (addSkill py) normalized = .ok skills) : NormalSkills py skills := by
  induction elements generalizing normalized with
  | nil =>
    cases h
    exact hn
  | cons v elements ih =>
    rw [List.foldlM_cons] at h
    obtain ⟨next, hnext, h⟩ := bind_ok h
    obtain ⟨cleaned, hcleaned, hnext⟩ := bind_ok hnext
    refine ih ?_ h
    split at hnext
    · cases hnext
      exact hn
    · cases hnext
      exact hn.add (normalizeSkillName_again hcleaned) ‹_›

lemma normalizeSkills_normal (h : normalizeSkills py value = .ok skills) : NormalSkills py skills := by
  obtain ⟨elements, -, h⟩ := bind_ok h
  exact foldlM_addSkill_normal ⟨List.nodup_nil, by simp⟩ h

lemma foldlM_addSkill_str {normalized : List String} (hs : NormalSkills py (normalized ++ skills)) :
    (skills.map Value.str).foldlM (addSkill py) normalized = .ok (normalized ++ skills) := by
  induction skills generalizing normalized with
  | nil => simp [pure, Except.pure]
  | cons skill skills ih =>
    have hnew : skill ∉ normalized := by
      intro hmem
      exact (List.nodup_append.mp hs.nodup).2.2 skill hmem skill (by simp) rfl
    rw [List.map_cons, List.foldlM_cons, addSkill, hs.name skill (by simp), ok_bind, if_neg hnew]
    rw [List.append_cons normalized skill skills] at hs ⊢
    exact ih hs

lemma normalizeSkills_str (hs : NormalSkills py skills) :
    normalizeSkills py (.list (skills.map .str)) = .ok skills := by
  have hs' : NormalSkills py ([] ++ skills) := hs
  rw [normalizeSkills, iter, ok_bind]
  exact foldlM_addSkill_str hs'

end Skills

section Profiles

variable {py : Builtins} {p q : AgentProfile} {uid : String}

/-- The profile comes back from its record as it is. -/
structure Stored (py : Builtins) (p : AgentProfile) : Prop where
  did : normalizeDid py (.str p.did) = .ok p.did
  name : requireNonEmpty py "name" (.str p.name) = .ok p.name
  description : requireNonEmpty py "description" (.str p.description) = .ok p.description
  vibe : validateVibe py (.str p.vibe) = .ok p.vibe
  model_provider : validateModelProvider py (.str p.model_provider) = .ok p.model_provider
  model_id : requireNonEmpty py "model_id" (.str p.model_id) = .ok p.model_id
  skills : NormalSkills py p.skills

lemma getOr_skills (skills : List String) :
    getOr [("skills", .list (skills.map .str))] "skills" (.list []) = .list (skills.map .str) := by
  cases skills <;> simp [getOr, Value.truthy]

lemma Stored.fromDict (hp : Stored py p) :
    fromDict py uid p.toRecord = (requireNonEmpty py "uid" (.str uid)).map fun uid => { p with uid } := by
  have hitem : ∀ key value, p.toRecord.lookup (.text key) = some value → item p.toRecord key = .ok value := by
    intro key value h
    rw [item, h]
  have htools : getOr p.toRecord "tools" (toolsValue DEFAULT_TOOL_ENABLEMENT) = toolsValue p.tools := rfl
  have hskills : getOr p.toRecord "skills" (.list []) = .list (p.skills.map .str) := getOr_skills p.skills
  simp only [Manager.fromDict, hitem "did" _ rfl, hitem "name" _ rfl, hitem "description" _ rfl,
    hitem "vibe" _ rfl, hitem "model_provider" _ rfl, hitem "model_id" _ rfl, hitem "created_at" _ rfl,
    hitem "updated_at" _ rfl, htools, hskills, ok_bind, hp.did, hp.name, hp.description, hp.vibe,
    hp.model_provider, hp.model_id, normalizeTools_toolsValue, normalizeSkills_str hp.skills, py.int_int]
  cases requireNonEmpty py "uid" (.str uid) <;> rfl

lemma Stored.fromDict_ok (hp : Stored py p) {name : String}
    (huid : requireNonEmpty py "uid" (.str uid) = .ok name) :
    Manager.fromDict py uid p.toRecord = .ok { p with uid := name } := by
  rw [hp.fromDict, huid]
  rfl

lemma Stored.update (hp : Stored py p) (uid : String) (tools : Tools) (updated_at : ℤ)
    {skills : List String}
    (hskills : NormalSkills py skills) : Stored py { p with uid, tools, skills, updated_at } :=
  ⟨hp.did, hp.name, hp.description, hp.vibe, hp.model_provider, hp.model_id, hskills⟩

lemma patched_again {patch : Dict} {field old new : String} {validate : Value → Except Exc String}
    (hagain : ∀ {value text}, validate value = .ok text → validate (.str text) = .ok text)
    (hold : validate (.str old) = .ok old) (h : patched patch field old validate = .ok new) :
    validate (.str new) = .ok new := by
  rw [patched] at h
  split at h
  · exact hagain h
  · cases h
    exact hold

lemma Stored.patchTexts {patch : Dict} (hp : Stored py p) (h : patchTexts py patch p = .ok q) :
    Stored py q ∧ q.tools = p.tools ∧ q.skills = p.skills ∧ q.uid = p.uid := by
  obtain ⟨name, hname, h⟩ := bind_ok h
  obtain ⟨description, hdescription, h⟩ := bind_ok h
  obtain ⟨vibe, hvibe, h⟩ := bind_ok h
  obtain ⟨model_provider, hprovider, h⟩ := bind_ok h
  obtain ⟨model_id, hid, h⟩ := bind_ok h
  cases h
  exact ⟨⟨hp.did, patched_again requireNonEmpty_again hp.name hname,
    patched_again requireNonEmpty_again hp.description hdescription,
    patched_again requireOneOf_again hp.vibe hvibe,
    patched_again requireOneOf_again hp.model_provider hprovider,
    patched_again requireNonEmpty_again hp.model_id hid, hp.skills⟩, rfl, rfl, rfl⟩

lemma postInit_stored {r : AgentCreateRequest} {config : AgentConfig} (token : HexToken) (now : ℤ)
    (h : r.postInit py = .ok config) :
    Stored py (config.profile (config.didOr token) now) ∧
      requireNonEmpty py "uid" (.str config.uid) = .ok config.uid := by
  obtain ⟨uid, huid, h⟩ := bind_ok h
  obtain ⟨name, hname, h⟩ := bind_ok h
  obtain ⟨description, hdescription, h⟩ := bind_ok h
  obtain ⟨vibe, hvibe, h⟩ := bind_ok h
  obtain ⟨model_provider, hprovider, h⟩ := bind_ok h
  obtain ⟨model_id, hid, h⟩ := bind_ok h
  obtain ⟨tools, -, h⟩ := bind_ok h
  obtain ⟨skills, hskills, h⟩ := bind_ok h
  obtain ⟨core_files, -, h⟩ := bind_ok h
  obtain ⟨did, hdid, h⟩ := bind_ok h
  cases h
  refine ⟨⟨?_, requireNonEmpty_again hname, requireNonEmpty_again hdescription, requireOneOf_again hvibe,
    requireOneOf_again hprovider, requireNonEmpty_again hid, normalizeSkills_normal hskills⟩,
    requireNonEmpty_again huid⟩
  cases hr : r.did with
  | none =>
    rw [hr] at hdid
    cases hdid
    exact normalizeDid_generated token
  | some value =>
    rw [hr] at hdid
    obtain ⟨text, htext, hdid⟩ := bind_ok hdid
    cases hdid
    exact normalizeDid_again htext

end Profiles

section Stores

variable {K : Type} {py : Builtins} {place : CoreDir → K} {s : Store K} {core_dir : CoreDir}
  {dir : AgentDir} {p q : AgentProfile}

def registryPayload (tools : Tools) : Dict :=
  [("enabled_groups", toolsValue tools),
    ("tool_groups", .dict (Group.all.map fun g => (g.text, .list ((DEFAULT_TOOL_GROUPS g).map .str)))),
    ("denied_tools", .list (DEFAULT_DENIED_TOOLS.map .str))]

def registryOf (tools : Tools) : JsonFile := .json (.dict (registryPayload tools))

structure Holds (py : Builtins) (dir : AgentDir) (p : AgentProfile) : Prop where
  stored : Stored py p
  agent_config : dir.agent_config = .json (.dict p.toRecord)
  tool_registry : dir.tool_registry = registryOf p.tools

def Inv (py : Builtins) (s : Store K) : Prop := ∀ k dir, s k = some dir → ∃ p, Holds py dir p

/-- `enabled_groups` of the one file is `tools` of the other. -/
def AgentDir.Agrees (dir : AgentDir) : Prop :=
  dir.tool_registry.get? "enabled_groups" = dir.agent_config.get? "tools"

def permissionFiles (s : Store K) (k : K) : Option (JsonFile × JsonFile) :=
  (s k).map fun dir => (dir.agent_config, dir.tool_registry)

lemma Holds.agrees (h : Holds py dir p) : dir.Agrees := by
  rw [AgentDir.Agrees, h.agent_config, h.tool_registry]
  rfl

lemma exists_of_loadProfile (h : loadProfile py place core_dir s = .ok p) :
    ∃ dir, s (place core_dir) = some dir := by
  cases hdir : s (place core_dir) with
  | none =>
    simp only [loadProfile, hdir] at h
    cases h
  | some dir => exact ⟨dir, rfl⟩

/-- A profile that is on disk is loaded under the name of the account. -/
lemma Stored.load (hq : Stored py q) (hdir : s (place core_dir) = some dir)
    (hconfig : dir.agent_config = .json (.dict q.toRecord)) :
    loadProfile py place core_dir s =
      (requireNonEmpty py "uid" (.str core_dir.accountName)).map fun uid => { q with uid } := by
  rw [← hq.fromDict, loadProfile, hdir, Option.map_some, Option.getD_some, hconfig, readJson, ok_bind, fromRecord]

lemma Stored.of_load (hq : Stored py q) (hdir : s (place core_dir) = some dir)
    (hconfig : dir.agent_config = .json (.dict q.toRecord)) (h : loadProfile py place core_dir s = .ok p) :
    ∃ uid, requireNonEmpty py "uid" (.str core_dir.accountName) = .ok uid ∧ p = { q with uid } := by
  rw [hq.load hdir hconfig] at h
  cases huid : requireNonEmpty py "uid" (.str core_dir.accountName) with
  | error e =>
    rw [huid] at h
    cases h
  | ok uid =>
    rw [huid] at h
    cases h
    exact ⟨uid, rfl, rfl⟩

lemma Inv.loaded (hi : Inv py s) (h : loadProfile py place core_dir s = .ok p) :
    ∃ dir, s (place core_dir) = some dir ∧ Holds py dir p ∧ requireNonEmpty py "uid" (.str p.uid) = .ok p.uid := by
  obtain ⟨dir, hdir⟩ := exists_of_loadProfile h
  obtain ⟨q, hq⟩ := hi _ _ hdir
  obtain ⟨uid, huid, rfl⟩ := hq.stored.of_load hdir hq.agent_config h
  exact ⟨dir, hdir, ⟨hq.stored.update uid _ _ hq.stored.skills, hq.agent_config, hq.tool_registry⟩,
    requireNonEmpty_again huid⟩

variable [DecidableEq K]

def edit (place : CoreDir → K) (s : Store K) (core_dir : CoreDir) (f : AgentDir → AgentDir) : Store K :=
  Function.update s (place core_dir) ((s (place core_dir)).map f)

lemma edit_update (f : AgentDir → AgentDir) :
    edit place (Function.update s (place core_dir) (some dir)) core_dir f =
      Function.update s (place core_dir) (some (f dir)) := by
  rw [edit, Function.update_self, Function.update_idem]
  rfl

lemma edit_of_some (hdir : s (place core_dir) = some dir) (f : AgentDir → AgentDir) :
    edit place s core_dir f = Function.update s (place core_dir) (some (f dir)) := by
  rw [edit, hdir]
  rfl

/-- What holds of every directory still does when one of them is replaced or removed. -/
lemma forall_update {P : AgentDir → Prop} (hs : ∀ k dir, s k = some dir → P dir) {new : Option AgentDir}
    (hnew : ∀ dir, new = some dir → P dir) (j : K) : ∀ k dir, Function.update s j new k = some dir → P dir := by
  intro k dir hk
  by_cases hkey : k = j
  · subst hkey
    rw [Function.update_self] at hk
    exact hnew dir hk
  · rw [Function.update_of_ne hkey] at hk
    exact hs k dir hk

lemma Inv.update (hi : Inv py s) (h : Holds py dir p) :
    Inv py (Function.update s (place core_dir) (some dir)) := by
  apply forall_update hi
  intro dir' hdir'
  cases hdir'
  exact ⟨p, h⟩

end Stores

section Performing

variable {K : Type} {py : Builtins} {place : CoreDir → K} {s : Store K} {core_dir : CoreDir} {α β : Type}

lemma perform_reads_ok {f : Store K → Except Exc α} {g : α → Code K β} {a : α} (h : f s = .ok a) :
    perform (reads f >>= g) s = perform (g a) s := by
  change ExceptT.bindCont g (f s) s = _
  rw [h]
  rfl

lemma perform_reads_error {f : Store K → Except Exc α} {g : α → Code K β} {e : Exc} (h : f s = .error e) :
    perform (reads f >>= g) s = (.error e, s) := by
  change ExceptT.bindCont g (f s) s = _
  rw [h]
  rfl

lemma perform_check_ok {r : Except Exc α} {g : α → Code K β} {a : α} (h : r = .ok a) :
    perform (check r >>= g) s = perform (g a) s := perform_reads_ok h

variable [DecidableEq K]

lemma perform_writeConfig (p : AgentProfile) (g : Unit → Code K β) :
    perform (writeConfig place core_dir p >>= g) s =
      perform (g ()) (edit place s core_dir fun dir => { dir with agent_config := .json (.dict p.toRecord) }) := rfl

lemma buildToolRegistry_ok (tools : Tools) : buildToolRegistry py tools = .ok (registryPayload tools) := by
  rw [buildToolRegistry, normalizeTools_toolsValue]
  rfl

lemma perform_writeToolRegistry (tools : Tools) (g : Unit → Code K β) :
    perform (writeToolRegistry py place core_dir tools >>= g) s =
      perform (g ()) (edit place s core_dir fun dir => { dir with tool_registry := registryOf tools }) := by
  rw [writeToolRegistry, bind_assoc, perform_check_ok (buildToolRegistry_ok tools)]
  rfl

end Performing

section Safety

variable {K : Type} {py : Builtins} {place : CoreDir → K} {s : Store K} {core_dir : CoreDir}
  {dir : AgentDir}
  {p : AgentProfile} {uid did : Value} {α β : Type}

/-- What a call leaves and how it ends: the store is in order, and no file changes if it raises. -/
structure Safe (py : Builtins) (s : Store K) (x : Except Exc α × Store K) : Prop where
  inv : Inv py x.2
  unchanged : (∃ e, x.1 = .error e) → permissionFiles x.2 = permissionFiles s

lemma safe_error (hi : Inv py s) (e : Exc) : Safe py s ((.error e, s) : Except Exc α × Store K) :=
  ⟨hi, fun _ => rfl⟩

lemma safe_ok {t : Store K} (ht : Inv py t) (a : α) : Safe py s (.ok a, t) := by
  refine ⟨ht, ?_⟩
  rintro ⟨e, he⟩
  cases he

lemma safe_reads {f : Store K → Except Exc α} {g : α → Code K β} (hi : Inv py s)
    (hg : ∀ a, f s = .ok a → Safe py s (perform (g a) s)) : Safe py s (perform (reads f >>= g) s) := by
  cases h : f s with
  | error e =>
    rw [perform_reads_error h]
    exact safe_error hi e
  | ok a =>
    rw [perform_reads_ok h]
    exact hg a h

lemma safe_check {r : Except Exc α} {g : α → Code K β} (hi : Inv py s)
    (hg : ∀ a, r = .ok a → Safe py s (perform (g a) s)) : Safe py s (perform (check r >>= g) s) :=
  safe_reads hi hg

lemma safe_profile {g : CoreDir → AgentProfile → Code K β} (hi : Inv py s)
    (hg : ∀ core_dir dir p, s (place core_dir) = some dir → Holds py dir p →
      requireNonEmpty py "uid" (.str p.uid) = .ok p.uid → Safe py s (perform (g core_dir p) s)) :
    Safe py s (perform (do
      let core_dir ← reads (resolveAgentCoreDir py place uid did)
      let profile ← reads (loadProfile py place core_dir)
      g core_dir profile) s) := by
  refine safe_reads hi fun core_dir _ => safe_reads hi fun p hp => ?_
  obtain ⟨dir, hdir, hholds, huid⟩ := hi.loaded hp
  exact hg core_dir dir p hdir hholds huid

lemma resolve_exists (h : resolveAgentCoreDir py place uid did s = .ok core_dir) :
    ∃ dir, s (place core_dir) = some dir := by
  obtain ⟨uid, -, h⟩ := bind_ok h
  obtain ⟨normalized, -, h⟩ := bind_ok h
  dsimp only at h
  split at h
  · cases h
    exact Option.isSome_iff_exists.mp ‹_›
  · cases h

variable [DecidableEq K]

lemma bindSkill_safe {skill_name : Value} {now : ℤ} (hi : Inv py s) :
    Safe py s (perform (bindSkill py place uid did skill_name now) s) := by
  refine safe_check hi fun skill hskill => safe_profile hi fun core_dir dir p hdir hp _ => ?_
  by_cases hnew : skill ∉ p.skills
  · rw [if_pos hnew]
    refine safe_ok ?_ ()
    change Inv py (edit place s core_dir _)
    rw [edit_of_some hdir]
    refine hi.update (p := { p with skills := p.skills ++ [skill], updated_at := now }) ?_
    have hadd := hp.stored.skills.add (normalizeSkillName_again hskill) hnew
    exact ⟨hp.stored.update _ _ _ hadd, rfl, hp.tool_registry⟩
  · rw [if_neg hnew]
    exact safe_ok hi ()

lemma unbindSkill_safe {skill_name : Value} {now : ℤ} (hi : Inv py s) :
    Safe py s (perform (unbindSkill py place uid did skill_name now) s) := by
  refine safe_check hi fun skill _ => safe_profile hi fun core_dir dir p hdir hp _ => ?_
  by_cases hbound : skill ∈ p.skills
  · rw [if_pos hbound]
    refine safe_ok ?_ ()
    change Inv py (edit place s core_dir _)
    rw [edit_of_some hdir]
    refine hi.update (p := { p with skills := p.skills.filter (· ≠ skill), updated_at := now }) ?_
    exact ⟨hp.stored.update _ _ _ (hp.stored.skills.filter _), rfl, hp.tool_registry⟩
  · rw [if_neg hbound]
    exact safe_ok hi ()

lemma updateToolRegistry_safe {tools : Value} {now : ℤ} (hi : Inv py s) :
    Safe py s (perform (updateToolRegistry py place uid did tools now) s) := by
  refine safe_check hi fun tools _ => safe_profile hi fun core_dir dir p hdir hp _ => ?_
  rw [perform_writeConfig, edit_of_some hdir, ← bind_pure (writeToolRegistry _ _ _ _),
    perform_writeToolRegistry, edit_update]
  refine safe_ok (hi.update (p := { p with tools, updated_at := now }) ?_) ()
  exact ⟨hp.stored.update _ _ _ hp.stored.skills, rfl, rfl⟩

lemma writeCoreFile_safe {filename content : Value} (hi : Inv py s) :
    Safe py s (perform (writeCoreFile py place uid did filename content) s) := by
  refine safe_check hi fun name _ => safe_reads hi fun core_dir hresolve => safe_ok ?_ ()
  obtain ⟨dir, hdir⟩ := resolve_exists hresolve
  obtain ⟨p, hp⟩ := hi _ _ hdir
  change Inv py (edit place s core_dir _)
  rw [edit_of_some hdir]
  exact hi.update ⟨hp.stored, hp.agent_config, hp.tool_registry⟩

end Safety

section Conditions

variable {K : Type} (py : Builtins) (place : CoreDir → K)

/-- The patch is refused at its skills, after its tool groups, other than those of the agent, have
been written. -/
def HalfWritten (s : Store K) (uid did : Value) (patch : Dict) : Prop :=
  ∃ core_dir profile tools, resolveAgentCoreDir py place uid did s = .ok core_dir ∧
    loadProfile py place core_dir s = .ok profile ∧ refuseUnknown py patch = .ok () ∧
    (∃ q, patchTexts py patch profile = .ok q) ∧
    (∃ value, patch.lookup (.text "tools") = some value ∧ normalizeTools py value = .ok tools) ∧
    tools ≠ profile.tools ∧
    ∃ value e, patch.lookup (.text "skills") = some value ∧ normalizeSkills py value = .error e

/-- A new agent is written under an account whose name `get_agent` refuses. -/
def Unreadable (s : Store K) (request : AgentCreateRequest) (token : HexToken) : Prop :=
  ∃ config, request.postInit py = .ok config ∧ s (place ⟨config.uid, config.didOr token⟩) = none ∧
    strip (CoreDir.accountName ⟨config.uid, config.didOr token⟩) = ""

def Condition (s : Store K) : Call → Prop
  | .create_agent request token _ => ¬ Unreadable py place s request token
  | .update_agent uid did patch _ => ¬ HalfWritten py place s uid did patch
  | _ => True

variable [DecidableEq K]

/-- After the call the two files of every agent agree, and if it raises both are what they were. -/
def Keeps (s : Store K) (c : Call) : Prop :=
  (∀ k dir, (perform (c.exec py place) s).2 k = some dir → dir.Agrees) ∧
    ((∃ e, (perform (c.exec py place) s).1 = .error e) →
      permissionFiles (perform (c.exec py place) s).2 = permissionFiles s)

end Conditions

section Updates

variable {K : Type} [DecidableEq K] {py : Builtins} {place : CoreDir → K} {s : Store K} {core_dir : CoreDir}
  {dir : AgentDir} {p q : AgentProfile} {uid did : Value} {patch : Dict} {now : ℤ}

lemma patched_skills (hq : NormalSkills py q.skills) {skills : List String}
    (h : patched patch "skills" q.skills (normalizeSkills py) = .ok skills) : NormalSkills py skills := by
  rw [patched] at h
  split at h
  · exact normalizeSkills_normal h
  · cases h
    exact hq

lemma finishUpdate_ok {skills : List String} (hi : Inv py s) (hq : Stored py q)
    (huid : requireNonEmpty py "uid" (.str q.uid) = .ok q.uid) (hreg : dir.tool_registry = registryOf q.tools)
    (h : patched patch "skills" q.skills (normalizeSkills py) = .ok skills) :
    Safe py s (perform (finishUpdate py place core_dir patch now q)
      (Function.update s (place core_dir) (some dir))) := by
  have hstored := hq.update q.uid q.tools now (patched_skills hq.skills h)
  rw [finishUpdate, perform_check_ok h, perform_writeConfig, edit_update]
  rw [← bind_pure (check _), perform_check_ok (hstored.fromDict_ok huid)]
  refine safe_ok (hi.update (p := { q with skills, updated_at := now }) ?_) _
  exact ⟨hstored, rfl, hreg⟩

lemma finishUpdate_error {e : Exc} (h : patched patch "skills" q.skills (normalizeSkills py) = .error e) :
    perform (finishUpdate py place core_dir patch now q) s = (.error e, s) := perform_reads_error h

lemma patchTools_none (h : patch.lookup (.text "tools") = none) :
    patchTools py place core_dir patch q = pure q := by
  rw [patchTools, h]

lemma perform_patchTools {value : Value} {tools : Tools} {α : Type} {g : AgentProfile → Code K α}
    (h : patch.lookup (.text "tools") = some value) (hn : normalizeTools py value = .ok tools)
    (hdir : s (place core_dir) = some dir) :
    perform (patchTools py place core_dir patch q >>= g) s = perform (g { q with tools })
      (Function.update s (place core_dir) (some { dir with tool_registry := registryOf tools })) := by
  rw [patchTools, h]
  dsimp only
  rw [bind_assoc, perform_check_ok hn, bind_assoc, perform_writeToolRegistry, pure_bind, edit_of_some hdir]

lemma patched_error {α : Type} {field : String} {old : α} {validate : Value → Except Exc α} {e : Exc}
    (h : patched patch field old validate = .error e) :
    ∃ value, patch.lookup (.text field) = some value ∧ validate value = .error e := by
  rw [patched] at h
  split at h
  · exact ⟨_, ‹_›, h⟩
  · cases h

lemma updateAgent_safe (hi : Inv py s) (hc : ¬ HalfWritten py place s uid did patch) :
    Safe py s (perform (updateAgent py place uid did patch now) s) := by
  refine safe_reads hi fun core_dir hresolve => safe_reads hi fun p hload => ?_
  refine safe_check hi fun _ hknown => safe_check hi fun q hq => ?_
  obtain ⟨dir, hdir, hp, huid⟩ := hi.loaded hload
  obtain ⟨hstored, htools, hskills, hquid⟩ := hp.stored.patchTexts hq
  rw [← hquid] at huid
  cases hpatch : patch.lookup (.text "tools") with
  | none =>
    rw [patchTools_none hpatch, pure_bind]
    cases hs : patched patch "skills" q.skills (normalizeSkills py) with
    | error e =>
      rw [finishUpdate_error hs]
      exact safe_error hi e
    | ok skills =>
      have hreg : dir.tool_registry = registryOf q.tools := by
        rw [hp.tool_registry, htools]
      have hsafe : Safe py s (perform (finishUpdate py place core_dir patch now q)
          (Function.update s (place core_dir) (some dir))) := finishUpdate_ok hi hstored huid hreg hs
      rwa [← hdir, Function.update_eq_self] at hsafe
  | some value =>
    cases hn : normalizeTools py value with
    | error e =>
      rw [patchTools, hpatch]
      dsimp only
      rw [bind_assoc]
      exact safe_check hi fun tools htools => by rw [hn] at htools; cases htools
    | ok tools =>
      rw [perform_patchTools hpatch hn hdir]
      cases hs : patched patch "skills" q.skills (normalizeSkills py) with
      | error e =>
        -- only a patch with the groups that the agent has is left here
        have hsame : tools = p.tools := by
          by_contra hne
          obtain ⟨skills, hskills, herror⟩ := patched_error hs
          exact hc ⟨core_dir, p, tools, hresolve, hload, hknown, ⟨q, hq⟩, ⟨value, hpatch, hn⟩, hne, skills, e,
            hskills, herror⟩
        have hback : Function.update s (place core_dir) (some { dir with tool_registry := registryOf tools }) = s := by
          rw [hsame, ← hp.tool_registry, ← hdir, Function.update_eq_self]
        rw [finishUpdate_error (q := { q with tools }) hs, hback]
        exact safe_error hi e
      | ok skills =>
        refine finishUpdate_ok hi ?_ huid rfl hs
        exact hstored.update q.uid tools q.updated_at hstored.skills

end Updates

section Creation

variable {K : Type} {py : Builtins} {place : CoreDir → K} {s : Store K} {core_dir : CoreDir}
  {dir : AgentDir} {p : AgentProfile}

lemma getAgent_created (hp : Holds py dir p) (hdir : s (place ⟨p.uid, p.did⟩) = some dir)
    (huid : requireNonEmpty py "uid" (.str p.uid) = .ok p.uid) :
    perform (getAgent py place (.str p.uid) (.str p.did)) s =
      ((requireNonEmpty py "uid" (.str (CoreDir.accountName ⟨p.uid, p.did⟩))).map fun uid => { p with uid }, s) := by
  have hresolve : resolveAgentCoreDir py place (.str p.uid) (.str p.did) s = .ok ⟨p.uid, p.did⟩ := by
    simp only [resolveAgentCoreDir, huid, ok_bind, hp.stored.did, hdir, Option.isSome_some, if_true]
    rfl
  rw [getAgent, perform_reads_ok hresolve, ← hp.stored.load hdir hp.agent_config]
  rfl

variable [DecidableEq K]

lemma perform_writeFiles (place : CoreDir → K) (s : Store K) (core_dir : CoreDir) (dir : AgentDir)
    (files : List (String × String)) (g : PUnit → Code K AgentProfile) :
    ∃ core_files, perform (files.forM (fun file => writeText place core_dir file.1 file.2) >>= g)
        (Function.update s (place core_dir) (some dir)) =
      perform (g ⟨⟩) (Function.update s (place core_dir) (some { dir with core_files })) := by
  induction files generalizing dir with
  | nil => exact ⟨dir.core_files, rfl⟩
  | cons file files ih =>
    obtain ⟨core_files, h⟩ := ih { dir with core_files := put dir.core_files file.1 file.2 }
    refine ⟨core_files, Eq.trans ?_ h⟩
    change perform ((writeText place core_dir file.1 file.2 >>= fun _ => files.forM _) >>= g) _ = _
    have hwrite : ∀ g : Unit → Code K AgentProfile, perform (writeText place core_dir file.1 file.2 >>= g)
        (Function.update s (place core_dir) (some dir)) = perform (g ()) (edit place _ core_dir _) := fun _ => rfl
    rw [bind_assoc, hwrite, edit_update]

variable {request : AgentCreateRequest} {config : AgentConfig} {token : HexToken}

lemma perform_createAgent (now : ℤ) (hconfig : request.postInit py = .ok config)
    (hnew : s (place ⟨config.uid, config.didOr token⟩) = none) :
    ∃ dir, Holds py dir (config.profile (config.didOr token) now) ∧
      perform (createAgent py place request token now) s =
        perform (getAgent py place (.str config.uid) (.str (config.didOr token)))
          (Function.update s (place ⟨config.uid, config.didOr token⟩) (some dir)) := by
  obtain ⟨hstored, -⟩ := postInit_stored token now hconfig
  have hexists : (fun s : Store K => if (s (place ⟨config.uid, config.didOr token⟩)).isSome then
      Except.error (Exc.agentAlreadyExists (config.didOr token)) else .ok ()) s = .ok () := by
    simp [hnew]
  have hmkdir : ∀ g : PUnit → Code K AgentProfile, perform (mkdir place ⟨config.uid, config.didOr token⟩ >>= g) s =
      perform (g ⟨⟩) (Function.update s (place ⟨config.uid, config.didOr token⟩) (some {})) := fun _ => rfl
  rw [createAgent, perform_check_ok hconfig, perform_reads_ok hexists, hmkdir, perform_writeConfig, edit_update,
    perform_writeToolRegistry, edit_update]
  obtain ⟨core_files, h⟩ := perform_writeFiles place s ⟨config.uid, config.didOr token⟩ _
    (defaultCoreFiles (config.profile (config.didOr token) now) config.core_files) _
  exact ⟨_, ⟨hstored, rfl, rfl⟩, h⟩

lemma createAgent_result (now : ℤ) (hconfig : request.postInit py = .ok config)
    (hnew : s (place ⟨config.uid, config.didOr token⟩) = none) :
    ∃ dir, Holds py dir (config.profile (config.didOr token) now) ∧
      perform (createAgent py place request token now) s =
        ((requireNonEmpty py "uid" (.str (CoreDir.accountName ⟨config.uid, config.didOr token⟩))).map
            fun uid => { config.profile (config.didOr token) now with uid },
          Function.update s (place ⟨config.uid, config.didOr token⟩) (some dir)) := by
  obtain ⟨dir, hp, hperform⟩ := perform_createAgent now hconfig hnew
  obtain ⟨-, huid⟩ := postInit_stored token now hconfig
  refine ⟨dir, hp, ?_⟩
  have hdir : Function.update s (place ⟨config.uid, config.didOr token⟩) (some dir)
      (place ⟨config.uid, config.didOr token⟩) = some dir := Function.update_self _ _ _
  have hget := getAgent_created hp hdir huid
  rw [hperform]
  exact hget

lemma createAgent_exists (now : ℤ) (hconfig : request.postInit py = .ok config)
    (hs : s (place ⟨config.uid, config.didOr token⟩) = some dir) :
    perform (createAgent py place request token now) s = (.error (.agentAlreadyExists (config.didOr token)), s) := by
  have hexists : (fun s : Store K => if (s (place ⟨config.uid, config.didOr token⟩)).isSome then
      Except.error (Exc.agentAlreadyExists (config.didOr token)) else .ok ()) s =
        .error (.agentAlreadyExists (config.didOr token)) := by
    simp [hs]
  rw [createAgent, perform_check_ok hconfig, perform_reads_error hexists]

lemma createAgent_safe (now : ℤ) (hi : Inv py s) (hc : ¬ Unreadable py place s request token) :
    Safe py s (perform (createAgent py place request token now) s) := by
  cases hconfig : request.postInit py with
  | error e =>
    rw [createAgent, check, perform_reads_error hconfig]
    exact safe_error hi e
  | ok config =>
    cases hs : s (place ⟨config.uid, config.didOr token⟩) with
    | some dir =>
      rw [createAgent_exists now hconfig hs]
      exact safe_error hi _
    | none =>
      obtain ⟨dir, hp, hperform⟩ := createAgent_result now hconfig hs
      have hname : strip (CoreDir.accountName ⟨config.uid, config.didOr token⟩) ≠ "" := fun hblank =>
        hc ⟨config, hconfig, hs, hblank⟩
      rw [hperform, requireNonEmpty, py.str_str, if_neg hname]
      exact safe_ok (hi.update hp) _

/-- The agent stays, although the call raises. -/
lemma createAgent_unreadable (now : ℤ) (h : Unreadable py place s request token) :
    ∃ e k dir, perform (createAgent py place request token now) s = (.error e, Function.update s k (some dir)) ∧
      s k = none := by
  obtain ⟨config, hconfig, hnone, hblank⟩ := h
  obtain ⟨dir, -, hperform⟩ := createAgent_result now hconfig hnone
  refine ⟨.invalidAgentConfig ("uid" ++ " must not be empty"), _, dir, ?_, hnone⟩
  rw [hperform, requireNonEmpty, py.str_str, if_pos hblank]
  rfl

end Creation

section Runs

variable {K : Type} {py : Builtins} {place : CoreDir → K} {s : Store K} {c : Call}

lemma registryOf_injective (py : Builtins) {tools tools' : Tools}
    (h : registryOf tools = registryOf tools') :
    tools = tools' := by
  have hget := congrArg (JsonFile.get? "enabled_groups") h
  exact toolsValue_injective py (Option.some.inj hget)

lemma perform_discard {α : Type} (p : Code K α) (s : Store K) :
    perform (p >>= fun _ => pure ()) s = ((perform p s).1.map fun _ => (), (perform p s).2) := by
  change ExceptT.bindCont (m := StateM (Store K)) (fun _ => pure ()) (perform p s).1 (perform p s).2 = _
  cases (perform p s).1 <;> rfl

lemma Safe.discard {α : Type} {p : Code K α} (h : Safe py s (perform p s)) :
    Safe py s (perform (p >>= fun _ => pure ()) s) := by
  rw [perform_discard]
  refine ⟨h.inv, ?_⟩
  rintro ⟨e, he⟩
  refine h.unchanged ⟨e, ?_⟩
  cases hr : (perform p s).1 with
  | error e' =>
    rw [hr] at he
    cases he
    rfl
  | ok a =>
    rw [hr] at he
    cases he

variable [DecidableEq K]

lemma Safe.keeps (h : Safe py s (perform (c.exec py place) s)) : Keeps py place s c := by
  refine ⟨fun k dir hk => ?_, h.unchanged⟩
  obtain ⟨p, hp⟩ := h.inv k dir hk
  exact hp.agrees

lemma exec_safe (hi : Inv py s) (hc : Condition py place s c) :
    Safe py s (perform (c.exec py place) s) := by
  cases c with
  | create_agent request token now => exact (createAgent_safe now hi hc).discard
  | update_agent uid did patch now => exact (updateAgent_safe hi hc).discard
  | update_tool_registry uid did tools now => exact updateToolRegistry_safe hi
  | bind_skill uid did skill_name now => exact bindSkill_safe hi
  | unbind_skill uid did skill_name now => exact unbindSkill_safe hi
  | write_core_file uid did filename content => exact writeCoreFile_safe hi

lemma not_keeps_of_halfWritten {uid did : Value} {patch : Dict} {now : ℤ} (hi : Inv py s)
    (h : HalfWritten py place s uid did patch) : ¬ Keeps py place s (.update_agent uid did patch now) := by
  obtain ⟨core_dir, p, tools, hresolve, hload, hknown, ⟨q, hq⟩, ⟨value, hvalue, hn⟩, hne, skills, e, hskills, he⟩ := h
  obtain ⟨dir, hdir, hp, -⟩ := hi.loaded hload
  have hpatched : patched patch "skills" q.skills (normalizeSkills py) = .error e := by
    rw [patched, hskills]
    exact he
  have hperform : perform (updateAgent py place uid did patch now) s =
      (.error e, Function.update s (place core_dir) (some { dir with tool_registry := registryOf tools })) := by
    rw [updateAgent, perform_reads_ok hresolve, perform_reads_ok hload, perform_check_ok hknown,
      perform_check_ok hq, perform_patchTools hvalue hn hdir]
    exact finishUpdate_error hpatched
  rintro ⟨-, hunchanged⟩
  rw [Call.exec, perform_discard, hperform] at hunchanged
  have hfiles := congrFun (hunchanged ⟨e, rfl⟩) (place core_dir)
  simp only [permissionFiles, Function.update_self, hdir, Option.map_some, Option.some.injEq, Prod.mk.injEq,
    hp.tool_registry] at hfiles
  exact hne (registryOf_injective py hfiles.2)

lemma not_keeps_of_unreadable {request : AgentCreateRequest} {token : HexToken} {now : ℤ}
    (h : Unreadable py place s request token) : ¬ Keeps py place s (.create_agent request token now) := by
  obtain ⟨e, k, dir, hperform, hnone⟩ := createAgent_unreadable now h
  rintro ⟨-, hunchanged⟩
  rw [Call.exec, perform_discard, hperform] at hunchanged
  have hfiles := congrFun (hunchanged ⟨e, rfl⟩) k
  simp [permissionFiles, hnone] at hfiles

lemma keeps_iff (hi : Inv py s) : Keeps py place s c ↔ Condition py place s c := by
  refine ⟨fun h => ?_, fun h => (exec_safe hi h).keeps⟩
  cases c with
  | create_agent request token now => exact fun hbad => not_keeps_of_unreadable hbad h
  | update_agent uid did patch now => exact fun hbad => not_keeps_of_halfWritten hi hbad h
  | _ => trivial

/-- From an empty store, the two files of every agent agree after every call, and a call that raises
leaves them as they were, exactly when every call meets its condition. -/
theorem permissions_agree_iff (py : Builtins) (place : CoreDir → K) (calls : List Call) :
    Along (step py place) (Keeps py place) (fun _ => none) calls ↔
      Along (step py place) (Condition py place) (fun _ => none) calls := by
  refine along_iff keeps_iff ?_ ?_
  · intro s c t hi hc ht
    cases ht
    exact (exec_safe hi hc).inv
  · intro k dir hk
    cases hk

end Runs

section Refused

/-- `str` and `int` without containers, and `str.upper` of texts without lower-case letters. -/
def plain : Builtins where
  str
    | .str s => s
    | .null => "None"
    | .bool b => if b then "True" else "False"
    | .int n => toString n
    | .float repr => repr
    | _ => ""
  int
    | .int n => .ok n
    | .bool b => .ok b.toNat
    | .str _ => .error .value
    | _ => .error .type
  upper s := s
  str_str _ := rfl
  int_int _ := rfl
  upper_upper _ := rfl
  upper_ascii _ _ := rfl
  strip_upper _ h := h

def accounts (core_dir : CoreDir) : String × String := (core_dir.uid, core_dir.did)

def creation : Call :=
  .create_agent
    { uid := .str "u1", name := .str "ops", description := .str "disk checks", vibe := .str "expert",
      model_provider := .str "openai", model_id := .str "gpt-4", did := some (.str "DID-1") }
    ⟨List.replicate 32 '0', List.length_replicate, fun _ hc => (List.mem_replicate.mp hc).2 ▸ List.mem_cons_self⟩ 0

/-- No commands any more, and a skill without a name. -/
def refusal : Call :=
  .update_agent (.str "u1") (.str "DID-1")
    [("tools", .dict [("command_execution", .bool false)]), ("skills", .list [.str ""])] 1

def commandsEnabled (value : Option Value) : Bool :=
  match value.map (normalizeTools plain) with
  | some (.ok tools) => tools .command_execution
  | _ => false

/-- The patch is refused, and `bash` is disabled in `tool-registry.jsonc` only. -/
theorem refused_patch_half_written :
    ¬ ∀ calls, Along (step plain accounts) (Keeps plain accounts) (fun _ => none) calls := by
  intro h
  have hagrees := ((h [creation, refusal]).tail rfl).head.1
  obtain ⟨dir, hdir, hdiffer⟩ : ∃ dir, (perform (refusal.exec plain accounts)
      (perform (creation.exec plain accounts) fun _ => none).2).2 ("u1", "DID-1") = some dir ∧
      (commandsEnabled (dir.tool_registry.get? "enabled_groups") !=
        commandsEnabled (dir.agent_config.get? "tools")) = true :=
    (Option.any_eq_true _ _).mp (by decide +kernel)
  have hsame := hagrees _ dir hdir
  rw [AgentDir.Agrees] at hsame
  rw [hsame] at hdiffer
  simp at hdiffer

end Refused

end OpsSentry.Agent.Manager
