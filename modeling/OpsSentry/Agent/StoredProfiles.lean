import OpsSentry.Agent.ToolPermissions
import OpsSentry.Foundation.Additions

/-! The profile that is stored of an agent, as the calls that went well have made it. -/

namespace OpsSentry.Agent.Manager

open Foundation.Additions Foundation.Runs Foundation.Values

section Outcomes

variable {K α β : Type} {s t : Store K} {b : β}

lemma of_perform_reads {f : Store K → Except Exc α} {g : α → Code K β}
    (h : perform (reads f >>= g) s = (.ok b, t)) : ∃ a, f s = .ok a ∧ perform (g a) s = (.ok b, t) := by
  cases hf : f s with
  | error e =>
    rw [perform_reads_error hf] at h
    cases h
  | ok a => exact ⟨a, rfl, perform_reads_ok hf ▸ h⟩

lemma of_perform_check {r : Except Exc α} {g : α → Code K β} (h : perform (check r >>= g) s = (.ok b, t)) :
    ∃ a, r = .ok a ∧ perform (g a) s = (.ok b, t) := of_perform_reads h

end Outcomes

section Names

variable (py : Builtins)

/-- The names that a sequence of skills holds. -/
def skillNames (value : Value) : Except Exc (List String) := do
  let elements ← iter value
  elements.mapM (normalizeSkillName py)

variable {py} {value : Value} {skills : List String}

lemma foldlM_addSkill {elements : List Value} {normalized : List String}
    (h : elements.foldlM (addSkill py) normalized = .ok skills) :
    ∃ names, elements.mapM (normalizeSkillName py) = .ok names ∧ skills = names.foldl insertNew normalized := by
  induction elements generalizing normalized with
  | nil =>
    cases h
    exact ⟨[], rfl, rfl⟩
  | cons v elements ih =>
    rw [List.foldlM_cons] at h
    obtain ⟨next, hnext, h⟩ := bind_ok h
    obtain ⟨cleaned, hcleaned, hnext⟩ := bind_ok hnext
    obtain rfl : insertNew normalized cleaned = next := Except.ok.inj hnext
    obtain ⟨names, hnames, rfl⟩ := ih h
    refine ⟨cleaned :: names, ?_, rfl⟩
    rw [List.mapM_cons, hcleaned, ok_bind, hnames]
    rfl

lemma normalizeSkills_names (h : normalizeSkills py value = .ok skills) :
    ∃ names, skillNames py value = .ok names ∧ skills = apply [] (.replaced names) := by
  obtain ⟨elements, helements, h⟩ := bind_ok h
  obtain ⟨names, hnames, rfl⟩ := foldlM_addSkill h
  refine ⟨names, ?_, rfl⟩
  rw [skillNames, helements, ok_bind, hnames]

end Names

section Keys

variable (py : Builtins)

def toolsDict (tools : Tools) : List (String × Bool) := Group.all.map fun g => (g.text, tools g)

/-- `_normalize_tools`, with its dictionary. -/
def normalizeToolsDict (value : Value) : Except Exc (List (String × Bool)) := do
  let items ← dictItems value
  items.foldlM (fun normalized item =>
    match item.1 with
    | .str key =>
      if key ∈ Group.all.map Group.text then .ok (put normalized key item.2.truthy)
      else .error (.invalidToolRegistry ("unsupported tool group: " ++ py.str item.1))
    | _ => .error (.invalidToolRegistry ("unsupported tool group: " ++ py.str item.1)))
    (toolsDict DEFAULT_TOOL_ENABLEMENT)

variable {py}

lemma text_injective {g g' : Group} (h : g.text = g'.text) : g = g' := by
  have hkey := ofKey_text g
  rw [h, ofKey_text] at hkey
  exact (Option.some.inj hkey).symm

lemma put_toolsDict (tools : Tools) (g : Group) (enabled : Bool) :
    put (toolsDict tools) g.text enabled = toolsDict (Function.update tools g enabled) := by
  have hkeys : (toolsDict tools).map Prod.fst = Group.all.map Group.text := by rw [toolsDict, List.map_map]; rfl
  have hmem : g.text ∈ (toolsDict tools).map Prod.fst := by
    rw [hkeys]
    cases g <;> decide
  rw [put, if_pos hmem, toolsDict, List.map_map, toolsDict]
  refine List.map_congr_left fun g' _ => ?_
  by_cases hg : g' = g
  · simp [hg]
  · simp [hg, mt text_injective hg]

lemma normalizeToolsDict_eq (value : Value) :
    normalizeToolsDict py value = (normalizeTools py value).map toolsDict := by
  rw [normalizeToolsDict, normalizeTools]
  cases dictItems value with
  | error e => rfl
  | ok items =>
    rw [ok_bind, ok_bind]
    generalize DEFAULT_TOOL_ENABLEMENT = tools
    induction items generalizing tools with
    | nil => rfl
    | cons item items ih =>
      rw [List.foldlM_cons, List.foldlM_cons, addGroup]
      cases hkey : item.1 with
      | str key =>
        by_cases hmem : key ∈ Group.all.map Group.text
        · obtain ⟨g, -, rfl⟩ := List.mem_map.1 hmem
          simp only [if_pos hmem, ofKey_text, ok_bind, put_toolsDict]
          exact ih _
        · have hnone : Group.ofKey? (.str key) = none := by
            rw [Group.ofKey?, List.find?_eq_none]
            rintro g hg heq
            exact hmem (List.mem_map.2 ⟨g, hg, by simpa using heq⟩)
          simp only [if_neg hmem, hnone]
          rfl
      | _ => rfl

end Keys

section Effects

variable {K : Type} [DecidableEq K] (py : Builtins) (place : CoreDir → K)

def coreDirOf (uid did : Value) : Except Exc CoreDir := do
  let uid ← requireNonEmpty py "uid" uid
  let did ← normalizeDid py did
  pure ⟨uid, did⟩

/-- The agent that a call is about. -/
def Call.coreDir : Call → Except Exc CoreDir
  | .create_agent request token _ => (request.postInit py).map fun config => ⟨config.uid, config.didOr token⟩
  | .update_agent uid did _ _ => coreDirOf py uid did
  | .update_tool_registry uid did _ _ => coreDirOf py uid did
  | .bind_skill uid did _ _ => coreDirOf py uid did
  | .unbind_skill uid did _ _ => coreDirOf py uid did
  | .write_core_file uid did _ _ => coreDirOf py uid did

/-- What a call asks for of the skills of its agent. -/
def Call.skillEvents : Call → Except Exc (List (Event String))
  | .create_agent request _ _ => (skillNames py request.skills).map fun names => [.replaced names]
  | .update_agent _ _ patch _ =>
    match patch.lookup (.text "skills") with
    | some value => (skillNames py value).map fun names => [.replaced names]
    | none => .ok []
  | .bind_skill _ _ skill_name _ => (normalizeSkillName py skill_name).map fun name => [.added name]
  | .unbind_skill _ _ skill_name _ => (normalizeSkillName py skill_name).map fun name => [.removed name]
  | _ => .ok []

/-- A call that went well has written the directory of its agent, whose skills have changed as the
call asked. -/
structure Effect (s t : Store K) (c : Call) (core_dir : CoreDir) (dir : AgentDir) (p : AgentProfile)
    (events : List (Event String)) : Prop where
  coreDir : c.coreDir py = .ok core_dir
  skillEvents : c.skillEvents py = .ok events
  written : t = Function.update s (place core_dir) (some dir)
  holds : Holds py dir p
  skills : (s (place core_dir) = none ∧
      ∃ names, events = [.replaced names] ∧ p.skills = apply [] (.replaced names)) ∨
    ∃ old q, s (place core_dir) = some old ∧ Holds py old q ∧ p.skills = events.foldl apply q.skills

variable {py place} {s t : Store K} {core_dir : CoreDir} {p q : AgentProfile} {uid did : Value} {now : ℤ}

omit [DecidableEq K] in
lemma resolve_coreDir (h : resolveAgentCoreDir py place uid did s = .ok core_dir) :
    coreDirOf py uid did = .ok core_dir ∧ (s (place core_dir)).isSome := by
  obtain ⟨name, hname, h⟩ := bind_ok h
  obtain ⟨normalized, hdid, h⟩ := bind_ok h
  dsimp only at h
  split at h
  · cases h
    exact ⟨by rw [coreDirOf, hname, ok_bind, hdid]; rfl, ‹_›⟩
  · cases h

omit [DecidableEq K] in
lemma resolve_of_coreDir (h : coreDirOf py uid did = .ok core_dir) (hs : (s (place core_dir)).isSome) :
    resolveAgentCoreDir py place uid did s = .ok core_dir := by
  obtain ⟨name, hname, h⟩ := bind_ok h
  obtain ⟨normalized, hdid, h⟩ := bind_ok h
  cases h
  simp only [resolveAgentCoreDir, hname, ok_bind, hdid, if_pos hs]
  rfl

omit [DecidableEq K] in
/-- A call on an agent that exists starts from its loaded profile. -/
lemma of_perform_profile {β : Type} {b : β} {g : CoreDir → AgentProfile → Code K β} (hi : Inv py s)
    (h : perform (do
      let core_dir ← reads (resolveAgentCoreDir py place uid did)
      let profile ← reads (loadProfile py place core_dir)
      g core_dir profile) s = (.ok b, t)) :
    ∃ core_dir dir p, coreDirOf py uid did = .ok core_dir ∧ loadProfile py place core_dir s = .ok p ∧
      s (place core_dir) = some dir ∧ Holds py dir p ∧ requireNonEmpty py "uid" (.str p.uid) = .ok p.uid ∧
      perform (g core_dir p) s = (.ok b, t) := by
  obtain ⟨core_dir, hresolve, h⟩ := of_perform_reads h
  obtain ⟨p, hload, h⟩ := of_perform_reads h
  obtain ⟨dir, hdir, hp, huid⟩ := hi.loaded hload
  exact ⟨core_dir, dir, p, (resolve_coreDir hresolve).1, hload, hdir, hp, huid, h⟩

lemma effect_bind {skill_name : Value} (hi : Inv py s)
    (h : perform (bindSkill py place uid did skill_name now) s = (.ok (), t)) :
    ∃ core_dir dir p events, Effect py place s t (.bind_skill uid did skill_name now) core_dir dir p events := by
  obtain ⟨skill, hskill, h⟩ := of_perform_check h
  obtain ⟨core_dir, dir, p, hcore, -, hdir, hp, -, h⟩ := of_perform_profile hi h
  have hevents : Call.skillEvents py (.bind_skill uid did skill_name now) = .ok [.added skill] := by
    rw [Call.skillEvents, hskill]
    rfl
  by_cases hnew : skill ∉ p.skills
  · rw [if_pos hnew] at h
    obtain rfl : edit place s core_dir _ = t := (Prod.mk.inj h).2
    have hadd := hp.stored.skills.add (normalizeSkillName_again hskill) hnew
    exact ⟨core_dir, _, { p with skills := p.skills ++ [skill], updated_at := now }, _,
      { coreDir := hcore, skillEvents := hevents, written := edit_of_some hdir _,
        holds := ⟨hp.stored.update _ _ _ hadd, rfl, hp.tool_registry⟩
        skills := .inr ⟨dir, p, hdir, hp, by simp [apply, insertNew, hnew]⟩ }⟩
  · rw [if_neg hnew] at h
    obtain rfl : s = t := (Prod.mk.inj h).2
    exact ⟨core_dir, dir, p, _,
      { coreDir := hcore, skillEvents := hevents, written := by rw [← hdir, Function.update_eq_self], holds := hp
        skills := .inr ⟨dir, p, hdir, hp, by simp [apply, insertNew, not_not.1 hnew]⟩ }⟩

lemma effect_unbind {skill_name : Value} (hi : Inv py s)
    (h : perform (unbindSkill py place uid did skill_name now) s = (.ok (), t)) :
    ∃ core_dir dir p events, Effect py place s t (.unbind_skill uid did skill_name now) core_dir dir p events := by
  obtain ⟨skill, hskill, h⟩ := of_perform_check h
  obtain ⟨core_dir, dir, p, hcore, -, hdir, hp, -, h⟩ := of_perform_profile hi h
  have hevents : Call.skillEvents py (.unbind_skill uid did skill_name now) = .ok [.removed skill] := by
    rw [Call.skillEvents, hskill]
    rfl
  by_cases hbound : skill ∈ p.skills
  · rw [if_pos hbound] at h
    obtain rfl : edit place s core_dir _ = t := (Prod.mk.inj h).2
    exact ⟨core_dir, _, { p with skills := p.skills.filter (· ≠ skill), updated_at := now }, _,
      { coreDir := hcore, skillEvents := hevents, written := edit_of_some hdir _,
        holds := ⟨hp.stored.update _ _ _ (hp.stored.skills.filter _), rfl, hp.tool_registry⟩
        skills := .inr ⟨dir, p, hdir, hp, rfl⟩ }⟩
  · rw [if_neg hbound] at h
    obtain rfl : s = t := (Prod.mk.inj h).2
    have hsame : p.skills.filter (· ≠ skill) = p.skills := by
      rw [List.filter_eq_self]
      rintro a ha
      simpa using ne_of_mem_of_not_mem ha hbound
    exact ⟨core_dir, dir, p, _,
      { coreDir := hcore, skillEvents := hevents, written := by rw [← hdir, Function.update_eq_self], holds := hp
        skills := .inr ⟨dir, p, hdir, hp, hsame.symm⟩ }⟩

lemma effect_tools {tools : Value} (hi : Inv py s)
    (h : perform (updateToolRegistry py place uid did tools now) s = (.ok (), t)) :
    ∃ core_dir dir p events, Effect py place s t (.update_tool_registry uid did tools now) core_dir dir p events := by
  obtain ⟨tools, -, h⟩ := of_perform_check h
  obtain ⟨core_dir, dir, p, hcore, -, hdir, hp, -, h⟩ := of_perform_profile hi h
  rw [perform_writeConfig, edit_of_some hdir, ← bind_pure (writeToolRegistry _ _ _ _), perform_writeToolRegistry,
    edit_update] at h
  exact ⟨core_dir, _, { p with tools, updated_at := now }, [],
    { coreDir := hcore, skillEvents := rfl, written := (Prod.mk.inj h).2.symm,
      holds := ⟨hp.stored.update _ _ _ hp.stored.skills, rfl, rfl⟩
      skills := .inr ⟨dir, p, hdir, hp, rfl⟩ }⟩

lemma effect_file {filename content : Value} (hi : Inv py s)
    (h : perform (writeCoreFile py place uid did filename content) s = (.ok (), t)) :
    ∃ core_dir dir p events,
      Effect py place s t (.write_core_file uid did filename content) core_dir dir p events := by
  obtain ⟨name, -, h⟩ := of_perform_check h
  obtain ⟨core_dir, hresolve, h⟩ := of_perform_reads h
  obtain ⟨hcore, hexists⟩ := resolve_coreDir hresolve
  obtain ⟨dir, hdir⟩ := Option.isSome_iff_exists.1 hexists
  obtain ⟨p, hp⟩ := hi _ _ hdir
  obtain rfl : edit place s core_dir _ = t := (Prod.mk.inj h).2
  exact ⟨core_dir, _, p, [],
    { coreDir := hcore, skillEvents := rfl, written := edit_of_some hdir _,
      holds := ⟨hp.stored, hp.agent_config, hp.tool_registry⟩
      skills := .inr ⟨dir, p, hdir, hp, rfl⟩ }⟩

end Effects

section Updates

variable {K : Type} [DecidableEq K] {py : Builtins} {place : CoreDir → K} {s t : Store K}
  {core_dir : CoreDir}
  {dir : AgentDir} {p q profile : AgentProfile} {uid did : Value} {patch : Dict} {now : ℤ}

/-- The directory of an agent whose profile is `p`. -/
def AgentDir.storing (dir : AgentDir) (p : AgentProfile) : AgentDir :=
  { dir with agent_config := .json (.dict p.toRecord), tool_registry := registryOf p.tools }

/-- What a patch makes of a profile, and in which steps. -/
structure Patched (py : Builtins) (patch : Dict) (now : ℤ) (p profile : AgentProfile) : Prop where
  known : refuseUnknown py patch = .ok ()
  fields : ∃ q, patchTexts py patch p = .ok q ∧
    ∃ tools, patched patch "tools" q.tools (normalizeTools py) = .ok tools ∧
    ∃ skills, patched patch "skills" q.skills (normalizeSkills py) = .ok skills ∧
      profile = { q with tools, skills, updated_at := now }

lemma Patched.stored (h : Patched py patch now p profile) (hp : Stored py p) :
    Stored py profile ∧ profile.uid = p.uid := by
  obtain ⟨q, hq, tools, -, skills, hskills, rfl⟩ := h.fields
  obtain ⟨hstored, -, -, huid⟩ := hp.patchTexts hq
  exact ⟨hstored.update _ _ _ (patched_skills hstored.skills hskills), huid⟩

lemma perform_finishUpdate {skills : List String} (hq : Stored py q)
    (huid : requireNonEmpty py "uid" (.str q.uid) = .ok q.uid)
    (h : patched patch "skills" q.skills (normalizeSkills py) = .ok skills) (dir : AgentDir)
    (hreg : dir.tool_registry = registryOf q.tools) :
    perform (finishUpdate py place core_dir patch now q) (Function.update s (place core_dir) (some dir)) =
      (.ok { q with skills, updated_at := now },
        Function.update s (place core_dir) (some (dir.storing { q with skills, updated_at := now }))) := by
  have hstored := hq.update q.uid q.tools now (patched_skills hq.skills h)
  rw [finishUpdate, perform_check_ok h, perform_writeConfig, edit_update, ← bind_pure (check _),
    perform_check_ok (hstored.fromDict_ok huid), AgentDir.storing, ← hreg]
  rfl

lemma perform_updateAgent (hi : Inv py s) (hresolve : resolveAgentCoreDir py place uid did s = .ok core_dir)
    (hload : loadProfile py place core_dir s = .ok p) (hdir : s (place core_dir) = some dir)
    (h : Patched py patch now p profile) :
    perform (updateAgent py place uid did patch now) s =
      (.ok profile, Function.update s (place core_dir) (some (dir.storing profile))) := by
  obtain ⟨dir', hdir', hp, huid⟩ := hi.loaded hload
  obtain rfl : dir = dir' := Option.some.inj (hdir.symm.trans hdir')
  obtain ⟨q, hq, tools, htools, skills, hskills, rfl⟩ := h.fields
  obtain ⟨hstored, hqtools, -, hquid⟩ := hp.stored.patchTexts hq
  rw [← hquid] at huid
  rw [updateAgent, perform_reads_ok hresolve, perform_reads_ok hload, perform_check_ok h.known, perform_check_ok hq]
  cases hpatch : patch.lookup (.text "tools") with
  | none =>
    obtain rfl : q.tools = tools := by
      rw [patched, hpatch] at htools
      exact Except.ok.inj htools
    have hfinish : perform (finishUpdate py place core_dir patch now q)
        (Function.update s (place core_dir) (some dir)) = _ :=
      perform_finishUpdate hstored huid hskills dir (hp.tool_registry.trans (by rw [hqtools]))
    rw [patchTools_none hpatch, pure_bind]
    rwa [← hdir, Function.update_eq_self] at hfinish
  | some value =>
    have hvalue : normalizeTools py value = .ok tools := by
      rw [patched, hpatch] at htools
      exact htools
    rw [perform_patchTools hpatch hvalue hdir,
      perform_finishUpdate (hstored.update q.uid tools q.updated_at hstored.skills) huid hskills _ rfl]
    rfl

lemma of_perform_updateAgent (hi : Inv py s)
    (h : perform (updateAgent py place uid did patch now) s = (.ok profile, t)) :
    ∃ core_dir dir p, coreDirOf py uid did = .ok core_dir ∧ loadProfile py place core_dir s = .ok p ∧
      s (place core_dir) = some dir ∧ Holds py dir p ∧ requireNonEmpty py "uid" (.str p.uid) = .ok p.uid ∧
      Patched py patch now p profile ∧ t = Function.update s (place core_dir) (some (dir.storing profile)) := by
  have hcall := h
  obtain ⟨core_dir, dir, p, hcore, hload, hdir, hp, huid, h⟩ := of_perform_profile hi h
  obtain ⟨_, hknown, h⟩ := of_perform_check h
  obtain ⟨q, hq, h⟩ := of_perform_check h
  have hpatched : ∃ profile, Patched py patch now p profile := by
    cases hpatch : patch.lookup (.text "tools") with
    | none =>
      rw [patchTools_none hpatch, pure_bind, finishUpdate] at h
      obtain ⟨skills, hskills, -⟩ := of_perform_check h
      exact ⟨_, hknown, q, hq, q.tools, by rw [patched, hpatch], skills, hskills, rfl⟩
    | some value =>
      rw [patchTools, hpatch] at h
      dsimp only at h
      rw [bind_assoc] at h
      obtain ⟨tools, htools, h⟩ := of_perform_check h
      rw [bind_assoc, perform_writeToolRegistry, pure_bind, finishUpdate] at h
      obtain ⟨skills, hskills, -⟩ := of_perform_check h
      exact ⟨_, hknown, q, hq, tools, by rw [patched, hpatch]; exact htools, skills, hskills, rfl⟩
  obtain ⟨profile', hpatched⟩ := hpatched
  have hexists : (s (place core_dir)).isSome := by
    rw [hdir]
    rfl
  rw [perform_updateAgent hi (resolve_of_coreDir hcore hexists) hload hdir hpatched, Prod.mk.injEq,
    Except.ok.injEq] at hcall
  obtain ⟨rfl, rfl⟩ := hcall
  exact ⟨core_dir, dir, p, hcore, hload, hdir, hp, huid, hpatched, rfl⟩

lemma Holds.storing (hp : Holds py dir p) (h : Patched py patch now p profile) :
    Holds py (dir.storing profile) profile :=
  ⟨(h.stored hp.stored).1, rfl, rfl⟩

lemma effect_update (hi : Inv py s)
    (h : perform (updateAgent py place uid did patch now) s = (.ok profile, t)) :
    ∃ core_dir dir p events, Effect py place s t (.update_agent uid did patch now) core_dir dir p events := by
  obtain ⟨core_dir, dir, p, hcore, -, hdir, hp, -, hpatched, rfl⟩ := of_perform_updateAgent hi h
  obtain ⟨q, hq, tools, -, skills, hskills, rfl⟩ := hpatched.fields
  have hqskills := (hp.stored.patchTexts hq).2.2.1
  obtain ⟨events, hevents, happly⟩ : ∃ events,
      Call.skillEvents py (.update_agent uid did patch now) = .ok events ∧ skills = events.foldl apply p.skills := by
    cases hpatch : patch.lookup (.text "skills") with
    | none =>
      rw [patched, hpatch] at hskills
      exact ⟨[], by rw [Call.skillEvents, hpatch], (Except.ok.inj hskills).symm.trans hqskills⟩
    | some value =>
      rw [patched, hpatch] at hskills
      obtain ⟨names, hnames, hsame⟩ := normalizeSkills_names hskills
      refine ⟨[.replaced names], ?_, hsame⟩
      rw [Call.skillEvents, hpatch]
      dsimp only
      rw [hnames]
      rfl
  exact ⟨core_dir, _, _, events,
    { coreDir := hcore, skillEvents := hevents, written := rfl, holds := hp.storing hpatched
      skills := .inr ⟨dir, p, hdir, hp, happly⟩ }⟩

omit [DecidableEq K] in
lemma of_perform_getAgent (h : perform (getAgent py place uid did) s = (.ok profile, t)) : t = s := by
  obtain ⟨core_dir, -, h⟩ := of_perform_reads h
  exact (congrArg Prod.snd h).symm

lemma of_perform_createAgent {request : AgentCreateRequest} {token : HexToken}
    (h : perform (createAgent py place request token now) s = (.ok profile, t)) :
    ∃ config dir, request.postInit py = .ok config ∧ s (place ⟨config.uid, config.didOr token⟩) = none ∧
      Holds py dir (config.profile (config.didOr token) now) ∧
      t = Function.update s (place ⟨config.uid, config.didOr token⟩) (some dir) ∧
      perform (getAgent py place (.str config.uid) (.str (config.didOr token))) t = (.ok profile, t) := by
  have hcall := h
  obtain ⟨config, hconfig, h⟩ := of_perform_check h
  obtain ⟨_, hexists, -⟩ := of_perform_reads h
  have hnew : s (place ⟨config.uid, config.didOr token⟩) = none := by
    cases hs : s (place ⟨config.uid, config.didOr token⟩) with
    | none => rfl
    | some dir => simp [hs] at hexists
  obtain ⟨dir, hp, hperform⟩ := perform_createAgent now hconfig hnew
  have hget := hperform.symm.trans hcall
  have ht := of_perform_getAgent hget
  exact ⟨config, dir, hconfig, hnew, hp, ht, ht ▸ hget⟩

lemma effect_create {request : AgentCreateRequest} {token : HexToken}
    (h : perform (createAgent py place request token now) s = (.ok profile, t)) :
    ∃ core_dir dir p events, Effect py place s t (.create_agent request token now) core_dir dir p events := by
  obtain ⟨config, dir, hconfig, hnew, hp, ht, -⟩ := of_perform_createAgent h
  obtain ⟨names, hnames, hskills⟩ : ∃ names, skillNames py request.skills = .ok names ∧
      config.skills = apply [] (.replaced names) := by
    obtain ⟨_, -, hconfig⟩ := bind_ok hconfig
    obtain ⟨_, -, hconfig⟩ := bind_ok hconfig
    obtain ⟨_, -, hconfig⟩ := bind_ok hconfig
    obtain ⟨_, -, hconfig⟩ := bind_ok hconfig
    obtain ⟨_, -, hconfig⟩ := bind_ok hconfig
    obtain ⟨_, -, hconfig⟩ := bind_ok hconfig
    obtain ⟨_, -, hconfig⟩ := bind_ok hconfig
    obtain ⟨skills, hskills, hconfig⟩ := bind_ok hconfig
    obtain ⟨_, -, hconfig⟩ := bind_ok hconfig
    obtain ⟨_, -, hconfig⟩ := bind_ok hconfig
    cases hconfig
    exact normalizeSkills_names hskills
  exact ⟨⟨config.uid, config.didOr token⟩, dir, _, [.replaced names],
    { coreDir := by rw [Call.coreDir, hconfig]; rfl
      skillEvents := by rw [Call.skillEvents, hnames]; rfl
      written := ht, holds := hp, skills := .inl ⟨hnew, names, rfl, hskills⟩ }⟩

omit [DecidableEq K] in
lemma of_perform_discard {α : Type} {p : Code K α} (h : perform (p >>= fun _ => pure ()) s = (.ok (), t)) :
    ∃ a, perform p s = (.ok a, t) := by
  rw [perform_discard, Prod.mk.injEq] at h
  obtain ⟨hok, rfl⟩ := h
  cases hr : (perform p s).1 with
  | error e =>
    rw [hr] at hok
    cases hok
  | ok a => exact ⟨a, by rw [← hr]⟩

lemma exec_effect {c : Call} (hi : Inv py s) (h : perform (c.exec py place) s = (.ok (), t)) :
    ∃ core_dir dir p events, Effect py place s t c core_dir dir p events := by
  cases c with
  | create_agent request token now =>
    obtain ⟨_, h⟩ := of_perform_discard h
    exact effect_create h
  | update_agent uid did patch now =>
    obtain ⟨_, h⟩ := of_perform_discard h
    exact effect_update hi h
  | update_tool_registry uid did tools now => exact effect_tools hi h
  | bind_skill uid did skill_name now => exact effect_bind hi h
  | unbind_skill uid did skill_name now => exact effect_unbind hi h
  | write_core_file uid did filename content => exact effect_file hi h

end Updates

section Runs

variable {K : Type} [DecidableEq K] (py : Builtins) (place : CoreDir → K)

/-- A call that raises ends the sequence. -/
def succeed (s : Store K) (c : Call) : Option (Store K) :=
  match perform (c.exec py place) s with
  | (.ok (), t) => some t
  | (.error _, _) => none

/-- What a call asks of the skills of the agent in `k`. -/
def Call.eventsAt (k : K) (c : Call) : List (Event String) :=
  match c.coreDir py, c.skillEvents py with
  | .ok core_dir, .ok events => if place core_dir = k then events else []
  | _, _ => []

/-- The skills that the calls have asked for and not taken away since, in the order of their first
addition. -/
def skillsAfter (k : K) (calls : List Call) : List String :=
  (standing (calls.flatMap (Call.eventsAt py place k))).eraseDups

variable {py place} {s t : Store K} {c : Call} {calls : List Call}

lemma succeed_eq (h : succeed py place s c = some t) : perform (c.exec py place) s = (.ok (), t) := by
  rw [succeed] at h
  split at h
  · cases h
    assumption
  · cases h

omit [DecidableEq K] in
lemma Holds.skills_eq {dir : AgentDir} {p q : AgentProfile} (hp : Holds py dir p) (hq : Holds py dir q) :
    p.skills = q.skills := by
  have hrecord : some (Value.list (p.skills.map .str)) = some (.list (q.skills.map .str)) :=
    congrArg (JsonFile.get? "skills") (hp.agent_config.symm.trans hq.agent_config)
  rw [Option.some.injEq, Value.list.injEq] at hrecord
  exact List.map_injective_iff.2 (fun _ _ h => Value.str.inj h) hrecord

lemma foldl_apply (es fs : List (Event String)) :
    fs.foldl apply (standing es).eraseDups = (standing (es ++ fs)).eraseDups := by
  induction fs generalizing es with
  | nil => rw [List.foldl_nil, List.append_nil]
  | cons f fs ih => rw [List.foldl_cons, ← eraseDups_standing_concat, ih, List.append_assoc, List.singleton_append]

/-- Every agent is stored in normal form, with the skills that its calls have asked for. -/
def Remembers (py : Builtins) (place : CoreDir → K) (calls : List Call) (s : Store K) : Prop :=
  ∀ k dir, s k = some dir → ∃ p, Holds py dir p ∧ p.skills = skillsAfter py place k calls

lemma Remembers.inv (h : Remembers py place calls s) : Inv py s := by
  intro k dir hdir
  obtain ⟨p, hp, -⟩ := h k dir hdir
  exact ⟨p, hp⟩

lemma skillsAfter_concat (k : K) (calls : List Call) (c : Call) :
    skillsAfter py place k (calls ++ [c]) = (c.eventsAt py place k).foldl apply (skillsAfter py place k calls) := by
  rw [skillsAfter, skillsAfter, foldl_apply, List.flatMap_append, List.flatMap_singleton]

lemma Effect.eventsAt {core_dir : CoreDir} {dir : AgentDir} {p : AgentProfile}
    {events : List (Event String)}
    (h : Effect py place s t c core_dir dir p events) (k : K) :
    c.eventsAt py place k = if place core_dir = k then events else [] := by
  rw [Call.eventsAt, h.coreDir, h.skillEvents]

lemma Remembers.step (hr : Remembers py place calls s) (h : succeed py place s c = some t) :
    Remembers py place (calls ++ [c]) t := by
  obtain ⟨core_dir, dir, p, events, heffect⟩ := exec_effect hr.inv (succeed_eq h)
  intro k dir' hdir'
  rw [skillsAfter_concat, heffect.eventsAt]
  rw [heffect.written] at hdir'
  by_cases hk : k = place core_dir
  · subst hk
    rw [Function.update_self] at hdir'
    cases hdir'
    refine ⟨p, heffect.holds, ?_⟩
    rw [if_pos rfl]
    rcases heffect.skills with ⟨-, names, rfl, hskills⟩ | ⟨old, q, hold, hq, hskills⟩
    · exact hskills
    · obtain ⟨q', hq', hskills'⟩ := hr _ old hold
      rw [hskills, hq.skills_eq hq', hskills']
  · rw [Function.update_of_ne hk] at hdir'
    rw [if_neg (Ne.symm hk)]
    exact hr k dir' hdir'

lemma remembers_run (h : run (succeed py place) (fun _ => none) calls = some s) :
    Remembers py place calls s := by
  have hrun : ∀ (done : List Call) (u : Store K), Remembers py place done u →
      run (succeed py place) u calls = some s → Remembers py place (done ++ calls) s := by
    clear h
    induction calls with
    | nil =>
      intro done u hu h
      cases h
      rwa [List.append_nil]
    | cons c calls ih =>
      intro done u hu h
      obtain ⟨v, hv, h⟩ := run_cons.1 h
      have hnext := ih _ v (hu.step hv) h
      rwa [List.append_assoc] at hnext
  refine hrun [] _ ?_ h
  intro k dir hk
  cases hk

end Runs

section Reading

variable {K : Type} {py : Builtins} {place : CoreDir → K} {s : Store K} {core_dir : CoreDir}
  {dir : AgentDir}
  {p : AgentProfile} {uid did : Value}

lemma Holds.get (hp : Holds py dir p) (hdir : s (place core_dir) = some dir)
    (hcore : coreDirOf py uid did = .ok core_dir) : perform (getAgent py place uid did) s =
      ((requireNonEmpty py "uid" (.str core_dir.accountName)).map fun uid => { p with uid }, s) := by
  have hexists : (s (place core_dir)).isSome := by
    rw [hdir]
    rfl
  rw [getAgent, perform_reads_ok (resolve_of_coreDir hcore hexists), ← hp.stored.load hdir hp.agent_config]
  rfl

lemma postInit_coreDir {request : AgentCreateRequest} {config : AgentConfig} (token : HexToken) (now : ℤ)
    (h : request.postInit py = .ok config) :
    coreDirOf py request.uid (.str (config.didOr token)) = .ok ⟨config.uid, config.didOr token⟩ ∧
      coreDirOf py (.str config.uid) (.str (config.didOr token)) = .ok ⟨config.uid, config.didOr token⟩ := by
  obtain ⟨hstored, huid⟩ := postInit_stored token now h
  have hdid : normalizeDid py (.str (config.didOr token)) = .ok (config.didOr token) := hstored.did
  have hrequest : requireNonEmpty py "uid" request.uid = .ok config.uid := by
    obtain ⟨uid, hrequest, h⟩ := bind_ok h
    repeat obtain ⟨_, -, h⟩ := bind_ok h
    cases h
    exact hrequest
  constructor
  · rw [coreDirOf, hrequest, ok_bind, hdid]
    rfl
  · rw [coreDirOf, huid, ok_bind, hdid]
    rfl

variable [DecidableEq K]

lemma get_created {request : AgentCreateRequest} {token : HexToken} {now : ℤ} {profile : AgentProfile}
    {t : Store K}
    (h : perform (createAgent py place request token now) s = (.ok profile, t)) :
    perform (getAgent py place request.uid (.str profile.did)) t = (.ok profile, t) := by
  obtain ⟨config, dir, hconfig, -, hp, rfl, hget⟩ := of_perform_createAgent h
  obtain ⟨hcore, hcore'⟩ := postInit_coreDir token now hconfig
  have hdir := Function.update_self (place ⟨config.uid, config.didOr token⟩) (some dir) s
  rw [hp.get hdir hcore', Prod.mk.injEq] at hget
  have hdid : profile.did = config.didOr token := by
    cases hname : requireNonEmpty py "uid" (.str (CoreDir.accountName ⟨config.uid, config.didOr token⟩)) with
    | error e =>
      rw [hname] at hget
      cases hget.1
    | ok name =>
      rw [hname] at hget
      cases hget.1
      rfl
  rw [hdid, hp.get hdir hcore, hget.1]

lemma get_updated {patch : Dict} {now : ℤ} {profile : AgentProfile} {t : Store K} (hi : Inv py s)
    (h : perform (updateAgent py place uid did patch now) s = (.ok profile, t)) :
    perform (getAgent py place uid did) t = (.ok profile, t) := by
  obtain ⟨core_dir, dir, p, hcore, hload, hdir, hp, -, hpatched, rfl⟩ := of_perform_updateAgent hi h
  rw [(hp.storing hpatched).get (Function.update_self _ _ _) hcore]
  obtain ⟨name, hname, hloaded⟩ := hp.stored.of_load hdir hp.agent_config hload
  have hsame : name = profile.uid := by
    rw [(hpatched.stored hp.stored).2]
    exact (congrArg AgentProfile.uid hloaded).symm
  rw [hname, hsame]
  rfl

end Reading

section OwnFields

variable {py : Builtins} {p : AgentProfile} {patch : Dict}

/-- Everything that a profile says of its agent. -/
def AgentProfile.fields (p : AgentProfile) : Dict := ("uid", .str p.uid) :: p.toRecord

lemma patched_own {α : Type} {field : String} {old : α} {validate : Value → Except Exc α}
    (h : ∀ value, (.text field, value) ∈ patch → validate value = .ok old) :
    patched patch field old validate = .ok old := by
  rw [patched]
  split
  · rename_i value hlookup
    obtain ⟨before, after, rfl, -⟩ := List.lookup_eq_some_iff.1 hlookup
    exact h value (by simp)
  · rfl

lemma patched_fields (hp : Stored py p) (h : ∀ f ∈ patch, f ∈ p.fields)
    (hallowed : ∀ f ∈ patch, f.1 ∈ allowed_fields) (now : ℤ) : Patched py patch now p { p with updated_at := now } := by
  have hown : ∀ {field value}, (field, value) ∈ patch → (field, value) ∈ p.fields := fun hf => h _ hf
  have htexts : patchTexts py patch p = .ok p := by
    have hname : patched patch "name" p.name (requireNonEmpty py "name") = .ok p.name := patched_own fun value hf => by
      obtain rfl : value = .str p.name := by simpa [AgentProfile.fields, AgentProfile.toRecord] using hown hf
      exact hp.name
    have hdescription : patched patch "description" p.description (requireNonEmpty py "description") =
        .ok p.description := patched_own fun value hf => by
      obtain rfl : value = .str p.description := by simpa [AgentProfile.fields, AgentProfile.toRecord] using hown hf
      exact hp.description
    have hvibe : patched patch "vibe" p.vibe (validateVibe py) = .ok p.vibe := patched_own fun value hf => by
      obtain rfl : value = .str p.vibe := by simpa [AgentProfile.fields, AgentProfile.toRecord] using hown hf
      exact hp.vibe
    have hprovider : patched patch "model_provider" p.model_provider (validateModelProvider py) =
        .ok p.model_provider := patched_own fun value hf => by
      obtain rfl : value = .str p.model_provider := by simpa [AgentProfile.fields, AgentProfile.toRecord] using hown hf
      exact hp.model_provider
    have hid : patched patch "model_id" p.model_id (requireNonEmpty py "model_id") = .ok p.model_id :=
      patched_own fun value hf => by
        obtain rfl : value = .str p.model_id := by simpa [AgentProfile.fields, AgentProfile.toRecord] using hown hf
        exact hp.model_id
    simp only [patchTexts, hname, hdescription, hvibe, hprovider, hid, ok_bind]
    rfl
  have htools : patched patch "tools" p.tools (normalizeTools py) = .ok p.tools := patched_own fun value hf => by
    obtain rfl : value = toolsValue p.tools := by simpa [AgentProfile.fields, AgentProfile.toRecord] using hown hf
    exact normalizeTools_toolsValue p.tools
  have hskills : patched patch "skills" p.skills (normalizeSkills py) = .ok p.skills := patched_own fun value hf => by
    obtain rfl : value = .list (p.skills.map .str) := by
      simpa [AgentProfile.fields, AgentProfile.toRecord] using hown hf
    exact normalizeSkills_str hp.skills
  have hunknown : (patch.map Prod.fst).filter (fun field => field ∉ allowed_fields) = [] := by
    rw [List.filter_eq_nil_iff]
    intro field hf
    obtain ⟨f, hpatch, rfl⟩ := List.mem_map.1 hf
    simpa using hallowed f hpatch
  refine { known := ?_, fields := ⟨p, htexts, p.tools, htools, p.skills, hskills, rfl⟩ }
  rw [refuseUnknown]
  exact if_pos hunknown

variable {K : Type} [DecidableEq K] {place : CoreDir → K} {s : Store K} {core_dir : CoreDir}
  {dir : AgentDir}
  {uid did : Value}

lemma update_refused (hload : loadProfile py place core_dir s = .ok p)
    (hresolve : resolveAgentCoreDir py place uid did s = .ok core_dir)
    (h : ¬ ∀ f ∈ patch, f.1 ∈ allowed_fields) (now : ℤ) :
    (perform (updateAgent py place uid did patch now) s).2 = s := by
  have hunknown : (patch.map Prod.fst).filter (fun field => field ∉ allowed_fields) ≠ [] := by
    intro hnil
    rw [List.filter_eq_nil_iff] at hnil
    exact h fun f hf => by simpa using hnil f.1 (List.mem_map_of_mem hf)
  have hrefused : ∃ e, refuseUnknown py patch = .error e := ⟨_, if_neg hunknown⟩
  obtain ⟨e, he⟩ := hrefused
  rw [updateAgent, perform_reads_ok hresolve, perform_reads_ok hload, check, perform_reads_error he]

end OwnFields

section Results

variable {K : Type} [DecidableEq K] (py : Builtins) (place : CoreDir → K)

/-- What is stored of the agent when `profile` is read. -/
structure InNormalForm (calls : List Call) (s : Store K) (uid did : Value) (core_dir : CoreDir)
    (profile : AgentProfile) : Prop where
  nodup : profile.skills.Nodup
  skills : profile.skills = skillsAfter py place (place core_dir) calls
  tools : ∃ dir enabled, s (place core_dir) = some dir ∧ dir.agent_config.get? "tools" = some (.dict enabled) ∧
    enabled.map Prod.fst = Group.all.map Group.text ∧
    normalizeToolsDict py (.dict enabled) = .ok (toolsDict profile.tools)
  own_fields : ∀ (patch : Dict) (now : ℤ), (∀ f ∈ patch, f ∈ profile.fields) →
    ((∀ f ∈ patch, f.1 ∈ allowed_fields) →
      (perform (updateAgent py place uid did patch now) s).1 = .ok { profile with updated_at := now }) ∧
    ∃ dir updated_at, s (place core_dir) = some dir ∧ dir.agent_config = .json (.dict profile.toRecord) ∧
      (perform (updateAgent py place uid did patch now) s).2 = Function.update s (place core_dir)
        (some { dir with agent_config := .json (.dict { profile with updated_at }.toRecord) })

variable {py place} {s : Store K} {calls : List Call} {uid did : Value} {core_dir : CoreDir}
  {profile : AgentProfile}

lemma Remembers.normal (hr : Remembers py place calls s) (hcore : coreDirOf py uid did = .ok core_dir)
    (h : perform (getAgent py place uid did) s = (.ok profile, s)) :
    InNormalForm py place calls s uid did core_dir profile := by
  obtain ⟨core_dir', hresolve, hload⟩ := of_perform_reads h
  have hload : loadProfile py place core_dir' s = .ok profile := congrArg Prod.fst hload
  obtain rfl : core_dir = core_dir' := Except.ok.inj (hcore.symm.trans (resolve_coreDir hresolve).1)
  obtain ⟨dir, hdir, hp, -⟩ := hr.inv.loaded hload
  obtain ⟨q, hq, hskills⟩ := hr _ _ hdir
  refine { nodup := hp.stored.skills.nodup, skills := (hp.skills_eq hq).trans hskills, tools := ?_, own_fields := ?_ }
  · refine ⟨dir, Group.all.map fun g => (g.text, .bool (profile.tools g)), hdir, ?_, ?_, ?_⟩
    · rw [hp.agent_config]
      rfl
    · rw [List.map_map]
      rfl
    · rw [normalizeToolsDict_eq]
      exact congrArg (Except.map toolsDict) (normalizeTools_toolsValue profile.tools)
  · intro patch now hown
    by_cases hallowed : ∀ f ∈ patch, f.1 ∈ allowed_fields
    · rw [perform_updateAgent hr.inv hresolve hload hdir (patched_fields hp.stored hown hallowed now)]
      refine ⟨fun _ => rfl, dir, now, hdir, hp.agent_config, ?_⟩
      rw [AgentDir.storing, ← hp.tool_registry]
    · rw [update_refused hload hresolve hallowed now]
      refine ⟨fun hall => absurd hall hallowed, dir, profile.updated_at, hdir, hp.agent_config, ?_⟩
      rw [← hp.agent_config, ← hdir, Function.update_eq_self]

/-- After any sequence of calls that went well, from an empty store. -/
theorem profiles_in_normal_form (h : run (succeed py place) (fun _ => none) calls = some s) :
    (∀ request token now profile t, perform (createAgent py place request token now) s = (.ok profile, t) →
      perform (getAgent py place request.uid (.str profile.did)) t = (.ok profile, t)) ∧
    (∀ uid did patch now profile t, perform (updateAgent py place uid did patch now) s = (.ok profile, t) →
      perform (getAgent py place uid did) t = (.ok profile, t)) ∧
    ∀ uid did core_dir profile, coreDirOf py uid did = .ok core_dir →
      perform (getAgent py place uid did) s = (.ok profile, s) →
      InNormalForm py place calls s uid did core_dir profile := by
  have hr := remembers_run h
  refine ⟨?_, ?_, ?_⟩
  · intro request token now profile t h
    exact get_created h
  · intro uid did patch now profile t h
    exact get_updated hr.inv h
  · intro uid did core_dir profile hcore h
    exact hr.normal hcore h

end Results

section Example

/-- A skill is bound twice, and another one is unbound and bound again. -/
def dealings : List Call :=
  [creation, .bind_skill (.str "u1") (.str "DID-1") (.str " logs ") 1,
    .update_agent (.str "u1") (.str "DID-1") [("skills", .list [.str "disk", .str "net", .str " disk"])] 2,
    .bind_skill (.str "u1") (.str "DID-1") (.str "net") 3, .unbind_skill (.str "u1") (.str "DID-1") (.str "disk") 4,
    .bind_skill (.str "u1") (.str "DID-1") (.str "disk") 5]

theorem dealings_in_normal_form :
    ∃ s profile, run (succeed plain accounts) (fun _ => none) dealings = some s ∧
    perform (getAgent plain accounts (.str "u1") (.str "DID-1")) s = (.ok profile, s) ∧
    InNormalForm plain accounts dealings s (.str "u1") (.str "DID-1") ⟨"u1", "DID-1"⟩ profile ∧
    profile.skills = ["net", "disk"] := by
  obtain ⟨s, hs, hread⟩ := exists_of_run_any (succeed plain accounts) (fun _ => none) dealings
    (fun s => (perform (getAgent plain accounts (.str "u1") (.str "DID-1")) s).1.toBool) (by decide +kernel)
  cases hget : perform (getAgent plain accounts (.str "u1") (.str "DID-1")) s with
  | mk r t =>
    rw [hget] at hread
    cases r with
    | error e => cases hread
    | ok profile =>
      obtain rfl := of_perform_getAgent hget
      have hnormal := (profiles_in_normal_form hs).2.2 _ _ ⟨"u1", "DID-1"⟩ profile rfl hget
      exact ⟨t, profile, hs, hget, hnormal, hnormal.skills.trans (by decide +kernel)⟩

end Example

end OpsSentry.Agent.Manager
