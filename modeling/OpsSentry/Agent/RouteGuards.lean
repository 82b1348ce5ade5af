import OpsSentry.Agent.Routes
import OpsSentry.Agent.ToolPermissions

/-! Which requests change an agent that is not the sender's. -/

namespace OpsSentry.Agent.Manager.Routes

open Foundation.Text Foundation.Values

section Loading

variable {K : Type} {py : Builtins} {place : CoreDir → K} {s : Store K} {core_dir : CoreDir}
  {dir : AgentDir}
  {profile p : AgentProfile}

lemma fromDict_stored {name : String} {record : Dict} (h : fromDict py name record = .ok p) :
    Stored py p ∧ requireNonEmpty py "uid" (.str p.uid) = .ok p.uid := by
  obtain ⟨value, -, h⟩ := bind_ok h
  obtain ⟨did, hdid, h⟩ := bind_ok h
  obtain ⟨uid, huid, h⟩ := bind_ok h
  obtain ⟨value, -, h⟩ := bind_ok h
  obtain ⟨name, hname, h⟩ := bind_ok h
  obtain ⟨value, -, h⟩ := bind_ok h
  obtain ⟨description, hdescription, h⟩ := bind_ok h
  obtain ⟨value, -, h⟩ := bind_ok h
  obtain ⟨vibe, hvibe, h⟩ := bind_ok h
  obtain ⟨value, -, h⟩ := bind_ok h
  obtain ⟨model_provider, hprovider, h⟩ := bind_ok h
  obtain ⟨value, -, h⟩ := bind_ok h
  obtain ⟨model_id, hid, h⟩ := bind_ok h
  obtain ⟨tools, -, h⟩ := bind_ok h
  obtain ⟨skills, hskills, h⟩ := bind_ok h
  obtain ⟨value, -, h⟩ := bind_ok h
  obtain ⟨created_at, -, h⟩ := bind_ok h
  obtain ⟨value, -, h⟩ := bind_ok h
  obtain ⟨updated_at, -, h⟩ := bind_ok h
  cases h
  exact ⟨⟨normalizeDid_again hdid, requireNonEmpty_again hname, requireNonEmpty_again hdescription,
    requireOneOf_again hvibe, requireOneOf_again hprovider, requireNonEmpty_again hid, normalizeSkills_normal hskills⟩,
    requireNonEmpty_again huid⟩

lemma loadProfile_ok (h : loadProfile py place core_dir s = .ok profile) :
    ∃ dir record, s (place core_dir) = some dir ∧ dir.agent_config = .json (.dict record) ∧
      fromDict py core_dir.accountName record = .ok profile := by
  obtain ⟨value, hread, h⟩ := bind_ok h
  cases hdir : s (place core_dir) with
  | none =>
    rw [hdir] at hread
    cases hread
  | some dir =>
    rw [hdir] at hread
    change readJson _ dir.agent_config = _ at hread
    cases hconfig : dir.agent_config with
    | missing =>
      rw [hconfig] at hread
      cases hread
    | unreadable =>
      rw [hconfig] at hread
      cases hread
    | json stored =>
      rw [hconfig] at hread
      obtain rfl := Except.ok.inj hread
      cases stored with
      | dict record => exact ⟨dir, record, rfl, hconfig, h⟩
      | _ => cases h

end Loading

/-- The agents that a call of the manager changes. -/
structure Changes {K : Type} (place : CoreDir → K) (s t : Store K) (E : CoreDir → Prop) : Prop where
  changed : ∀ core_dir, E core_dir → t (place core_dir) ≠ s (place core_dir)
  frame : ∀ k, t k ≠ s k → ∃ core_dir, E core_dir ∧ place core_dir = k

section Calls

variable {K : Type} {py : Builtins} {place : CoreDir → K} {s : Store K} {core_dir : CoreDir}
  {dir : AgentDir}
  {profile q : AgentProfile} {uid did : String} {β : Type}

lemma perform_loaded {g : CoreDir → AgentProfile → Code K β}
    (h : Loads py place s uid did core_dir profile) :
    perform (do
      let core_dir ← reads (resolveAgentCoreDir py place (.str uid) (.str did))
      let profile ← reads (loadProfile py place core_dir)
      g core_dir profile) s = perform (g core_dir profile) s := by
  rw [perform_reads_ok h.1, perform_reads_ok h.2]

lemma perform_not_loaded {g : CoreDir → AgentProfile → Code K β}
    (h : ∀ d p, ¬ Loads py place s uid did d p) :
    (perform (do
      let core_dir ← reads (resolveAgentCoreDir py place (.str uid) (.str did))
      let profile ← reads (loadProfile py place core_dir)
      g core_dir profile) s).2 = s := by
  cases hresolve : resolveAgentCoreDir py place (.str uid) (.str did) s with
  | error e => rw [perform_reads_error hresolve]
  | ok core_dir =>
    rw [perform_reads_ok hresolve]
    cases hload : loadProfile py place core_dir s with
    | error e => rw [perform_reads_error hload]
    | ok profile => exact absurd ⟨hresolve, hload⟩ (h core_dir profile)

variable [DecidableEq K]

lemma rewritten_ne {q : AgentProfile} (h : loadProfile py place core_dir s = .ok profile) (hq : Stored py q)
    (hskills : q.skills ≠ profile.skills) :
    edit place s core_dir (fun dir => { dir with agent_config := .json (.dict q.toRecord) }) (place core_dir) ≠
      s (place core_dir) := by
  obtain ⟨dir, record, hdir, hconfig, hrecord⟩ := loadProfile_ok h
  rw [edit_of_some hdir, Function.update_self, hdir]
  intro hsame
  have hconfig' : JsonFile.json (.dict q.toRecord) = dir.agent_config := congrArg AgentDir.agent_config (Option.some.inj hsame)
  rw [hconfig] at hconfig'
  cases hconfig'
  rw [hq.fromDict] at hrecord
  cases huid : requireNonEmpty py "uid" (.str core_dir.accountName) with
  | error e =>
    rw [huid] at hrecord
    cases hrecord
  | ok name =>
    rw [huid] at hrecord
    cases hrecord
    exact hskills rfl

lemma skills_change {skill_name : String} (test : String → AgentProfile → Prop) [∀ skill p, Decidable (test skill p)]
    (f : String → AgentProfile → AgentProfile)
    (hf : ∀ skill p, Stored py p → normalizeSkillName py (.str skill_name) = .ok skill → test skill p →
      Stored py (f skill p) ∧ (f skill p).skills ≠ p.skills) :
    Changes place s
      (perform (do
        let skill ← check (normalizeSkillName py (.str skill_name))
        let core_dir ← reads (resolveAgentCoreDir py place (.str uid) (.str did))
        let profile ← reads (loadProfile py place core_dir)
        if test skill profile then writeConfig place core_dir (f skill profile)) s).2
      fun core_dir => ∃ profile skill, Loads py place s uid did core_dir profile ∧
        normalizeSkillName py (.str skill_name) = .ok skill ∧ test skill profile := by
  cases hskill : normalizeSkillName py (.str skill_name) with
  | error e =>
    refine ⟨?_, fun k hk => ?_⟩
    · rintro core_dir ⟨profile, skill, -, ⟨⟩, -⟩
    · rw [check, perform_reads_error rfl] at hk
      exact absurd rfl hk
  | ok skill =>
    rw [perform_check_ok rfl]
    refine ⟨?_, fun k hk => ?_⟩
    · rintro core_dir ⟨profile, skill, hload, ⟨⟩, htest⟩
      rw [perform_loaded hload, if_pos htest]
      obtain ⟨dir, record, -, -, hrecord⟩ := loadProfile_ok hload.2
      obtain ⟨hstored, hskills⟩ := hf skill profile (fromDict_stored hrecord).1 hskill htest
      exact rewritten_ne hload.2 hstored hskills
    · by_cases hloads : ∃ core_dir profile, Loads py place s uid did core_dir profile
      · obtain ⟨core_dir, profile, hload⟩ := hloads
        rw [perform_loaded hload] at hk
        by_cases htest : test skill profile
        · refine ⟨core_dir, ⟨profile, skill, hload, rfl, htest⟩, ?_⟩
          rw [if_pos htest] at hk
          by_contra hne
          exact hk (Function.update_of_ne (Ne.symm hne) _ _)
        · rw [if_neg htest] at hk
          exact absurd rfl hk
      · rw [perform_not_loaded (by simpa using hloads)] at hk
        exact absurd rfl hk

lemma bindSkill_changes {skill_name : String} (now : ℤ) :
    Changes place s (perform (bindSkill py place (.str uid) (.str did) (.str skill_name) now) s).2
      (Binds py place s uid did skill_name) := by
  rw [bindSkill]
  refine skills_change (fun skill p => skill ∉ p.skills)
    (fun skill p => { p with skills := p.skills ++ [skill], updated_at := now }) fun skill p hp hskill hnew => ⟨?_, ?_⟩
  · exact hp.update p.uid p.tools now (hp.skills.add (normalizeSkillName_again hskill) hnew)
  · simp

lemma unbindSkill_changes {skill_name : String} (now : ℤ) :
    Changes place s (perform (unbindSkill py place (.str uid) (.str did) (.str skill_name) now) s).2
      (Unbinds py place s uid did skill_name) := by
  rw [unbindSkill]
  refine skills_change (fun skill p => skill ∈ p.skills)
    (fun skill p => { p with skills := p.skills.filter (· ≠ skill), updated_at := now }) fun skill p hp _ hbound => ⟨?_, ?_⟩
  · exact hp.update p.uid p.tools now (hp.skills.filter _)
  · intro hsame
    rw [List.filter_eq_self] at hsame
    simpa using hsame skill hbound

lemma deleteAgent_changes : Changes place s (perform (deleteAgent py place (.str uid) (.str did)) s).2
    (Deletes py place s uid did) := by
  refine ⟨fun core_dir h => ?_, fun k hk => ?_⟩
  · obtain ⟨dir, hdir⟩ := resolve_exists h
    rw [deleteAgent, perform_reads_ok h]
    change Function.update s (place core_dir) none (place core_dir) ≠ _
    rw [Function.update_self, hdir]
    exact nofun
  · rw [deleteAgent] at hk
    cases hresolve : resolveAgentCoreDir py place (.str uid) (.str did) s with
    | error e =>
      rw [perform_reads_error hresolve] at hk
      exact absurd rfl hk
    | ok core_dir =>
      rw [perform_reads_ok hresolve] at hk
      refine ⟨core_dir, hresolve, ?_⟩
      by_contra hne
      exact hk (Function.update_of_ne (Ne.symm hne) _ _)

omit [DecidableEq K] in
lemma rewrites_tools_iff {patch : Dict} {now : ℤ} {value : Value} {tools : Tools}
    (hpatch : patch.lookup (.text "tools") = some value)
    (htools : normalizeTools py value = .ok tools) : Rewrites py dir q patch now ↔ dir.tool_registry ≠ registryOf tools ∨
      ∃ skills, patched patch "skills" q.skills (normalizeSkills py) = .ok skills ∧
        dir.agent_config ≠ .json (.dict { q with tools, skills, updated_at := now }.toRecord) := by
  have hnew : patched patch "tools" q.tools (normalizeTools py) = .ok tools := by
    rw [patched, hpatch]
    exact htools
  constructor
  · rintro (⟨value', tools', hpatch', htools', hdiffers⟩ | ⟨tools', skills, htools', hskills, hdiffers⟩)
    · obtain rfl := Option.some.inj (hpatch.symm.trans hpatch')
      obtain rfl := Except.ok.inj (htools.symm.trans htools')
      exact Or.inl (hdiffers _ (buildToolRegistry_ok tools))
    · obtain rfl := Except.ok.inj (hnew.symm.trans htools')
      exact Or.inr ⟨skills, hskills, hdiffers⟩
  · rintro (hdiffers | ⟨skills, hskills, hdiffers⟩)
    · refine Or.inl ⟨value, tools, hpatch, htools, fun payload hpayload => ?_⟩
      obtain rfl := Except.ok.inj ((buildToolRegistry_ok tools).symm.trans hpayload)
      exact hdiffers
    · exact Or.inr ⟨tools, skills, hnew, hskills, hdiffers⟩

lemma finishUpdate_store {patch : Dict} {now : ℤ} {skills : List String}
    (h : patched patch "skills" q.skills (normalizeSkills py) = .ok skills) :
    (perform (finishUpdate py place core_dir patch now q) (Function.update s (place core_dir) (some dir))).2 =
      Function.update s (place core_dir)
        (some { dir with agent_config := .json (.dict { q with skills, updated_at := now }.toRecord) }) := by
  rw [finishUpdate, perform_check_ok h, perform_writeConfig, edit_update]
  rfl

lemma patchTools_store {patch : Dict} {now : ℤ} (hdir : s (place core_dir) = some dir) :
    ∃ dir', (perform (patchTools py place core_dir patch q >>= finishUpdate py place core_dir patch now) s).2 =
      Function.update s (place core_dir) (some dir') ∧ (dir' ≠ dir ↔ Rewrites py dir q patch now) := by
  have hsame : s = Function.update s (place core_dir) (some dir) := by rw [← hdir, Function.update_eq_self]
  cases hpatch : patch.lookup (.text "tools") with
  | none =>
    have hold : patched patch "tools" q.tools (normalizeTools py) = .ok q.tools := by rw [patched, hpatch]
    rw [patchTools_none hpatch, pure_bind]
    cases hskills : patched patch "skills" q.skills (normalizeSkills py) with
    | error e =>
      rw [finishUpdate_error hskills]
      exact ⟨dir, hsame, by simp [Rewrites, hpatch, hskills]⟩
    | ok skills =>
      refine ⟨{ dir with agent_config := .json (.dict { q with skills, updated_at := now }.toRecord) }, ?_, ?_⟩
      · conv_lhs => rw [hsame]
        exact finishUpdate_store hskills
      · cases dir
        simp [Rewrites, hpatch, hold, hskills, eq_comm]
  | some value =>
    cases htools : normalizeTools py value with
    | error e =>
      have hnew : patched patch "tools" q.tools (normalizeTools py) = .error e := by
        rw [patched, hpatch]
        exact htools
      rw [patchTools, hpatch]
      dsimp only
      rw [bind_assoc, check, perform_reads_error htools]
      refine ⟨dir, hsame, ?_⟩
      rw [Rewrites, hnew]
      simp [hpatch, htools]
    | ok tools =>
      rw [perform_patchTools hpatch htools hdir]
      cases hskills : patched patch "skills" q.skills (normalizeSkills py) with
      | error e =>
        rw [finishUpdate_error (q := { q with tools }) hskills]
        refine ⟨{ dir with tool_registry := registryOf tools }, rfl, ?_⟩
        rw [rewrites_tools_iff hpatch htools]
        cases dir
        simp [hskills, eq_comm]
      | ok skills =>
        refine ⟨_, finishUpdate_store (q := { q with tools }) hskills, ?_⟩
        rw [rewrites_tools_iff hpatch htools]
        cases dir
        simp [hskills, eq_comm, imp_iff_not_or, or_comm]

lemma updateAgent_store {patch : Dict} (now : ℤ) (hload : Loads py place s uid did core_dir profile)
    (hdir : s (place core_dir) = some dir) (hknown : refuseUnknown py patch = .ok ())
    (htexts : patchTexts py patch profile = .ok q) :
    ∃ dir', (perform (updateAgent py place (.str uid) (.str did) patch now) s).2 =
      Function.update s (place core_dir) (some dir') ∧ (dir' ≠ dir ↔ Rewrites py dir q patch now) := by
  rw [updateAgent, perform_loaded hload, perform_check_ok hknown, perform_check_ok htexts]
  exact patchTools_store hdir

lemma updateAgent_refused {patch : Dict} {now : ℤ} (hload : Loads py place s uid did core_dir profile)
    (h : ¬ ∃ q, refuseUnknown py patch = .ok () ∧ patchTexts py patch profile = .ok q) :
    (perform (updateAgent py place (.str uid) (.str did) patch now) s).2 = s := by
  rw [updateAgent, perform_loaded hload]
  cases hknown : refuseUnknown py patch with
  | error e => rw [check, perform_reads_error rfl]
  | ok known =>
    rw [perform_check_ok rfl]
    cases htexts : patchTexts py patch profile with
    | error e => rw [check, perform_reads_error rfl]
    | ok q => exact absurd ⟨q, hknown, htexts⟩ h

lemma updateOrNone_changes (update : Option Dict) (now : ℤ) :
    Changes place s (perform (updateOrNone py place (.str uid) (.str did) update now) s).2
      (Updates py place s uid did update now) := by
  cases update with
  | none =>
    refine ⟨?_, fun k hk => ?_⟩
    · rintro core_dir ⟨patch, dir, profile, q, ⟨⟩, -⟩
    · by_cases hloads : ∃ core_dir profile, Loads py place s uid did core_dir profile
      · obtain ⟨core_dir, profile, hload⟩ := hloads
        rw [updateOrNone, perform_loaded hload] at hk
        exact absurd rfl hk
      · rw [updateOrNone, perform_not_loaded (by simpa using hloads)] at hk
        exact absurd rfl hk
  | some patch =>
    rw [updateOrNone]
    refine ⟨?_, fun k hk => ?_⟩
    · rintro core_dir ⟨patch, dir, profile, q, ⟨⟩, hdir, hload, hknown, htexts, hrewrites⟩
      obtain ⟨dir', hstore, hdiffers⟩ := updateAgent_store now hload hdir hknown htexts
      rw [hstore, Function.update_self, hdir]
      exact fun hsame => hdiffers.mpr hrewrites (Option.some.inj hsame)
    · by_cases hloads : ∃ core_dir profile, Loads py place s uid did core_dir profile
      · obtain ⟨core_dir, profile, hload⟩ := hloads
        by_cases hq : ∃ q, refuseUnknown py patch = .ok () ∧ patchTexts py patch profile = .ok q
        · obtain ⟨q, hknown, htexts⟩ := hq
          obtain ⟨dir, record, hdir, -, -⟩ := loadProfile_ok hload.2
          obtain ⟨dir', hstore, hdiffers⟩ := updateAgent_store now hload hdir hknown htexts
          rw [hstore] at hk
          by_cases hkey : k = place core_dir
          · subst hkey
            rw [Function.update_self, hdir] at hk
            have hne : dir' ≠ dir := fun hsame => hk (congrArg some hsame)
            exact ⟨core_dir, ⟨patch, dir, profile, q, rfl, hdir, hload, hknown, htexts, hdiffers.mp hne⟩, rfl⟩
          · exact absurd (Function.update_of_ne hkey _ _) hk
        · rw [updateAgent_refused hload hq] at hk
          exact absurd rfl hk
      · rw [updateAgent, perform_not_loaded (by simpa using hloads)] at hk
        exact absurd rfl hk

end Calls

section Senders

variable {jwt : Jwt} {credentials : Option String} {user : CurrentUser} {uid name : String}

lemma verify_ok (h : verifyResourceOwnership uid user = .ok name) :
    name = uid ∧ (user.role = "admin" ∨ uid = user.user_id) := by
  rw [verifyResourceOwnership] at h
  split at h
  · cases h
    exact ⟨rfl, Or.inl ‹_›⟩
  · split at h
    · cases h
    · cases h
      exact ⟨rfl, Or.inr (not_not.mp ‹_›)⟩

lemma requireRole_ok {user' : CurrentUser} (h : requireRole ["admin", "operator"] user = .ok user') :
    user' = user ∧ (user.role = "admin" ∨ user.role = "operator") := by
  rw [requireRole] at h
  split at h
  · cases h
    exact ⟨rfl, Or.inl ‹_›⟩
  · split at h
    · cases h
    · rename_i hrole hallowed
      cases h
      refine ⟨rfl, ?_⟩
      simpa using not_not.mp hallowed

lemma asOperator_ok (h : asOperator jwt credentials uid = .ok name) :
    name = uid ∧ Entitled jwt credentials uid := by
  obtain ⟨uid', huid, hrest⟩ := bind_ok h
  obtain ⟨user, huser, hrest⟩ := bind_ok hrest
  obtain ⟨user', hrole, hrest⟩ := bind_ok hrest
  obtain ⟨user₀, huser₀, hverify⟩ := bind_ok huid
  obtain rfl := Except.ok.inj (huser.symm.trans huser₀)
  obtain ⟨hsame, howner⟩ := verify_ok hverify
  obtain ⟨-, hallowed⟩ := requireRole_ok hrole
  cases hrest
  refine ⟨hsame, user, huser, ?_⟩
  rcases hallowed with hadmin | hoperator
  · exact Or.inl hadmin
  · exact howner.imp_right fun hsame => ⟨hoperator, hsame.symm⟩

lemma verify_of_right {user : CurrentUser} (hright : user.role = "admin" ∨ user.role = "operator" ∧ user.user_id = uid) :
    verifyResourceOwnership uid user = .ok uid := by
  rw [verifyResourceOwnership]
  rcases hright with hadmin | ⟨hoperator, rfl⟩
  · rw [if_pos hadmin]
  · rw [if_neg (by rw [hoperator]; decide), if_neg (not_not.mpr rfl)]

lemma role_of_right {user : CurrentUser} (hright : user.role = "admin" ∨ user.role = "operator" ∧ user.user_id = uid) :
    requireRole ["admin", "operator"] user = .ok user := by
  rw [requireRole]
  rcases hright with hadmin | ⟨hoperator, -⟩
  · rw [if_pos hadmin]
  · rw [if_neg (by rw [hoperator]; decide), if_neg (by simp [hoperator])]

lemma asOperator_of_entitled (h : Entitled jwt credentials uid) :
    asOperator jwt credentials uid = .ok uid := by
  obtain ⟨user, huser, hright⟩ := h
  have howner : getResourceUid jwt credentials uid = .ok uid := by
    rw [getResourceUid, huser]
    exact verify_of_right hright
  rw [asOperator, howner, huser]
  change (requireRole ["admin", "operator"] user >>= fun _ => pure uid) = _
  rw [role_of_right hright]
  rfl

lemma entitled_iff (h : Entitled jwt credentials uid) (other : String) : Entitled jwt credentials other ↔
    ∀ user, getCurrentUser jwt credentials = .ok user → user.role = "operator" → user.user_id = uid → other = uid := by
  obtain ⟨user, huser, hright⟩ := h
  constructor
  · rintro ⟨user', huser', hright'⟩ user₀ huser₀ hoperator hsame
    obtain rfl := Except.ok.inj (huser'.symm.trans huser₀)
    rcases hright' with hadmin | ⟨-, hname⟩
    · rw [hadmin] at hoperator
      exact absurd hoperator (by decide)
    · rw [← hname, hsame]
  · intro hcalled
    refine ⟨user, huser, hright.imp_right fun hoperator => ⟨hoperator.1, ?_⟩⟩
    rw [hcalled user huser hoperator.1 hoperator.2, hoperator.2]

lemma checkOwner_ok {py : Builtins} {body : AgentCreateRequest} {config : AgentConfig}
    (hconfig : body.postInit py = .ok config) (h : checkOwner py jwt credentials body = .ok name) :
    Entitled jwt credentials config.uid := by
  obtain ⟨user, huser, hrest⟩ := bind_ok h
  obtain ⟨user', hrole, hverify⟩ := bind_ok hrest
  obtain ⟨rfl, hallowed⟩ := requireRole_ok hrole
  rw [hconfig] at hverify
  obtain ⟨-, howner⟩ := verify_ok hverify
  refine ⟨user', huser, ?_⟩
  rcases hallowed with hadmin | hoperator
  · exact Or.inl hadmin
  · exact howner.imp_right fun hsame => ⟨hoperator, hsame.symm⟩

lemma checkOwner_of_entitled {py : Builtins} {body : AgentCreateRequest} {config : AgentConfig}
    (hconfig : body.postInit py = .ok config) (h : Entitled jwt credentials config.uid) :
    checkOwner py jwt credentials body = .ok config.uid := by
  obtain ⟨user, huser, hright⟩ := h
  rw [checkOwner, huser]
  change (requireRole ["admin", "operator"] user >>= fun user => _) = _
  rw [role_of_right hright, hconfig]
  exact verify_of_right hright

end Senders

section Guards

lemma attempt_store {K α : Type} (s : Store K) (status : ℕ) (call : Code K α) (f : α → Response) :
    (attempt s status call f).2 = (perform call s).2 := rfl

variable {K : Type} [DecidableEq K] {py : Builtins} {place : CoreDir → K} {agent : CoreDir → Prop} {jwt : Jwt}
  {s : Store K} {r : Request} {uid : String} {E : CoreDir → Prop}

/-- A route on an agent: guarded exactly if the sender is entitled whenever the agent changes. -/
lemma guarded_iff_of_changes {α : Type} {status : ℕ} {call : Code K α} {f : α → Response}
    (ht : (r.handle py place jwt s).2 = (attempt s status call f).2)
    (h : Changes place s (perform call s).2 E) :
    Guarded py place agent jwt s r ↔
      ∀ core_dir, E core_dir → ∀ d, Kept place agent core_dir d → Entitled jwt r.credentials d.uid := by
  rw [Guarded, ht, attempt_store]
  constructor
  · rintro hguarded core_dir hcore d ⟨hagent, hplace⟩
    apply hguarded d hagent
    rw [hplace]
    exact h.changed core_dir hcore
  · intro hentitled d hagent hd
    obtain ⟨core_dir, hcore, hplace⟩ := h.frame _ hd
    exact hentitled core_dir hcore d ⟨hagent, hplace.symm⟩

lemma guarded_of_same (h : (r.handle py place jwt s).2 = s) : Guarded py place agent jwt s r := by
  intro d _ hd
  rw [h] at hd
  exact absurd rfl hd

/-- A route that lets those through who are entitled for a uid. -/
lemma guarded_iff_of_checked {α : Type} {status : ℕ} {x : Except Failure String} {call : String → Code K α}
    {f : α → Response} (hhandle : r.handle py place jwt s = withUid s x fun uid => attempt s status (call uid) f)
    (hpass : Entitled jwt r.credentials uid → x = .ok uid)
    (hrefuse : ∀ name, x = .ok name → Entitled jwt r.credentials uid)
    (h : Changes place s (perform (call uid) s).2 E) :
    Guarded py place agent jwt s r ↔ ∀ core_dir, E core_dir → CalledAs place agent jwt r.credentials uid core_dir := by
  by_cases hentitled : Entitled jwt r.credentials uid
  · have ht : (r.handle py place jwt s).2 = (attempt s status (call uid) f).2 := by
      rw [hhandle, hpass hentitled]
      rfl
    rw [guarded_iff_of_changes ht h]
    apply forall_congr'
    intro core_dir
    apply imp_congr_right
    intro _
    constructor
    · intro hright user huser hoperator hname d hkept
      exact (entitled_iff hentitled d.uid).mp (hright d hkept) user huser hoperator hname
    · intro hcalled d hkept
      apply (entitled_iff hentitled d.uid).mpr
      intro user huser hoperator hname
      exact hcalled user huser hoperator hname d hkept
  · have hsame : (r.handle py place jwt s).2 = s := by
      rw [hhandle]
      cases hx : x with
      | error e => rfl
      | ok name => exact absurd (hrefuse name hx) hentitled
    apply iff_of_true (guarded_of_same hsame)
    intro core_dir _ user huser hrole hname
    exact absurd ⟨user, huser, Or.inr ⟨hrole, hname⟩⟩ hentitled

lemma guarded_iff_of_operator {α : Type} {status : ℕ} {call : String → Code K α} {f : α → Response}
    (hhandle : r.handle py place jwt s =
      withUid s (asOperator jwt r.credentials uid) fun uid => attempt s status (call uid) f)
    (h : Changes place s (perform (call uid) s).2 E) :
    Guarded py place agent jwt s r ↔ ∀ core_dir, E core_dir → CalledAs place agent jwt r.credentials uid core_dir :=
  guarded_iff_of_checked hhandle asOperator_of_entitled (fun _ hok => (asOperator_ok hok).2) h

lemma createAgent_frame {body : AgentCreateRequest} {config : AgentConfig} {token : HexToken} {now : ℤ}
    {k : K}
    (hconfig : body.postInit py = .ok config) (hk : (perform (createAgent py place body token now) s).2 k ≠ s k) :
    s (place ⟨config.uid, config.didOr token⟩) = none ∧ place ⟨config.uid, config.didOr token⟩ = k := by
  cases hs : s (place ⟨config.uid, config.didOr token⟩) with
  | some dir =>
    rw [createAgent_exists now hconfig hs] at hk
    exact absurd rfl hk
  | none =>
    obtain ⟨dir, -, hperform⟩ := createAgent_result now hconfig hs
    rw [hperform] at hk
    refine ⟨rfl, ?_⟩
    by_contra hne
    exact hk (Function.update_of_ne (Ne.symm hne) _ _)

lemma createAgent_changes {body : AgentCreateRequest} {config : AgentConfig} {token : HexToken} (now : ℤ)
    (hconfig : body.postInit py = .ok config) :
    Changes place s (perform (createAgent py place body token now) s).2 (Creates py place s body token) := by
  constructor
  · rintro core_dir ⟨config', hconfig', rfl, hfree⟩
    obtain ⟨dir, -, hperform⟩ := createAgent_result now hconfig' hfree
    rw [hperform]
    change Function.update s _ (some dir) _ ≠ _
    rw [Function.update_self, hfree]
    exact nofun
  · intro k hk
    obtain ⟨hfree, hplace⟩ := createAgent_frame hconfig hk
    exact ⟨_, ⟨config, hconfig, rfl, hfree⟩, hplace⟩

/-- The uid in the body is compared as it is stored. -/
lemma createAgent_guarded_iff {credentials : Option String} {body : AgentCreateRequest} {token : HexToken}
    {now : ℤ} :
    Guarded py place agent jwt s ⟨credentials, .create_agent body token now⟩ ↔
      Condition py place agent jwt s ⟨credentials, .create_agent body token now⟩ := by
  cases hconfig : body.postInit py with
  | error e =>
    have hsame : (Request.handle py place jwt s ⟨credentials, .create_agent body token now⟩).2 = s := by
      change (withUid s (checkOwner py jwt credentials body) fun _ =>
        attempt s 400 (createAgent py place body token now) Response.profile).2 = s
      cases hchecked : checkOwner py jwt credentials body with
      | error e => rfl
      | ok name =>
        obtain ⟨user, huser, hrest⟩ := bind_ok hchecked
        obtain ⟨user', hrole, hverify⟩ := bind_ok hrest
        rw [hconfig] at hverify
        cases hverify
    apply iff_of_true (guarded_of_same hsame)
    rintro core_dir ⟨config, hconfig', -⟩
    rw [hconfig] at hconfig'
    cases hconfig'
  | ok config =>
    rw [guarded_iff_of_checked rfl (checkOwner_of_entitled hconfig)
      (fun name hok => checkOwner_ok hconfig hok) (createAgent_changes now hconfig), Condition]
    apply forall_congr'
    intro core_dir
    apply imp_congr_right
    rintro ⟨config', hconfig', rfl, -⟩
    obtain rfl := Except.ok.inj (hconfig.symm.trans hconfig')
    rfl

lemma guarded_reads {α : Type} {status : ℕ} {call : String → Code K α} {f : α → Response}
    {x : Except Failure String}
    (hhandle : r.handle py place jwt s = withUid s x fun uid => attempt s status (call uid) f)
    (hcall : ∀ uid, (perform (call uid) s).2 = s) : Guarded py place agent jwt s r := by
  apply guarded_of_same
  rw [hhandle]
  cases x with
  | error e => rfl
  | ok uid => exact hcall uid

omit [DecidableEq K] in
lemma getAgent_store (uid did : Value) : (perform (getAgent py place uid did) s).2 = s := by
  rw [getAgent]
  cases hresolve : resolveAgentCoreDir py place uid did s with
  | error e => rw [perform_reads_error hresolve]
  | ok core_dir =>
    rw [perform_reads_ok hresolve]
    rfl

omit [DecidableEq K] in
lemma readCoreFile_store (uid did filename : Value) :
    (perform (readCoreFile py place uid did filename) s).2 = s := by
  rw [readCoreFile]
  cases hname : validateCoreFilename py filename with
  | error e => rw [check, perform_reads_error rfl]
  | ok name =>
    rw [perform_check_ok rfl]
    cases hresolve : resolveAgentCoreDir py place uid did s with
    | error e => rw [perform_reads_error hresolve]
    | ok core_dir =>
      rw [perform_reads_ok hresolve]
      rfl

end Guards

section Stranger

/-- An agent with no skills. -/
def stored : Store (String × String) := (perform (creation.exec plain accounts) fun _ => none).2

def bindWithoutToken : Request := ⟨none, .bind_skill_to_agent "u1" "DID-1" "network-scanner" 1⟩

def storedSkills (s : Store (String × String)) : ℕ :=
  match (s ("u1", "DID-1")).bind fun dir => dir.agent_config.get? "skills" with
  | some (.list skills) => skills.length
  | _ => 0

end Stranger

end OpsSentry.Agent.Manager.Routes
