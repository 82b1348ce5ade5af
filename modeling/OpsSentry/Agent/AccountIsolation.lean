import OpsSentry.Agent.AccountPaths
import OpsSentry.Agent.ToolPermissions

/-! Which uids keep their accounts apart on the disk. -/

namespace OpsSentry.Agent.Accounts

open Foundation.PosixPath Foundation.Text Foundation.Values Manager

section Places

variable {accounts_dir : AbsPath} {U D : String} {q rest : Parts}

def agentDir (accounts_dir : AbsPath) (U D : String) : Parts := accounts_dir.names ++ [U, "agents", D]

/-- A path that is in normal form. -/
structure Inside (accounts_dir : AbsPath) (U D : String) (q : Parts) : Prop where
  names : ∀ n ∈ q, IsName n
  within : agentDir accounts_dir U D <+: q ∨ q = accounts_dir.names ++ [U, "agents"] ∨ q = accounts_dir.names ++ [U]

lemma Inside.normal (h : Inside accounts_dir U D q) : Within accounts_dir U D (normal q) := by
  rw [Within, normal_names h.names]
  exact h.within

def Placed (accounts_dir : AbsPath) (U D : String) (a : Access) : Prop := ∀ q, a.Covers q → Inside accounts_dir U D q

lemma isName_did {py : Builtins} {value : Value} {did : String} (h : normalizeDid py value = .ok did) : IsName did := by
  obtain ⟨-, -, -, hformat, hpath⟩ := normalizeDid_ok h
  refine ⟨?_, ?_, ?_, fun hslash => hpath (Or.inl hslash)⟩
  all_goals
    rintro rfl
    revert hformat
    decide

lemma names_agentDir (hu : IsName U) (hd : IsName D) (hrest : ∀ n ∈ rest, IsName n) :
    ∀ n ∈ agentDir accounts_dir U D ++ rest, IsName n := by
  have hagents : IsName "agents" := by decide
  intro n hn
  simp only [agentDir, List.mem_append, List.mem_cons, List.not_mem_nil, or_false] at hn
  rcases hn with (hn | rfl | rfl | rfl) | hn
  · exact accounts_dir.valid n hn
  · exact hu
  · exact hagents
  · exact hd
  · exact hrest n hn

lemma placed_entry (hu : IsName U) (hd : IsName D) (hrest : ∀ n ∈ rest, IsName n) :
    Placed accounts_dir U D (.entry (agentDir accounts_dir U D ++ rest)) := by
  rintro q rfl
  exact ⟨names_agentDir hu hd hrest, Or.inl (List.prefix_append _ _)⟩

lemma placed_tree (hu : IsName U) (hd : IsName D) :
    Placed accounts_dir U D (.tree (agentDir accounts_dir U D)) := by
  rintro q ⟨names, hnames, rfl⟩
  exact ⟨names_agentDir hu hd hnames, Or.inl (List.prefix_append _ _)⟩

lemma placed_made (hu : IsName U) (hd : IsName D) (hrest : ∀ n ∈ rest, IsName n) :
    Placed accounts_dir U D (.made (agentDir accounts_dir U D ++ rest) accounts_dir.names) := by
  rintro q ⟨hq, hnew⟩
  refine ⟨fun n hn => names_agentDir hu hd hrest n (hq.subset hn), ?_⟩
  have haccounts : accounts_dir.names <+: agentDir accounts_dir U D ++ rest := by
    rw [agentDir, List.append_assoc]
    exact List.prefix_append _ _
  obtain ⟨r, rfl⟩ := (List.prefix_or_prefix_of_prefix hq haccounts).resolve_left hnew
  rw [agentDir, List.append_assoc, List.prefix_append_right_inj] at hq
  change r <+: U :: "agents" :: D :: rest at hq
  cases r with
  | nil =>
    rw [List.append_nil] at hnew
    exact absurd (List.prefix_refl _) hnew
  | cons u r =>
    obtain ⟨rfl, hagents⟩ := List.cons_prefix_cons.mp hq
    cases r with
    | nil => exact Or.inr (Or.inr rfl)
    | cons a r =>
      obtain ⟨rfl, hdid⟩ := List.cons_prefix_cons.mp hagents
      cases r with
      | nil => exact Or.inr (Or.inl rfl)
      | cons d r =>
        obtain ⟨rfl, -⟩ := List.cons_prefix_cons.mp hdid
        exact Or.inl ⟨r, by rw [agentDir, List.append_assoc]; rfl⟩

lemma isName_scratch {n token : String} (hn : IsName n) (htoken : '/' ∉ token.toList) :
    IsName (n ++ "." ++ token ++ ".tmp") := by
  have hlength : 4 ≤ (n ++ "." ++ token ++ ".tmp").length := by
    rw [String.length_append]
    exact Nat.le_add_left 4 _
  refine ⟨?_, ?_, ?_, ?_⟩
  · intro h
    rw [h] at hlength
    exact absurd hlength (by decide)
  · intro h
    rw [h] at hlength
    exact absurd hlength (by decide)
  · intro h
    rw [h] at hlength
    exact absurd hlength (by decide)
  · have hname := hn.2.2.2
    simp [hname, htoken]

lemma placed_scratch (hu : IsName U) (hd : IsName D) (hrest : ∀ n ∈ rest, IsName n) {n : String}
    (hn : IsName n) :
    Placed accounts_dir U D (.scratch (agentDir accounts_dir U D ++ rest ++ [n])) := by
  rintro q ⟨token, htoken, rfl⟩
  rw [List.dropLast_concat, List.getLastD_concat, List.append_assoc]
  refine placed_entry hu hd (fun m hm => ?_) _ rfl
  rcases List.mem_append.mp hm with hm | hm
  · exact hrest m hm
  · exact List.mem_singleton.mp hm ▸ isName_scratch hn htoken

lemma placed_writeText (hu : IsName U) (hd : IsName D) (hrest : ∀ n ∈ rest, IsName n) {n : String}
    (hn : IsName n) :
    ∀ a ∈ writeText accounts_dir (agentDir accounts_dir U D ++ rest ++ [n]), Placed accounts_dir U D a := by
  intro a ha
  simp only [writeText, List.mem_cons, List.not_mem_nil, or_false] at ha
  rcases ha with rfl | rfl | rfl
  · rw [List.dropLast_concat]
    exact placed_made hu hd hrest
  · exact placed_scratch hu hd hrest hn
  · rw [List.append_assoc]
    refine placed_entry hu hd fun m hm => ?_
    rcases List.mem_append.mp hm with hm | hm
    · exact hrest m hm
    · exact List.mem_singleton.mp hm ▸ hn

lemma agentsDir_eq (hu : IsName U) : agentsDir accounts_dir U = accounts_dir.names ++ [U, "agents"] := by
  rw [agentsDir, joined_of_isName hu, joined_of_isName (by decide), List.append_assoc]
  rfl

lemma agentCoreDir_eq (hu : IsName U) (hd : IsName D) :
    agentCoreDir accounts_dir U D = agentDir accounts_dir U D ++ ["agent-core"] := by
  rw [agentCoreDir, agentsDir_eq hu, joined_of_isName hd, joined_of_isName (by decide), agentDir, List.append_assoc, List.append_assoc,
    List.append_assoc]
  rfl

end Places

section Files

variable {py : Builtins}

/-- The files that are written have one of the five names. -/
lemma core_file_overrides {items : List (Value × Value)} {normalized files : List (String × String)}
    (hn : ∀ f ∈ normalized, f.1 ∈ CORE_FILE_NAMES) (h : items.foldlM (addOverride py) normalized = .ok files) :
    ∀ f ∈ files, f.1 ∈ CORE_FILE_NAMES := by
  induction items generalizing normalized with
  | nil =>
    cases h
    exact hn
  | cons item items ih =>
    rw [List.foldlM_cons] at h
    obtain ⟨next, hnext, h⟩ := bind_ok h
    refine ih (fun f hf => ?_) h
    rw [addOverride] at hnext
    split at hnext
    · split at hnext
      · rename_i hname
        cases hnext
        rcases mem_put hf with heq | hf
        · exact heq ▸ hname
        · exact hn f hf
      · cases hnext
    · cases hnext

lemma config_core_files {request : AgentCreateRequest} {config : AgentConfig}
    (h : request.postInit py = .ok config) :
    ∀ f ∈ config.core_files, f.1 ∈ CORE_FILE_NAMES := by
  obtain ⟨uid, -, h⟩ := bind_ok h
  obtain ⟨name, -, h⟩ := bind_ok h
  obtain ⟨description, -, h⟩ := bind_ok h
  obtain ⟨vibe, -, h⟩ := bind_ok h
  obtain ⟨model_provider, -, h⟩ := bind_ok h
  obtain ⟨model_id, -, h⟩ := bind_ok h
  obtain ⟨tools, -, h⟩ := bind_ok h
  obtain ⟨skills, -, h⟩ := bind_ok h
  obtain ⟨core_files, hfiles, h⟩ := bind_ok h
  obtain ⟨did, -, h⟩ := bind_ok h
  cases h
  obtain ⟨items, -, hfiles⟩ := bind_ok hfiles
  exact core_file_overrides (List.forall_mem_nil _) hfiles

lemma foldl_put_names {overrides materialized : List (String × String)}
    (hm : ∀ f ∈ materialized, f.1 ∈ CORE_FILE_NAMES)
    (ho : ∀ f ∈ overrides, f.1 ∈ CORE_FILE_NAMES) :
    ∀ f ∈ overrides.foldl (fun materialized file => put materialized file.1 file.2) materialized, f.1 ∈ CORE_FILE_NAMES := by
  induction overrides generalizing materialized with
  | nil => exact hm
  | cons file overrides ih =>
    refine ih (fun f hf => ?_) fun f hf => ho f (List.mem_cons_of_mem _ hf)
    rcases mem_put hf with heq | hf
    · exact heq ▸ ho file List.mem_cons_self
    · exact hm f hf

lemma defaultCoreFiles_names (profile : AgentProfile) {overrides : List (String × String)}
    (ho : ∀ f ∈ overrides, f.1 ∈ CORE_FILE_NAMES) : ∀ f ∈ defaultCoreFiles profile overrides, f.1 ∈ CORE_FILE_NAMES := by
  refine foldl_put_names (fun f hf => ?_) ho
  simp only [List.mem_cons, List.not_mem_nil, or_false] at hf
  rcases hf with rfl | rfl | rfl | rfl | rfl <;> simp [CORE_FILE_NAMES]

lemma isName_core_file {name : String} (h : name ∈ CORE_FILE_NAMES) : IsName name := by
  have hall : ∀ name ∈ CORE_FILE_NAMES, IsName name := by decide
  exact hall name h

lemma validateCoreFilename_ok {filename : Value} {name : String}
    (h : validateCoreFilename py filename = .ok name) :
    IsName name := by
  rw [validateCoreFilename] at h
  split at h
  · rename_i hname
    cases h
    exact isName_core_file hname
  · cases h

end Files

section Confinement

variable {py : Builtins} {accounts_dir : AbsPath} {uid did : Value} {t t' : Touch}

lemma confined_of_placed (hu : IsName t.uid) {D : String} (hd : IsName D) (hdid : ∀ did ∈ t.did, did = D)
    (h : ∀ a ∈ t.accesses, Placed accounts_dir t.uid D a) : Confined accounts_dir t :=
  ⟨t.uid, rfl, hu, fun a ha q hq => ⟨D, hdid, hd, (h a ha q hq).normal⟩⟩

lemma inCoreDir_ok {rest : Parts → List Access} (h : inCoreDir py accounts_dir uid did rest = .ok t) :
    ∃ D, normalizeDid py did = .ok D ∧ requireNonEmpty py "uid" uid = .ok t.uid ∧ t.did = some D ∧
      t.accesses = .entry (agentCoreDir accounts_dir t.uid D) :: rest (agentCoreDir accounts_dir t.uid D) := by
  obtain ⟨u, hu, h⟩ := bind_ok h
  obtain ⟨d, hd, h⟩ := bind_ok h
  cases h
  exact ⟨d, hd, hu, rfl, rfl⟩

lemma placed_inCoreDir {rest : Parts → List Access} (h : inCoreDir py accounts_dir uid did rest = .ok t)
    (hu : IsName t.uid) {D : String} (hdid : t.did = some D)
    (hrest : ∀ a ∈ rest (agentDir accounts_dir t.uid D ++ ["agent-core"]), Placed accounts_dir t.uid D a) :
    ∀ a ∈ t.accesses, Placed accounts_dir t.uid D a := by
  obtain ⟨d, hd, -, hd', haccesses⟩ := inCoreDir_ok h
  obtain rfl : d = D := Option.some.inj (hd'.symm.trans hdid)
  rw [haccesses, agentCoreDir_eq hu (isName_did hd)]
  refine List.forall_mem_cons.mpr ⟨placed_entry hu (isName_did hd) ?_, hrest⟩
  simp only [List.mem_singleton, forall_eq]
  decide

lemma confined_inCoreDir {rest : Parts → List Access} (h : inCoreDir py accounts_dir uid did rest = .ok t)
    (hu : IsName t.uid)
    (hrest : ∀ D, IsName D → ∀ a ∈ rest (agentDir accounts_dir t.uid D ++ ["agent-core"]), Placed accounts_dir t.uid D a) :
    Confined accounts_dir t := by
  obtain ⟨d, hd, -, hdid, -⟩ := inCoreDir_ok h
  refine confined_of_placed hu (isName_did hd) (by simp [hdid]) ?_
  exact placed_inCoreDir h hu hdid (hrest d (isName_did hd))

lemma names_core : ∀ n ∈ ["agent-core"], IsName n := by
  simp only [List.mem_singleton, forall_eq]
  decide

lemma placed_file {U D : String} (hu : IsName U) (hd : IsName D) {name : String} (hname : IsName name) :
    Placed accounts_dir U D (.entry (joined (agentDir accounts_dir U D ++ ["agent-core"]) name)) := by
  rw [joined_of_isName hname, List.append_assoc]
  refine placed_entry hu hd fun n hn => ?_
  rcases List.mem_append.mp hn with hn | hn
  · exact names_core n hn
  · exact List.mem_singleton.mp hn ▸ hname

lemma placed_write {U D : String} (hu : IsName U) (hd : IsName D) {name : String} (hname : IsName name) :
    ∀ a ∈ writeText accounts_dir (joined (agentDir accounts_dir U D ++ ["agent-core"]) name), Placed accounts_dir U D a := by
  rw [joined_of_isName hname]
  exact placed_writeText hu hd names_core hname

lemma isName_config : IsName AGENT_CONFIG_FILE := by decide

lemma isName_registry : IsName TOOL_REGISTRY_FILE := by decide

lemma isName_skills : IsName SKILLS_DIR_NAME := by decide

lemma getAgent_confined (h : getAgent py accounts_dir uid did = .ok t) (hu : IsName t.uid) :
    Confined accounts_dir t := by
  refine confined_inCoreDir h hu fun D hd a ha => ?_
  obtain rfl := List.mem_singleton.mp ha
  exact placed_file hu hd isName_config

lemma createAgent_confined {request : AgentCreateRequest} {token : HexToken} {now : ℤ}
    (h : createAgent py accounts_dir request token now = .ok t) (hu : IsName t.uid) : Confined accounts_dir t := by
  obtain ⟨config, hconfig, h⟩ := bind_ok h
  obtain ⟨got, hgot, h⟩ := bind_ok h
  cases h
  obtain ⟨hstored, huid⟩ := postInit_stored token now hconfig
  have hd : IsName (config.didOr token) := isName_did hstored.did
  obtain ⟨D, hD, hU, hdid, -⟩ := inCoreDir_ok hgot
  obtain rfl : config.didOr token = D := Except.ok.inj (hstored.did.symm.trans hD)
  have hsame : got.uid = config.uid := Except.ok.inj (hU.symm.trans huid)
  refine confined_of_placed hu hd (by simp) fun a ha => ?_
  dsimp only at ha hu ⊢
  rw [agentCoreDir_eq hu hd, List.mem_append, List.mem_append] at ha
  rcases ha with (ha | ha) | ha
  · simp only [List.mem_cons, List.not_mem_nil, or_false] at ha
    rcases ha with rfl | rfl | rfl
    · exact placed_entry hu hd names_core
    · exact placed_made hu hd names_core
    · rw [joined_of_isName isName_skills, List.append_assoc]
      refine placed_made hu hd ?_
      simp only [List.singleton_append, List.mem_cons, List.not_mem_nil, or_false, forall_eq_or_imp, forall_eq]
      exact ⟨by decide, isName_skills⟩
  · obtain ⟨name, hname, ha⟩ := List.mem_flatMap.mp ha
    refine placed_write hu hd ?_ a ha
    rcases List.mem_cons.mp hname with rfl | hname
    · exact isName_config
    rcases List.mem_cons.mp hname with rfl | hname
    · exact isName_registry
    · obtain ⟨file, hfile, rfl⟩ := List.mem_map.mp hname
      exact isName_core_file (defaultCoreFiles_names _ (config_core_files hconfig) file hfile)
  · rw [← hsame] at hu ⊢
    refine placed_inCoreDir hgot hu hdid (fun a ha => ?_) a ha
    obtain rfl := List.mem_singleton.mp ha
    exact placed_file hu hd isName_config

lemma updateAgent_confined (h : updateAgent py accounts_dir uid did = .ok t) (hu : IsName t.uid) :
    Confined accounts_dir t := by
  refine confined_inCoreDir h hu fun D hd a ha => ?_
  rw [List.mem_append, List.mem_append, List.mem_singleton] at ha
  rcases ha with (rfl | ha) | ha
  · exact placed_file hu hd isName_config
  · exact placed_write hu hd isName_registry a ha
  · exact placed_write hu hd isName_config a ha

lemma deleteAgent_confined (h : deleteAgent py accounts_dir uid did = .ok t) (hu : IsName t.uid) :
    Confined accounts_dir t := by
  refine confined_inCoreDir h hu fun D hd a ha => ?_
  obtain rfl := List.mem_singleton.mp ha
  rw [List.dropLast_concat]
  exact placed_tree hu hd

lemma readCoreFile_confined {filename : Value} (h : readCoreFile py accounts_dir uid did filename = .ok t)
    (hu : IsName t.uid) :
    Confined accounts_dir t := by
  obtain ⟨name, hname, h⟩ := bind_ok h
  refine confined_inCoreDir h hu fun D hd a ha => ?_
  obtain rfl := List.mem_singleton.mp ha
  exact placed_file hu hd (validateCoreFilename_ok hname)

lemma writeCoreFile_confined {filename : Value} (h : writeCoreFile py accounts_dir uid did filename = .ok t)
    (hu : IsName t.uid) : Confined accounts_dir t := by
  obtain ⟨name, hname, h⟩ := bind_ok h
  exact confined_inCoreDir h hu fun D hd => placed_write hu hd (validateCoreFilename_ok hname)

lemma bindSkill_confined {skill_name : Value} (h : bindSkill py accounts_dir uid did skill_name = .ok t)
    (hu : IsName t.uid) : Confined accounts_dir t := by
  obtain ⟨skill, -, h⟩ := bind_ok h
  refine confined_inCoreDir h hu fun D hd a ha => ?_
  rcases List.mem_cons.mp ha with rfl | ha
  · exact placed_file hu hd isName_config
  · exact placed_write hu hd isName_config a ha

lemma listAgents_confined {found : List {name : String // IsName name}}
    (h : listAgents py accounts_dir uid (found.map Subtype.val) = .ok t) (hu : IsName t.uid) : Confined accounts_dir t := by
  obtain ⟨u, -, h⟩ := bind_ok h
  cases h
  dsimp only at hu
  have hbelow {D : String} (hd : IsName D) {rest : Parts} (hrest : ∀ n ∈ rest, IsName n) :
      Placed accounts_dir u D (.entry (agentsDir accounts_dir u ++ D :: rest)) := by
    have hpath : agentsDir accounts_dir u ++ D :: rest = agentDir accounts_dir u D ++ rest := by
      rw [agentsDir_eq hu, agentDir, List.append_assoc, List.append_assoc]
      rfl
    rw [hpath]
    exact placed_entry hu hd hrest
  refine ⟨u, rfl, hu, fun a ha q hq => ?_⟩
  rcases List.mem_cons.mp ha with rfl | ha
  · refine ⟨u, by simp, hu, ?_⟩
    obtain rfl : q = agentsDir accounts_dir u := hq
    have hall : ∀ n ∈ agentDir accounts_dir u u ++ [], IsName n := names_agentDir hu hu (List.forall_mem_nil _)
    have hnames : ∀ n ∈ agentsDir accounts_dir u, IsName n := by
      intro n hn
      apply hall
      rw [agentsDir_eq hu, List.mem_append] at hn
      rw [List.append_nil, agentDir, List.mem_append]
      exact hn.imp_right fun hn => List.mem_append_left [u] hn
    exact Inside.normal ⟨hnames, Or.inr (Or.inl (agentsDir_eq hu))⟩
  · obtain ⟨name, hname, ha⟩ := List.mem_flatMap.mp ha
    obtain ⟨⟨name, hd⟩, -, rfl⟩ := List.mem_map.mp hname
    refine ⟨name, by simp, hd, Inside.normal ?_⟩
    simp only [List.mem_cons, List.not_mem_nil, or_false] at ha
    rcases ha with rfl | rfl | rfl
    · exact hbelow hd (List.forall_mem_nil _) q hq
    · exact hbelow hd names_core q hq
    · refine hbelow hd ?_ q hq
      simp only [List.mem_cons, List.not_mem_nil, or_false, forall_eq_or_imp, forall_eq]
      exact ⟨by decide, isName_config⟩

lemma touch_confined {op : Operation} (h : op.touch py accounts_dir = .ok t) (hu : IsName t.uid) :
    Confined accounts_dir t := by
  cases op with
  | create_agent request token now => exact createAgent_confined h hu
  | get_agent uid did => exact getAgent_confined h hu
  | update_agent uid did => exact updateAgent_confined h hu
  | delete_agent uid did => exact deleteAgent_confined h hu
  | list_agents uid found => exact listAgents_confined h hu
  | read_core_file uid did filename => exact readCoreFile_confined h hu
  | write_core_file uid did filename => exact writeCoreFile_confined h hu
  | bind_skill uid did skill_name => exact bindSkill_confined h hu

lemma Within.account {U D : String} {p : AbsPath} (h : Within accounts_dir U D p) :
    accounts_dir.names ++ [U] <+: p.names := by
  rcases h with h | h | h
  · exact List.IsPrefix.trans ⟨["agents", D], by rw [List.append_assoc]; rfl⟩ h
  · exact ⟨["agents"], by rw [h, List.append_assoc]; rfl⟩
  · rw [h]

lemma not_below {U D U' D' : String} {p p' : AbsPath} (h : Within accounts_dir U D p)
    (h' : Within accounts_dir U' D' p')
    (hne : U ≠ U') : ¬ p.Below p' := by
  intro hbelow
  have hsame := List.prefix_of_prefix_length_le (h.account.trans hbelow) h'.account (by simp)
  rw [List.prefix_append_right_inj] at hsame
  exact hne (List.cons_prefix_cons.mp hsame).1

/-- The directories of the accounts are kept apart exactly if the uids are names of directories. -/
theorem isolated_iff {op op' : Operation} (h : op.touch py accounts_dir = .ok t)
    (h' : op'.touch py accounts_dir = .ok t') :
    Isolated accounts_dir t t' ↔ IsName t.uid ∧ IsName t'.uid := by
  constructor
  · rintro ⟨⟨U, rfl, hU, -⟩, ⟨U', rfl, hU', -⟩, -⟩
    exact ⟨hU, hU'⟩
  · rintro ⟨hu, hu'⟩
    have hconfined := touch_confined h hu
    have hconfined' := touch_confined h' hu'
    refine ⟨hconfined, hconfined', fun hne a ha a' ha' q q' hq hq' => ?_⟩
    obtain ⟨U, rfl, -, hplaces⟩ := hconfined
    obtain ⟨U', rfl, -, hplaces'⟩ := hconfined'
    obtain ⟨D, -, -, hwithin⟩ := hplaces a ha q hq
    obtain ⟨D', -, -, hwithin'⟩ := hplaces' a' ha' q' hq'
    exact ⟨not_below hwithin hwithin' hne, not_below hwithin' hwithin (Ne.symm hne)⟩

end Confinement

section Sample

def home : AbsPath := ⟨["srv", "accio", "accounts"], by decide⟩

def deletion (uid : String) : Operation := .delete_agent (.str uid) (.str "DID-1")

def listing (uid : String) : Operation := .list_agents (.str uid) [⟨"DID-1", by decide⟩]

theorem deletion_apart_from_listing : ∃ t t', (deletion "u1").touch plain home = .ok t ∧
    (listing "u2").touch plain home = .ok t' ∧ Isolated home t t' := by
  obtain ⟨t, ht, huid⟩ : ∃ t, (deletion "u1").touch plain home = .ok t ∧ IsName t.uid := ⟨_, rfl, by decide⟩
  obtain ⟨t', ht', huid'⟩ : ∃ t', (listing "u2").touch plain home = .ok t' ∧ IsName t'.uid := ⟨_, rfl, by decide⟩
  exact ⟨t, t', ht, ht', (isolated_iff ht ht').mpr ⟨huid, huid'⟩⟩

/-- `delete_agent` for one uid removes the agent of another one. -/
theorem other_account_deleted :
    ¬ ∀ op op' t t', Operation.touch plain home op = .ok t → Operation.touch plain home op' = .ok t' →
    Isolated home t t' := by
  intro h
  obtain ⟨-, -, hapart⟩ := h (deletion "./u1") (deletion "u1") _ _ rfl rfl
  have hbelow := (hapart (by decide) _ (List.mem_cons_of_mem _ List.mem_cons_self) _ List.mem_cons_self _ _
    ⟨["agent-core"], by decide, rfl⟩ rfl).1
  apply hbelow
  decide

end Sample

end OpsSentry.Agent.Accounts
