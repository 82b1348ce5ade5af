import OpsSentry.Agent.StoredProfiles
import OpsSentry.Foundation.Dicts

/-! What a map of tool groups changes in the two files of an agent. The normaliser of a map starts
from the defaults, not from what the agent has. -/

namespace OpsSentry.Agent.Manager

open Foundation.Dicts Foundation.Runs Foundation.Values

namespace Patches

def mapValue (m : OrderedDict Group Bool) : Value := .dict (m.items.map fun p => (p.1.text, .bool p.2))

/-- A call that takes the map. -/
inductive Takes (m : OrderedDict Group Bool) : Call → Prop
  | update_agent {uid did : Value} {patch : Dict} {now : ℤ} (h : patch.lookup (.text "tools") = some (mapValue m)) :
      Takes m (.update_agent uid did patch now)
  | update_tool_registry {uid did : Value} {now : ℤ} : Takes m (.update_tool_registry uid did (mapValue m) now)

def enabledIn (groups : Option Value) (g : Group) : Option Bool :=
  match groups with
  | some (.dict kvs) =>
    match kvs.lookup (.text g.text) with
    | some (.bool b) => some b
    | _ => none
  | _ => none

def inConfig (dir : AgentDir) (g : Group) : Option Bool := enabledIn (dir.agent_config.get? "tools") g

def inRegistry (dir : AgentDir) (g : Group) : Option Bool := enabledIn (dir.tool_registry.get? "enabled_groups") g

structure OnlyNamed (m : OrderedDict Group Bool) (before after : AgentDir) : Prop where
  named : ∀ g b, m.get? g = some b → inConfig after g = some b ∧ inRegistry after g = some b
  kept : ∀ g, m.get? g = none → inConfig after g = inConfig before g ∧ inRegistry after g = inRegistry before g

def UnnamedAtDefault (m : OrderedDict Group Bool) (dir : AgentDir) : Prop :=
  ∀ g, m.get? g = none →
    inConfig dir g = some (DEFAULT_TOOL_ENABLEMENT g) ∧ inRegistry dir g = some (DEFAULT_TOOL_ENABLEMENT g)

/-- The calls of the manager that change directories. -/
inductive Event
  | call (c : Call)
  | delete_agent (uid did : Value)

section Events

variable {K : Type} [DecidableEq K] (py : Builtins) (place : CoreDir → K)

def Event.exec : Event → Code K Unit
  | .call c => c.exec py place
  | .delete_agent uid did => deleteAgent py place uid did

def move (s : Store K) (e : Event) : Option (Store K) := some (perform (e.exec py place) s).2

end Events

/-- The map over the defaults. -/
def overDefaults (m : OrderedDict Group Bool) : Tools := fun g => (m.get? g).getD (DEFAULT_TOOL_ENABLEMENT g)

section Maps

variable {py : Builtins} {m : OrderedDict Group Bool} {tools : Tools}

lemma foldlM_addGroup (items : List (Group × Bool)) (hnodup : (items.map Prod.fst).Nodup)
    (normalized : Tools) :
    (items.map fun p => (Value.str p.1.text, Value.bool p.2)).foldlM (addGroup py) normalized =
      .ok fun g => ((items.find? fun p => p.1 = g).map Prod.snd).getD (normalized g) := by
  induction items generalizing normalized with
  | nil => rfl
  | cons p items ih =>
    obtain ⟨g, b⟩ := p
    rw [List.map_cons, List.nodup_cons] at hnodup
    rw [List.map_cons, List.foldlM_cons, addGroup, ofKey_text, ok_bind, ih hnodup.2]
    congr 1
    funext a
    by_cases ha : g = a
    · subst ha
      have hnone : items.find? (fun p => p.1 = g) = none := by
        rw [List.find?_eq_none]
        intro p hp hpg
        have hg : p.1 = g := by simpa using hpg
        exact hnodup.1 (List.mem_map.mpr ⟨p, hp, hg⟩)
      rw [hnone, List.find?_cons_of_pos (by simp)]
      simp [Value.truthy]
    · rw [List.find?_cons_of_neg (by simpa using ha), Function.update_of_ne (Ne.symm ha)]

lemma normalizeTools_mapValue (m : OrderedDict Group Bool) :
    normalizeTools py (mapValue m) = .ok (overDefaults m) := by
  rw [normalizeTools, mapValue, dictItems, ok_bind, List.map_map]
  exact foldlM_addGroup m.items m.nodup _

lemma enabledIn_toolsValue (tools : Tools) (g : Group) :
    enabledIn (some (toolsValue tools)) g = some (tools g) := by
  cases g <;> rfl

end Maps

/-- The two files of an agent. Their groups differ after an update that raised between them. -/
structure Files (py : Builtins) (dir : AgentDir) (p : AgentProfile) (registered : Tools) : Prop where
  stored : Stored py p
  agent_config : dir.agent_config = .json (.dict p.toRecord)
  tool_registry : dir.tool_registry = registryOf registered

section Written

variable {K : Type} {py : Builtins} {place : CoreDir → K} {s : Store K} {core_dir : CoreDir}
  {dir : AgentDir}
  {p q : AgentProfile} {registered : Tools} {uid did : Value} {α β : Type}

def Written (py : Builtins) (s : Store K) : Prop := ∀ k dir, s k = some dir → ∃ p registered, Files py dir p registered

lemma Files.inConfig (h : Files py dir p registered) (g : Group) : inConfig dir g = some (p.tools g) := by
  rw [Patches.inConfig, h.agent_config]
  exact enabledIn_toolsValue _ g

lemma Files.inRegistry (h : Files py dir p registered) (g : Group) :
    inRegistry dir g = some (registered g) := by
  rw [Patches.inRegistry, h.tool_registry]
  exact enabledIn_toolsValue _ g

lemma Files.of_holds (h : Holds py dir p) :
    Files py dir p p.tools := ⟨h.stored, h.agent_config, h.tool_registry⟩

/-- A loaded profile is that of the file under the name of the account. -/
lemma Written.loaded (hw : Written py s) (h : loadProfile py place core_dir s = .ok p) :
    ∃ dir registered, s (place core_dir) = some dir ∧ Files py dir p registered := by
  obtain ⟨dir, hdir⟩ := exists_of_loadProfile h
  obtain ⟨q, registered, hq⟩ := hw _ _ hdir
  obtain ⟨uid, -, rfl⟩ := hq.stored.of_load hdir hq.agent_config h
  exact ⟨dir, registered, hdir, hq.stored.update uid _ _ hq.stored.skills, hq.agent_config, hq.tool_registry⟩

lemma written_reads {f : Store K → Except Exc α} {g : α → Code K β} (hw : Written py s)
    (hg : ∀ a, f s = .ok a → Written py (perform (g a) s).2) : Written py (perform (reads f >>= g) s).2 := by
  cases h : f s with
  | error e =>
    rw [perform_reads_error h]
    exact hw
  | ok a =>
    rw [perform_reads_ok h]
    exact hg a h

lemma written_check {r : Except Exc α} {g : α → Code K β} (hw : Written py s)
    (hg : ∀ a, r = .ok a → Written py (perform (g a) s).2) : Written py (perform (check r >>= g) s).2 :=
  written_reads hw hg

lemma written_profile {g : CoreDir → AgentProfile → Code K β} (hw : Written py s)
    (hg : ∀ core_dir dir p registered, s (place core_dir) = some dir → Files py dir p registered →
      Written py (perform (g core_dir p) s).2) :
    Written py (perform (do
      let core_dir ← reads (resolveAgentCoreDir py place uid did)
      let profile ← reads (loadProfile py place core_dir)
      g core_dir profile) s).2 := by
  refine written_reads hw fun core_dir _ => written_reads hw fun p hp => ?_
  obtain ⟨dir, registered, hdir, hfiles⟩ := hw.loaded hp
  exact hg core_dir dir p registered hdir hfiles

variable [DecidableEq K]

lemma Written.update (hw : Written py s) (h : Files py dir p registered) (k : K) :
    Written py (Function.update s k (some dir)) := by
  refine forall_update (P := fun dir => ∃ p registered, Files py dir p registered) hw ?_ k
  intro dir' hdir'
  cases hdir'
  exact ⟨p, registered, h⟩

lemma Written.edit (hw : Written py s) (hdir : s (place core_dir) = some dir) {f : AgentDir → AgentDir}
    (h : Files py (f dir) p registered) : Written py (edit place s core_dir f) := by
  rw [edit_of_some hdir]
  exact hw.update h _

lemma written_bindSkill {skill_name : Value} {now : ℤ} (hw : Written py s) :
    Written py (perform (bindSkill py place uid did skill_name now) s).2 := by
  refine written_check hw fun skill hskill => written_profile hw fun core_dir dir p registered hdir hp => ?_
  by_cases hnew : skill ∉ p.skills
  · rw [if_pos hnew]
    have hadd := hp.stored.skills.add (normalizeSkillName_again hskill) hnew
    exact hw.edit (p := { p with skills := p.skills ++ [skill], updated_at := now }) hdir
      ⟨hp.stored.update _ _ _ hadd, rfl, hp.tool_registry⟩
  · rw [if_neg hnew]
    exact hw

lemma written_unbindSkill {skill_name : Value} {now : ℤ} (hw : Written py s) :
    Written py (perform (unbindSkill py place uid did skill_name now) s).2 := by
  refine written_check hw fun skill _ => written_profile hw fun core_dir dir p registered hdir hp => ?_
  by_cases hbound : skill ∈ p.skills
  · rw [if_pos hbound]
    exact hw.edit (p := { p with skills := p.skills.filter (· ≠ skill), updated_at := now }) hdir
      ⟨hp.stored.update _ _ _ (hp.stored.skills.filter _), rfl, hp.tool_registry⟩
  · rw [if_neg hbound]
    exact hw

lemma perform_updateToolRegistry {tools : Value} {normalized : Tools} {now : ℤ}
    (hn : normalizeTools py tools = .ok normalized) (hresolve : resolveAgentCoreDir py place uid did s = .ok core_dir)
    (hload : loadProfile py place core_dir s = .ok p) (hdir : s (place core_dir) = some dir) :
    perform (updateToolRegistry py place uid did tools now) s = (.ok (), Function.update s (place core_dir)
      (some (dir.storing { p with tools := normalized, updated_at := now }))) := by
  rw [updateToolRegistry, perform_check_ok hn, perform_reads_ok hresolve, perform_reads_ok hload,
    perform_writeConfig, edit_of_some hdir, ← bind_pure (writeToolRegistry _ _ _ _), perform_writeToolRegistry,
    edit_update]
  rfl

lemma Files.storing (hp : Stored py p) (dir : AgentDir) :
    Files py (dir.storing p) p p.tools := ⟨hp, rfl, rfl⟩

lemma written_updateToolRegistry {tools : Value} {now : ℤ} (hw : Written py s) :
    Written py (perform (updateToolRegistry py place uid did tools now) s).2 := by
  refine written_check hw fun normalized _ => written_profile hw fun core_dir dir p registered hdir hp => ?_
  rw [perform_writeConfig, edit_of_some hdir, ← bind_pure (writeToolRegistry _ _ _ _), perform_writeToolRegistry,
    edit_update]
  exact hw.update (Files.storing (hp.stored.update p.uid normalized now hp.stored.skills) dir) _

lemma written_writeCoreFile {filename content : Value} (hw : Written py s) :
    Written py (perform (writeCoreFile py place uid did filename content) s).2 := by
  refine written_check hw fun name _ => written_reads hw fun core_dir hresolve => ?_
  obtain ⟨dir, hdir⟩ := resolve_exists hresolve
  obtain ⟨p, registered, hp⟩ := hw _ _ hdir
  exact hw.edit hdir ⟨hp.stored, hp.agent_config, hp.tool_registry⟩

lemma written_finishUpdate {patch : Dict} {now : ℤ} (hw : Written py s)
    (hdir : s (place core_dir) = some dir)
    (hq : Stored py q) (hreg : dir.tool_registry = registryOf registered) :
    Written py (perform (finishUpdate py place core_dir patch now q) s).2 := by
  refine written_check hw fun skills hskills => ?_
  rw [perform_writeConfig]
  exact hw.edit hdir ⟨hq.update q.uid q.tools now (patched_skills hq.skills hskills), rfl, hreg⟩

/-- Wherever the update raises, each of the two files is whole. -/
lemma written_updateAgent {patch : Dict} {now : ℤ} (hw : Written py s) :
    Written py (perform (updateAgent py place uid did patch now) s).2 := by
  refine written_profile hw fun core_dir dir p registered hdir hp => written_check hw fun _ _ =>
    written_check hw fun q hq => ?_
  obtain ⟨hstored, -⟩ := hp.stored.patchTexts hq
  cases hpatch : patch.lookup (.text "tools") with
  | none =>
    rw [patchTools_none hpatch, pure_bind]
    exact written_finishUpdate hw hdir hstored hp.tool_registry
  | some value =>
    cases hn : normalizeTools py value with
    | error e =>
      rw [patchTools, hpatch]
      dsimp only
      rw [bind_assoc]
      exact written_check hw fun tools htools => by rw [hn] at htools; cases htools
    | ok tools =>
      rw [perform_patchTools hpatch hn hdir]
      have hfiles : Files py { dir with tool_registry := registryOf tools } p tools :=
        ⟨hp.stored, hp.agent_config, rfl⟩
      exact written_finishUpdate (hw.update hfiles _) (Function.update_self _ _ _)
        (hstored.update q.uid tools q.updated_at hstored.skills) rfl

lemma written_createAgent {request : AgentCreateRequest} {token : HexToken} {now : ℤ} (hw : Written py s) :
    Written py (perform (createAgent py place request token now) s).2 := by
  cases hconfig : request.postInit py with
  | error e =>
    rw [createAgent, check, perform_reads_error hconfig]
    exact hw
  | ok config =>
    cases hs : s (place ⟨config.uid, config.didOr token⟩) with
    | some dir =>
      rw [createAgent_exists now hconfig hs]
      exact hw
    | none =>
      obtain ⟨dir, hp, hperform⟩ := createAgent_result now hconfig hs
      rw [hperform]
      exact hw.update (Files.of_holds hp) _

lemma written_deleteAgent (hw : Written py s) :
    Written py (perform (deleteAgent py place uid did) s).2 := by
  refine written_reads hw fun core_dir _ => ?_
  exact forall_update (P := fun dir => ∃ p registered, Files py dir p registered) hw (fun _ h => by cases h) _

omit [DecidableEq K] in
lemma written_discard {γ : Type} {c : Code K γ} (h : Written py (perform c s).2) :
    Written py (perform (c >>= fun _ => pure ()) s).2 := by
  rwa [perform_discard]

lemma written_move {e : Event} (hw : Written py s) : Written py (perform (e.exec py place) s).2 := by
  cases e with
  | call c =>
    cases c with
    | create_agent request token now => exact written_discard (written_createAgent hw)
    | update_agent uid did patch now => exact written_discard (written_updateAgent hw)
    | update_tool_registry uid did tools now => exact written_updateToolRegistry hw
    | bind_skill uid did skill_name now => exact written_bindSkill hw
    | unbind_skill uid did skill_name now => exact written_unbindSkill hw
    | write_core_file uid did filename content => exact written_writeCoreFile hw
  | delete_agent uid did => exact written_deleteAgent hw

lemma reachable_written (h : Reachable (move py place) (fun _ => none) s) : Written py s :=
  reachable_invariant (fun hw hstep => Option.some.inj hstep ▸ written_move hw) (fun _ _ hk => by cases hk) h

end Written

section Named

variable {K : Type} [DecidableEq K] {py : Builtins} {place : CoreDir → K} {s t : Store K} {c : Call}
  {core_dir : CoreDir} {before after : AgentDir} {p q : AgentProfile} {registered : Tools}
  {m : OrderedDict Group Bool}

omit [DecidableEq K] in
lemma onlyNamed_iff (hafter : Files py after q (overDefaults m))
    (htools : q.tools = overDefaults m) : OnlyNamed m before after ↔ UnnamedAtDefault m before := by
  have hdefault : ∀ g, m.get? g = none → overDefaults m g = DEFAULT_TOOL_ENABLEMENT g := by
    intro g hg
    rw [overDefaults, hg, Option.getD_none]
  constructor
  · intro h g hg
    obtain ⟨hconfig, hregistry⟩ := h.kept g hg
    rw [← hconfig, ← hregistry, hafter.inConfig, hafter.inRegistry, htools, hdefault g hg]
    exact ⟨rfl, rfl⟩
  · intro h
    constructor
    · intro g b hg
      rw [hafter.inConfig, hafter.inRegistry, htools, overDefaults, hg]
      exact ⟨rfl, rfl⟩
    · intro g hg
      obtain ⟨hconfig, hregistry⟩ := h g hg
      rw [hconfig, hregistry, hafter.inConfig, hafter.inRegistry, htools, hdefault g hg]
      exact ⟨rfl, rfl⟩

/-- A call with the map that returns leaves the map over the defaults in both files. -/
lemma taken (hw : Written py s) (hm : Takes m c) (h : perform (c.exec py place) s = (.ok (), t)) :
    ∃ core_dir before p registered after q, c.coreDir py = .ok core_dir ∧ s (place core_dir) = some before ∧
      Files py before p registered ∧ t = Function.update s (place core_dir) (some after) ∧
      Files py after q (overDefaults m) ∧ q.tools = overDefaults m := by
  have hn : normalizeTools py (mapValue m) = .ok (overDefaults m) := normalizeTools_mapValue m
  cases hm with
  | @update_agent uid did patch now hpatch =>
    obtain ⟨profile, h⟩ := of_perform_discard h
    obtain ⟨core_dir, hresolve, h⟩ := of_perform_reads h
    obtain ⟨p, hload, h⟩ := of_perform_reads h
    obtain ⟨_, -, h⟩ := of_perform_check h
    obtain ⟨q, hq, h⟩ := of_perform_check h
    obtain ⟨before, registered, hbefore, hp⟩ := hw.loaded hload
    obtain ⟨hstored, -⟩ := hp.stored.patchTexts hq
    rw [perform_patchTools hpatch hn hbefore] at h
    obtain ⟨skills, hskills, h⟩ := of_perform_check h
    rw [perform_writeConfig, edit_update] at h
    have ht := (Prod.mk.inj h).2.symm
    exact ⟨core_dir, before, p, registered, _, { q with tools := overDefaults m, skills, updated_at := now },
      (resolve_coreDir hresolve).1, hbefore, hp, ht,
      ⟨hstored.update _ _ _ (patched_skills hstored.skills hskills), rfl, rfl⟩, rfl⟩
  | @update_tool_registry uid did now =>
    have hcall := h
    obtain ⟨_, -, h⟩ := of_perform_check h
    obtain ⟨core_dir, hresolve, h⟩ := of_perform_reads h
    obtain ⟨p, hload, -⟩ := of_perform_reads h
    obtain ⟨before, registered, hbefore, hp⟩ := hw.loaded hload
    have ht := hcall.symm.trans (perform_updateToolRegistry hn hresolve hload hbefore)
    exact ⟨core_dir, before, p, registered, _, { p with tools := overDefaults m, updated_at := now },
      (resolve_coreDir hresolve).1, hbefore, hp, (Prod.mk.inj ht).2,
      Files.storing (hp.stored.update p.uid _ now hp.stored.skills) before, rfl⟩

theorem only_named_iff (hr : Reachable (move py place) (fun _ => none) s) (hm : Takes m c)
    (h : perform (c.exec py place) s = (.ok (), t)) :
    ∃ core_dir before after, c.coreDir py = .ok core_dir ∧ s (place core_dir) = some before ∧
      t = Function.update s (place core_dir) (some after) ∧
      (OnlyNamed m before after ↔ UnnamedAtDefault m before) := by
  obtain ⟨core_dir, before, p, registered, after, q, hcore, hbefore, hp, ht, hq, htools⟩ :=
    taken (reachable_written hr) hm h
  exact ⟨core_dir, before, after, hcore, hbefore, ht, onlyNamed_iff hq htools⟩

end Named

section Cases

def toolsCall (m : OrderedDict Group Bool) : Call := .update_tool_registry (.str "u1") (.str "DID-1") (mapValue m) 1

def commandsOff : OrderedDict Group Bool := ⟨[(.command_execution, false)], by simp⟩

def networkOff : OrderedDict Group Bool := ⟨[(.network_probe, false)], by simp⟩

def created : Store (String × String) := (perform ((Event.call creation).exec plain accounts) fun _ => none).2

/-- On an agent with the default groups a map changes what it names. -/
theorem default_agent_only_named :
    ∃ core_dir before after, (toolsCall commandsOff).coreDir plain = .ok core_dir ∧
      created (accounts core_dir) = some before ∧
      (perform ((toolsCall commandsOff).exec plain accounts) created).2 =
        Function.update created (accounts core_dir) (some after) ∧
      (OnlyNamed commandsOff before after ↔ UnnamedAtDefault commandsOff before) :=
  only_named_iff ⟨[.call creation], rfl⟩ .update_tool_registry (Prod.ext (by decide +kernel) rfl)

def restricted : Store (String × String) :=
  (perform ((Event.call (toolsCall commandsOff)).exec plain accounts) created).2

/-- Turning the network off turns commands on again. -/
theorem commands_enabled_again :
    Reachable (move plain accounts) (fun _ => none) restricted ∧
      (perform ((toolsCall networkOff).exec plain accounts) restricted).1 = .ok () ∧
      ∃ before after, restricted ("u1", "DID-1") = some before ∧
        (perform ((toolsCall networkOff).exec plain accounts) restricted).2 ("u1", "DID-1") = some after ∧
        ¬ OnlyNamed networkOff before after := by
  refine ⟨⟨[.call creation, .call (toolsCall commandsOff)], rfl⟩, by decide +kernel, ?_⟩
  obtain ⟨before, hbefore, hoff⟩ : ∃ before, restricted ("u1", "DID-1") = some before ∧
      (inConfig before .command_execution == some false) = true := (Option.any_eq_true _ _).mp (by decide +kernel)
  obtain ⟨after, hafter, hon⟩ : ∃ after,
      (perform ((toolsCall networkOff).exec plain accounts) restricted).2 ("u1", "DID-1") = some after ∧
      (inConfig after .command_execution == some true) = true := (Option.any_eq_true _ _).mp (by decide +kernel)
  refine ⟨before, after, hbefore, hafter, fun h => ?_⟩
  have hkept := (h.kept .command_execution rfl).1
  rw [beq_iff_eq.mp hoff, beq_iff_eq.mp hon] at hkept
  cases hkept

end Cases

end Patches

end OpsSentry.Agent.Manager
