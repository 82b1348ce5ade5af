import OpsSentry.Agent.MessageRouter

/-! When a routed message reaches every agent it mentions. All tasks of one message run the agent of
the last mention, and the first chunk ends a task. -/

namespace OpsSentry.Agent.MessageRouter

open Foundation.Runs Foundation.Strings Foundation.Values

def isRouted (content : PyStr) : Message → Bool
  | .user (.str s) => content = .text s
  | .user (.lone s) => content = .lone s
  | _ => false

/-- What the task of the agent did, once it has ended. -/
structure Served (content session_id : PyStr) (did : String) (t : Task) : Prop where
  routed_once : ∃ vm history, t.chat = some (vm, history) ∧ history.countP (isRouted content) = 1
  broadcast : t.broadcasts.map (fun b => (b.did, b.payload)) = t.yielded.map fun c => (did, mapChunk c)
  appended : t.appended = (t.yielded.filterMap message?).map (session_id, ·)
  entered : t.entries = t.yielded.map fun c => ⟨"agent_action", some (.action did (mapChunk c).type (mapChunk c))⟩

def runs (vm : VM) (t : Task) : Bool := t.chat.any (·.1 = vm)

/-- One task runs the agent of each mention. -/
def FansOut (uid : String) (content : PyStr) (s : State) : Prop :=
  ∀ (i : ℕ) did, (extractMentions content)[i]? = some did →
    ∃ t session_id, s.tasks.filter (runs ⟨uid, did⟩) = [t] ∧ s.sessions[i]? = some session_id ∧
      Served content session_id did t

section Tasks

variable {f : Frame} {t t' : Task} {m : Move}

/-- The entry of an `agent_action` is never made: the call raises, and that ends the task. -/
lemma record_cases (h : record f t = some t') : ∃ chunk, t.stage = .broadcasting chunk ∧
    t' = { t with
      stage := .ended
      appended := t.appended ++ (message? chunk).toList.map (f.session_id, ·) } := by
  rw [record] at h
  split at h
  · rename_i chunk hstage
    exact ⟨chunk, hstage, (Option.some.inj h).symm⟩
  · cases h

lemma move_cases (h : move f t m = some t') :
    (m = .begin ∧ t.stage = .created ∧ t' = { t with stage := .iterating, chat := some (f.vm, f.history) }) ∨
    (∃ chunk, m = .yield chunk ∧ t.stage = .iterating ∧ t' = { t with
      stage := .broadcasting chunk
      yielded := t.yielded ++ [chunk]
      broadcasts := t.broadcasts ++ [⟨f.target_did, f.session_id, mapChunk chunk⟩] }) ∨
    (∃ chunk, m = .record ∧ t.stage = .broadcasting chunk ∧ t' = { t with
      stage := .ended
      appended := t.appended ++ (message? chunk).toList.map (f.session_id, ·) }) ∨
    (∃ chunk, m = .fail ∧ t.stage = .broadcasting chunk ∧ t' = { t with stage := .ended }) ∨
    (m = .stop ∧ t.stage = .iterating ∧ t' = { t with stage := .ended }) := by
  cases m with
  | begin =>
    rw [move, begin] at h
    split at h
    · exact Or.inl ⟨rfl, ‹_›, (Option.some.inj h).symm⟩
    · cases h
  | yield chunk =>
    rw [move, yield] at h
    split at h
    · exact Or.inr (Or.inl ⟨chunk, rfl, ‹_›, (Option.some.inj h).symm⟩)
    · cases h
  | record =>
    obtain ⟨chunk, hstage, rfl⟩ := record_cases h
    exact Or.inr (Or.inr (Or.inl ⟨chunk, rfl, hstage, rfl⟩))
  | fail =>
    rw [move, fail] at h
    split at h
    · exact Or.inr (Or.inr (Or.inr (Or.inl ⟨_, rfl, ‹_›, (Option.some.inj h).symm⟩)))
    · cases h
  | stop =>
    rw [move, stop] at h
    split at h
    · exact Or.inr (Or.inr (Or.inr (Or.inr ⟨rfl, ‹_›, (Option.some.inj h).symm⟩)))
    · cases h

/-- A task has no variables of its own, and no ledger entry. -/
structure Closed (f : Frame) (t : Task) : Prop where
  idle : t.stage = .created → t.chat = none
  chat : t.stage ≠ .created → t.chat = some (f.vm, f.history)
  entries : t.entries = []

lemma Closed.move (h : Closed f t) (hm : move f t m = some t') : Closed f t' := by
  rcases move_cases hm with ⟨-, -, rfl⟩ | ⟨chunk, -, hstage, rfl⟩ | ⟨chunk, -, hstage, rfl⟩ | ⟨chunk, -, hstage, rfl⟩ |
    ⟨-, hstage, rfl⟩
  · exact ⟨nofun, fun _ => rfl, h.entries⟩
  all_goals exact ⟨nofun, fun _ => h.chat (by rw [hstage]; nofun), h.entries⟩

/-- Nothing was yielded, hence nothing passed on. -/
structure Quiet (t : Task) : Prop where
  stage : ∀ chunk, t.stage ≠ .broadcasting chunk
  yielded : t.yielded = []
  broadcasts : t.broadcasts = []
  appended : t.appended = []

lemma Quiet.move (h : Quiet t) (hquiet : ∀ chunk, m ≠ .yield chunk) (hm : move f t m = some t') : Quiet t' := by
  rcases move_cases hm with ⟨-, -, rfl⟩ | ⟨chunk, rfl, -, -⟩ | ⟨chunk, -, hstage, -⟩ | ⟨chunk, -, hstage, -⟩ | ⟨-, -, rfl⟩
  · exact ⟨fun _ => Stage.noConfusion, h.yielded, h.broadcasts, h.appended⟩
  · exact absurd rfl (hquiet chunk)
  · exact absurd hstage (h.stage chunk)
  · exact absurd hstage (h.stage chunk)
  · exact ⟨fun _ => Stage.noConfusion, h.yielded, h.broadcasts, h.appended⟩

lemma yielded_move (h : t.yielded ≠ [] ∨ ∃ chunk, m = .yield chunk) (hm : move f t m = some t') :
    t'.yielded ≠ [] := by
  have hkept : (∀ chunk, m ≠ .yield chunk) → t.yielded ≠ [] := fun hm => h.resolve_right fun ⟨chunk, h⟩ => hm chunk h
  rcases move_cases hm with ⟨rfl, -, rfl⟩ | ⟨chunk, -, -, rfl⟩ | ⟨chunk, rfl, -, rfl⟩ | ⟨chunk, rfl, -, rfl⟩ | ⟨rfl, -, rfl⟩
  · exact hkept nofun
  · exact List.append_ne_nil_of_right_ne_nil _ (List.cons_ne_nil _ _)
  · exact hkept nofun
  · exact hkept nofun
  · exact hkept nofun

end Tasks

section Runs

variable {f : Frame} {s s' : State} {a : ℕ × Move}

lemma step_cases (hs : s.frame = some f) (h : step s a = some s') : ∃ t t', s.tasks[a.1]? = some t ∧
    move f t a.2 = some t' ∧ s'.frame = some f ∧ s'.sessions = s.sessions ∧ s'.tasks = s.tasks.set a.1 t' := by
  rw [step, hs] at h
  cases ht : s.tasks[a.1]? with
  | none => simp [ht] at h
  | some t =>
    simp only [ht] at h
    obtain ⟨t', hm, rfl⟩ := Option.map_eq_some_iff.mp h
    exact ⟨t, t', rfl, hm, rfl, rfl, rfl⟩

/-- What holds of all tasks, if it does so at the start. -/
structure All (f : Frame) (sessions : List PyStr) (n : ℕ) (P : Task → Prop) (s : State) : Prop where
  frame : s.frame = some f
  sessions : s.sessions = sessions
  length : s.tasks.length = n
  all : ∀ t ∈ s.tasks, P t

variable {sessions : List PyStr} {n : ℕ} {P : Task → Prop} {C : Move → Prop} {labels : List (ℕ × Move)}

lemma All.run (hmove : ∀ {t m t'}, P t → C m → move f t m = some t' → P t') (h : All f sessions n P s)
    (hC : ∀ a ∈ labels, C a.2) (hrun : run step s labels = some s') : All f sessions n P s' := by
  induction labels generalizing s with
  | nil => exact Option.some.inj hrun ▸ h
  | cons a labels ih =>
    rw [List.forall_mem_cons] at hC
    obtain ⟨u, hu, hrun⟩ := run_cons.mp hrun
    obtain ⟨t, t', ht, hm, hframe, hsessions, htasks⟩ := step_cases h.frame hu
    refine ih ⟨hframe, hsessions.trans h.sessions, by rw [htasks, List.length_set, h.length], ?_⟩ hC.2 hrun
    intro r hr
    rw [htasks] at hr
    rcases List.mem_or_eq_of_mem_set hr with hr | rfl
    · exact h.all r hr
    · exact hmove (h.all t (List.mem_of_getElem? ht)) hC.1 hm

lemma yielded_step (hf : s.frame = some f)
    (h : (∃ t ∈ s.tasks, t.yielded ≠ []) ∨ ∃ chunk, a.2 = .yield chunk)
    (hs : step s a = some s') : ∃ t ∈ s'.tasks, t.yielded ≠ [] := by
  obtain ⟨t, t', ht, hm, -, -, htasks⟩ := step_cases hf hs
  have ht' : t' ∈ s'.tasks := by
    rw [htasks]
    exact List.mem_set (List.getElem?_eq_some_iff.mp ht).1 t'
  rcases h with ⟨r, hr, hyielded⟩ | hyield
  · obtain ⟨i, hi⟩ := List.mem_iff_getElem?.mp hr
    by_cases hia : a.1 = i
    · subst hia
      obtain rfl : t = r := Option.some.inj (ht.symm.trans hi)
      exact ⟨t', ht', yielded_move (Or.inl hyielded) hm⟩
    · refine ⟨r, List.mem_of_getElem? (i := i) ?_, hyielded⟩
      rw [htasks, List.getElem?_set_ne hia, hi]
  · exact ⟨t', ht', yielded_move (Or.inr hyield) hm⟩

lemma yielded_run (hf : s.frame = some f)
    (h : (∃ t ∈ s.tasks, t.yielded ≠ []) ∨ ∃ a ∈ labels, ∃ chunk, a.2 = .yield chunk)
    (hrun : run step s labels = some s') : ∃ t ∈ s'.tasks, t.yielded ≠ [] := by
  induction labels generalizing s with
  | nil =>
    obtain rfl := Option.some.inj hrun
    exact h.resolve_right (fun ⟨a, ha, _⟩ => nomatch ha)
  | cons a labels ih =>
    obtain ⟨u, hu, hrun⟩ := run_cons.mp hrun
    obtain ⟨-, -, -, -, hframe, -⟩ := step_cases hf hu
    refine ih hframe ?_ hrun
    rcases h with h | ⟨b, hb, hyield⟩
    · exact Or.inl (yielded_step hf (Or.inl h) hu)
    · rcases List.mem_cons.mp hb with rfl | hb
      · exact Or.inl (yielded_step hf (Or.inr hyield) hu)
      · exact Or.inr ⟨b, hb, hyield⟩

end Runs

section Routed

variable {uid : String} {session_id content sender_did : PyStr} {outside : Outside} {files : PyStr → History}

/-- Tasks that have not begun, with the variables of a round. -/
structure Fresh (s : State) : Prop where
  tasks : ∀ t ∈ s.tasks, t = {}
  frame : s.tasks ≠ [] → s.frame.isSome

lemma Fresh.routeTo {s : State} (h : Fresh s) (did : String) :
    Fresh (reached (routeTo uid session_id content outside s did)) := by
  have hframe : ∀ g : Frame → Frame, s.tasks ≠ [] → (s.frame.map g).isSome := by
    intro g hne
    rw [Option.isSome_map]
    exact h.frame hne
  rw [MessageRouter.routeTo]
  rcases outside.fault s.tasks.length with _ | fault
  · rcases content.encode with e | t
    · exact ⟨h.tasks, fun _ => rfl⟩
    · refine ⟨fun t ht => ?_, fun _ => rfl⟩
      rcases List.mem_append.mp ht with ht | ht
      · exact h.tasks t ht
      · exact List.mem_singleton.mp ht
  · cases fault with
    | append => exact ⟨h.tasks, fun _ => rfl⟩
    | _ => exact ⟨h.tasks, hframe _⟩

lemma Fresh.routeAll {s : State} (h : Fresh s) (mentions : List String) :
    Fresh (reached (mentions.foldlM (MessageRouter.routeTo uid session_id content outside) s)) := by
  induction mentions generalizing s with
  | nil => exact h
  | cons did mentions ih =>
    have hround : Fresh (reached (MessageRouter.routeTo uid session_id content outside s did)) := h.routeTo did
    rw [List.foldlM_cons]
    cases hto : MessageRouter.routeTo uid session_id content outside s did with
    | error u =>
      rw [hto] at hround
      exact hround
    | ok u =>
      rw [hto] at hround
      exact ih hround

lemma fresh_routeMessage : Fresh (routeMessage uid session_id content outside sender_did files) := by
  have hempty : ∀ ledger, Fresh ⟨files, ledger, [], none, []⟩ := fun ledger => ⟨nofun, fun h => absurd rfl h⟩
  rw [routeMessage]
  split
  · exact (hempty _).routeAll _
  · exact hempty []

variable {labels : List (ℕ × Move)} {s : State}

/-- A task has the variables of a round. -/
lemma exists_frame (hrun : run step (routeMessage uid session_id content outside sender_did files) labels = some s)
    (h : s.tasks ≠ []) : ∃ f, (routeMessage uid session_id content outside sender_did files).frame = some f := by
  have hfresh : Fresh (routeMessage uid session_id content outside sender_did files) := fresh_routeMessage
  generalize routeMessage uid session_id content outside sender_did files = r at hrun hfresh
  cases labels with
  | nil =>
    obtain rfl := Option.some.inj hrun
    exact Option.isSome_iff_exists.mp (hfresh.frame h)
  | cons a labels =>
    obtain ⟨u, hu, -⟩ := run_cons.mp hrun
    rw [step] at hu
    split at hu
    · rename_i f _ hf _
      exact ⟨f, hf⟩
    · cases hu

lemma run_all {f : Frame} {P : Task → Prop} {C : Move → Prop}
    (hf : (routeMessage uid session_id content outside sender_did files).frame = some f)
    (hrun : run step (routeMessage uid session_id content outside sender_did files) labels = some s) (hP : P {})
    (hmove : ∀ {t m t'}, P t → C m → move f t m = some t' → P t') (hC : ∀ a ∈ labels, C a.2) :
    All f (routeMessage uid session_id content outside sender_did files).sessions
      (routeMessage uid session_id content outside sender_did files).tasks.length P s := by
  refine All.run hmove ⟨hf, rfl, rfl, fun t ht => ?_⟩ hC hrun
  rw [fresh_routeMessage.tasks t ht]
  exact hP

lemma closed_run {f : Frame} (hf : (routeMessage uid session_id content outside sender_did files).frame = some f)
    (hrun : run step (routeMessage uid session_id content outside sender_did files) labels = some s) :
    All f (routeMessage uid session_id content outside sender_did files).sessions
      (routeMessage uid session_id content outside sender_did files).tasks.length (Closed f) s :=
  run_all (C := fun _ => True) hf hrun ⟨fun _ => rfl, fun h => absurd rfl h, rfl⟩ (fun h _ hm => h.move hm) fun _ _ => trivial

/-- The agent of a mention is that of the one VM that all tasks run. -/
lemma mention_of_fansOut (hrun : run step (routeMessage uid session_id content outside sender_did files) labels = some s)
    (h : FansOut uid content s) : ∃ vm : VM, ∀ did ∈ extractMentions content, did = vm.did := by
  have hruns : ∀ did ∈ extractMentions content, ∃ t ∈ s.tasks, runs ⟨uid, did⟩ t = true := by
    intro did hdid
    obtain ⟨i, hi⟩ := List.mem_iff_getElem?.mp hdid
    obtain ⟨t, id, hruns, -, -⟩ := h i did hi
    exact ⟨t, List.mem_filter.mp (hruns ▸ List.mem_singleton_self t)⟩
  by_cases htasks : s.tasks = []
  · refine ⟨⟨"", ""⟩, fun did hdid => ?_⟩
    obtain ⟨t, ht, -⟩ := hruns did hdid
    rw [htasks] at ht
    cases ht
  · obtain ⟨f, hf⟩ := exists_frame hrun htasks
    refine ⟨f.vm, fun did hdid => ?_⟩
    obtain ⟨t, ht, hran⟩ := hruns did hdid
    have hclosed := (closed_run hf hrun).all t ht
    have hchat : t.chat = some (f.vm, f.history) := by
      apply hclosed.chat
      intro hidle
      rw [runs, hclosed.idle hidle] at hran
      cases hran
    rw [runs, hchat] at hran
    have hvm : f.vm = ⟨uid, did⟩ := of_decide_eq_true hran
    rw [hvm]

lemma single_of_fansOut (hmentions : extractMentions content ≠ [])
    (hdistinct : (extractMentions content).Nodup)
    (hrun : run step (routeMessage uid session_id content outside sender_did files) labels = some s)
    (h : FansOut uid content s) : ∃ did, extractMentions content = [did] := by
  obtain ⟨vm, hall⟩ := mention_of_fansOut hrun h
  generalize extractMentions content = mentions at hmentions hdistinct hall
  match mentions with
  | [] => exact absurd rfl hmentions
  | [did] => exact ⟨did, rfl⟩
  | first :: second :: _ =>
    have hfirst := hall first List.mem_cons_self
    have hsecond := hall second (List.mem_cons_of_mem _ List.mem_cons_self)
    rw [hfirst, hsecond] at hdistinct
    simp at hdistinct

/-- The call makes the task of its only mention. -/
structure Prepared (content : PyStr) (outside : Outside) : Prop where
  entered : outside.entered = true
  fault : outside.fault 0 = none
  encodable : ∃ text : String, content = text

lemma routeMessage_single (uid : String) (session_id sender_did : PyStr) (files : PyStr → History) {did : String}
    (h : extractMentions content = [did]) (hprepared : Prepared content outside) :
    let id := sessionIdOf uid did session_id (outside.clock 0)
    let r := routeMessage uid session_id content outside sender_did files
    r.frame = some ⟨did, ⟨uid, did⟩, id, loadHistory (files id) ++ [.user (.ofStr content)]⟩ ∧
      r.sessions = [id] ∧ r.tasks.length = 1 := by
  obtain ⟨hentered, hfault, text, rfl⟩ := hprepared
  rw [routeMessage, h, if_pos hentered, List.foldlM_cons, routeTo, List.length_nil, hfault]
  exact ⟨rfl, rfl, rfl⟩

lemma prepared_of_task {did : String} (h : extractMentions content = [did])
    (htasks : (routeMessage uid session_id content outside sender_did files).tasks ≠ []) : Prepared content outside := by
  rw [routeMessage, h] at htasks
  split at htasks
  · rename_i hentered
    rw [List.foldlM_cons, routeTo, List.length_nil] at htasks
    rcases hfault : outside.fault 0 with _ | fault
    · rcases content with text | s
      · exact ⟨hentered, hfault, text, rfl⟩
      · rw [hfault] at htasks
        exact absurd rfl htasks
    · rw [hfault] at htasks
      cases fault <;> exact absurd rfl htasks
  · exact absurd rfl htasks

lemma countP_routed (history : List Message) :
    (history ++ [Message.user (.ofStr content)]).countP (isRouted content) = history.countP (isRouted content) + 1 := by
  cases content <;> simp [List.countP_append, isRouted, Value.ofStr]

/-- What the one agent has done once it has ended. -/
lemma conditions_of_fansOut {did : String} (hdid : extractMentions content = [did])
    (hrun : run step (routeMessage uid session_id content outside sender_did files) labels = some s)
    (hended : ∀ t ∈ s.tasks, t.stage = .ended) (h : FansOut uid content s) : Prepared content outside ∧
      (loadHistory (files (sessionIdOf uid did session_id (outside.clock 0)))).countP (isRouted content) = 0 ∧
      ∀ a ∈ labels, ∀ chunk, a.2 ≠ .yield chunk := by
  obtain ⟨t, id, hruns, -, hserved⟩ := h 0 did (by rw [hdid]; rfl)
  have ht : t ∈ s.tasks := (List.mem_filter.mp (hruns ▸ List.mem_singleton_self t)).1
  obtain ⟨f, hf⟩ := exists_frame hrun (List.ne_nil_of_mem ht)
  have hclosed := closed_run hf hrun
  have hchat := (hclosed.all t ht).chat (by rw [hended t ht]; nofun)
  have htasks : (routeMessage uid session_id content outside sender_did files).tasks ≠ [] := by
    rw [← List.length_pos_iff, ← hclosed.length]
    exact List.length_pos_of_mem ht
  have hprepared := prepared_of_task hdid htasks
  obtain ⟨hframe, -, hlength⟩ := routeMessage_single uid session_id sender_did files hdid hprepared
  refine ⟨hprepared, ?_, fun a ha chunk hyield => ?_⟩
  · obtain ⟨vm, history, hran, hcount⟩ := hserved.routed_once
    rw [hf] at hframe
    rw [hchat, Option.some.inj hframe] at hran
    cases hran
    rw [countP_routed] at hcount
    omega
  · obtain ⟨r, hr, hyielded⟩ := yielded_run hf (Or.inr ⟨a, ha, chunk, hyield⟩) hrun
    obtain ⟨u, hu⟩ := List.length_eq_one_iff.mp (hclosed.length.trans hlength)
    rw [hu, List.mem_singleton] at hr ht
    obtain rfl : r = t := hr.trans ht.symm
    have hentered := hserved.entered
    rw [(hclosed.all r (hu ▸ hr ▸ List.mem_singleton_self _)).entries] at hentered
    exact hyielded (List.map_eq_nil_iff.mp hentered.symm)

lemma fansOut_of_conditions {did : String} (hdid : extractMentions content = [did])
    (hrun : run step (routeMessage uid session_id content outside sender_did files) labels = some s)
    (hended : ∀ t ∈ s.tasks, t.stage = .ended) (hprepared : Prepared content outside)
    (hcount : (loadHistory (files (sessionIdOf uid did session_id (outside.clock 0)))).countP (isRouted content) = 0)
    (hquiet : ∀ a ∈ labels, ∀ chunk, a.2 ≠ .yield chunk) : FansOut uid content s := by
  obtain ⟨hf, hsessions, hlength⟩ := routeMessage_single uid session_id sender_did files hdid hprepared
  have hclosed := closed_run hf hrun
  have hsilent := run_all (P := Quiet) (C := fun m => ∀ chunk, m ≠ .yield chunk) hf hrun ⟨nofun, rfl, rfl, rfl⟩
    (fun h hm hmove => h.move hm hmove) hquiet
  obtain ⟨t, ht⟩ := List.length_eq_one_iff.mp (hclosed.length.trans hlength)
  have hmem : t ∈ s.tasks := ht ▸ List.mem_singleton_self t
  have hchat := (hclosed.all t hmem).chat (by rw [hended t hmem]; nofun)
  intro i d hi
  rw [hdid] at hi
  obtain ⟨rfl, rfl⟩ : i = 0 ∧ did = d := by
    cases i with
    | zero => exact ⟨rfl, Option.some.inj hi⟩
    | succ i => cases hi
  refine ⟨t, _, ?_, by rw [hclosed.sessions, hsessions]; rfl, ⟨_, _, hchat, ?_⟩, ?_, ?_, ?_⟩
  · have hran : runs ⟨uid, did⟩ t = true := by
      rw [runs, hchat]
      exact decide_eq_true rfl
    rw [ht, List.filter_cons_of_pos hran, List.filter_nil]
  · rw [countP_routed, hcount]
  · rw [(hsilent.all t hmem).broadcasts, (hsilent.all t hmem).yielded]
    rfl
  · rw [(hsilent.all t hmem).appended, (hsilent.all t hmem).yielded]
    rfl
  · rw [(hclosed.all t hmem).entries, (hsilent.all t hmem).yielded]
    rfl

/-- A routed message reaches the agents as it should exactly if it mentions one, if nothing raises before
the task of that agent is made, if it yields nothing, and if the messages loaded from its session do not
have the same text. -/
theorem fansOut_iff (hmentions : extractMentions content ≠ []) (hdistinct : (extractMentions content).Nodup)
    (hrun : run step (routeMessage uid session_id content outside sender_did files) labels = some s)
    (hended : ∀ t ∈ s.tasks, t.stage = .ended) :
    FansOut uid content s ↔
      (∃ did, extractMentions content = [did] ∧ Prepared content outside ∧
        (loadHistory (files (sessionIdOf uid did session_id (outside.clock 0)))).countP (isRouted content) = 0) ∧
      ∀ a ∈ labels, ∀ chunk, a.2 ≠ .yield chunk := by
  constructor
  · intro h
    obtain ⟨did, hdid⟩ := single_of_fansOut hmentions hdistinct hrun h
    obtain ⟨hprepared, hcount, hquiet⟩ := conditions_of_fansOut hdid hrun hended h
    exact ⟨⟨did, hdid, hprepared, hcount⟩, hquiet⟩
  · rintro ⟨⟨did, hdid, hprepared, hcount⟩, hquiet⟩
    exact fansOut_of_conditions hdid hrun hended hprepared hcount hquiet

end Routed

section Samples

def ended (t : Task) : Bool :=
  match t.stage with
  | .ended => true
  | _ => false

/-- Nothing raises. -/
def healthy : Outside := ⟨true, fun _ => none, fun _ => 0⟩

lemma exists_complete (uid session_id content sender_did : String) (labels : List (ℕ × Move))
    (h : (run step (routeMessage uid session_id content healthy sender_did fun _ => []) labels).any
      (·.tasks.all ended) = true) :
    ∃ s, run step (routeMessage uid session_id content healthy sender_did fun _ => []) labels = some s ∧
      ∀ t ∈ s.tasks, t.stage = .ended := by
  obtain ⟨s, hs, hp⟩ := exists_of_run_any step _ _ _ h
  refine ⟨s, hs, fun t ht => ?_⟩
  have hstage := List.all_eq_true.mp hp t ht
  rw [ended] at hstage
  split at hstage
  · rename_i hended
    exact hended
  · cases hstage

/-- One mention, in a new session, of an agent that yields nothing. -/
theorem silent_agent_fans_out : ∃ s,
    run step (routeMessage "u1" "s1" "@DID-1234ABCD-00FF00 status?" healthy "dev-1" fun _ => [])
      [(0, .begin), (0, .stop)] = some s ∧ FansOut "u1" "@DID-1234ABCD-00FF00 status?" s := by
  have hmentions : extractMentions "@DID-1234ABCD-00FF00 status?" = ["@DID-1234ABCD-00FF00"] := by decide +kernel
  obtain ⟨s, hs, hended⟩ := exists_complete "u1" "s1" "@DID-1234ABCD-00FF00 status?" "dev-1"
    [(0, .begin), (0, .stop)] (by decide +kernel)
  refine ⟨s, hs, (fansOut_iff (by rw [hmentions]; nofun) (by rw [hmentions]; decide) hs
    hended).mpr ⟨⟨_, hmentions, ⟨rfl, rfl, _, rfl⟩, rfl⟩, ?_⟩⟩
  simp

/-- Both tasks run the second agent. -/
theorem first_agent_never_runs : ¬ ∀ (uid : String) (session_id content sender_did : PyStr) (outside : Outside)
    (files : PyStr → History) (labels : List (ℕ × Move)) (s : State),
    extractMentions content ≠ [] → (extractMentions content).Nodup →
    run step (routeMessage uid session_id content outside sender_did files) labels = some s →
    (∀ t ∈ s.tasks, t.stage = .ended) → FansOut uid content s := by
  intro h
  have hmentions : extractMentions "@DID-1234ABCD-00FF00 and @DID-1234ABCD-00FF01" =
      ["@DID-1234ABCD-00FF00", "@DID-1234ABCD-00FF01"] := by decide +kernel
  have hne : extractMentions "@DID-1234ABCD-00FF00 and @DID-1234ABCD-00FF01" ≠ [] := by
    rw [hmentions]
    nofun
  have hnodup : (extractMentions "@DID-1234ABCD-00FF00 and @DID-1234ABCD-00FF01").Nodup := by
    rw [hmentions]
    decide
  obtain ⟨s, hs, hended⟩ := exists_complete "u1" "s1" "@DID-1234ABCD-00FF00 and @DID-1234ABCD-00FF01" "dev-1"
    [(0, .begin), (1, .begin), (0, .yield .done), (1, .stop), (0, .record)] (by decide +kernel)
  obtain ⟨did, hdid⟩ := single_of_fansOut hne hnodup hs (h _ _ _ _ _ _ _ s hne hnodup hs hended)
  rw [hmentions] at hdid
  cases hdid

end Samples

end OpsSentry.Agent.MessageRouter
