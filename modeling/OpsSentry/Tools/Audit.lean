import OpsSentry.Tools.Registry

/-! Runs of `ToolRegistry.dispatch` on one ledger: the calls that were made, the commands that
the sandbox ran, and the rows of the ledger. -/

namespace OpsSentry.Tools.Audit

open Foundation.Programs Foundation.Runs Foundation.Strings Foundation.Values Ledger

/-- A call of a shell tool that is not disabled, with a string command. -/
structure ShellCall (r : ToolRegistry) where
  tool_name : String
  args : Dict
  command : String
  shell : tool_name = "bash" ∨ tool_name = "process"
  enabled : r.disabled tool_name = false
  given : (args.lookup (.text "command")).getD (.str "") = .str command

abbrev Ran := Execution × Except Exc SandboxResult

structure World (r : ToolRegistry) where
  ledger : Ledger.World
  executed : List Ran
  dispatched : List (ShellCall r × Except Exc Outcome)
  busy : Bool

structure Oracle where
  ledger : Ledger.Oracle := {}
  outcome : Except Exc SandboxResult := .error (.sandbox "")

variable {r : ToolRegistry}

/-- A new id that is already taken would make `create_entry` fail. -/
def collides (o : Oracle) (w : World r) : Ledger.Command → Bool
  | .uuid4 => (w.ledger.table.find? o.ledger.uuid).isSome
  | _ => false

def exec (o : Oracle) (w : World r) : (c : Command) → Option (World r × Reply c)
  | .ledger c =>
    if collides o w c then none
    else (Ledger.exec 0 o.ledger w.ledger c).map fun x => ({ w with ledger := x.1 }, x.2)
  | .execute x => some ({ w with executed := w.executed ++ [(x, o.outcome)] }, o.outcome)

def toolCalls (r : ToolRegistry) : Service Host Unit (World r) (ShellCall r) Oracle Empty Exc Outcome where
  body _ c := r.dispatch c.tool_name c.args
  exec _ := exec
  enter _ _ w := if w.busy then none else some { w with busy := true }
  leave _ c x w := { w with dispatched := w.dispatched ++ [(c, x)], busy := false }
  crash _ _ := none
  environment e _ := e.elim

structure Trace (r : ToolRegistry) where
  call : ShellCall r
  returned : Except Exc Outcome
  row : LedgerEntry
  ran : Option Ran

def Refused (row : LedgerEntry) (c : ShellCall r) (action reason : String) : Prop :=
  row.status = .pending ∧ row.action = action ∧
    row.metadata = ([("tool", .str c.tool_name), ("command", .str c.command), ("reason", .str reason)] : Dict)

def Settled (row : LedgerEntry) (returned : Except Exc Outcome) : Except Exc SandboxResult → Prop
  | .ok result => row.status = .completed ∧ row.checkpoint = result.toAuditRecord ∧
      returned = .ok (.finished result (ToolRegistry.permissionDenied result))
  | .error e => row.status = .failed ∧ row.last_error = some e.text ∧ returned = .ok (.failed e.text)

def Allowed (r : ToolRegistry) (command : String) : Prop :=
  isGloballyDenied command = false ∧ requiresApproval r.cwd command = false

/-- The sandbox ran the command of the row, and the row says how that ended. -/
def Executed (row : LedgerEntry) (c : ShellCall r) (returned : Except Exc Outcome) (ran : Option Ran) :
    Prop :=
  ∃ outcome, ran = some (ToolRegistry.executionOf c.command c.args, outcome) ∧
    row.action = "sandbox_exec" ∧ row.metadata = ([("tool", .str "bash"), ("command", .str c.command)] : Dict) ∧
    Settled row returned outcome

def Trace.Sound (a : Trace r) : Prop :=
  if isGloballyDenied a.call.command then
    a.ran = none ∧ Refused a.row a.call "tool_policy_blocked" "L1 Global Deny" ∧
      a.returned = .ok (.blocked "Security Violation: L1 Policy")
  else if requiresApproval r.cwd a.call.command then
    a.ran = none ∧ Refused a.row a.call "approval_required" "L3 Path Approval" ∧
      a.returned = .ok (.pendingApproval a.row.id)
  else Executed a.row a.call a.returned a.ran

/-- What came after `w₀`: the traces of the calls that returned, then `added` and `rans` of one
that has not. -/
structure Accounts (w₀ w : World r) (traces : List (Trace r)) (added : List LedgerEntry) (rans : List Ran) :
    Prop where
  dispatched : w.dispatched = w₀.dispatched ++ traces.map fun a => (a.call, a.returned)
  rows : w.ledger.table.rows = w₀.ledger.table.rows ++ traces.map Trace.row ++ added
  executed : w.executed = w₀.executed ++ traces.filterMap Trace.ran ++ rans
  sound : ∀ a ∈ traces, a.Sound
  allowed : ∀ x ∈ rans, Allowed r x.1.command
  one : added.length ≤ 1 ∧ rans.length ≤ added.length

def Complete (w₀ w : World r) : Prop := ∃ traces, Accounts w₀ w traces [] []

def Inv (w₀ w : World r) : Prop :=
  ∃ traces added rans, Accounts w₀ w traces added rans ∧ (w.busy = false → added = [] ∧ rans = [])

structure Mid (b : World r) (added : List LedgerEntry) (rans : List Ran) (w : World r) : Prop where
  dispatched : w.dispatched = b.dispatched
  rows : w.ledger.table.rows = b.ledger.table.rows ++ added
  executed : w.executed = b.executed ++ rans
  busy : w.busy = true
  allowed : ∀ x ∈ rans, Allowed r x.1.command
  one : added.length ≤ 1 ∧ rans.length ≤ added.length

variable {w₀ b w : World r} {added : List LedgerEntry} {rans : List Ran}

lemma Mid.inv (hb : Complete w₀ b) (hm : Mid b added rans w) : Inv w₀ w := by
  obtain ⟨traces, ha⟩ := hb
  refine ⟨traces, added, rans, ?_, fun hw => absurd hw (by simp [hm.busy])⟩
  constructor
  · rw [hm.dispatched, ha.dispatched]
  · rw [hm.rows, ha.rows, List.append_nil]
  · rw [hm.executed, ha.executed, List.append_nil]
  · exact ha.sound
  · exact hm.allowed
  · exact hm.one

/-- Calls run one at a time: nothing moves between the commands of one. -/
def contract (w₀ : World r) : Contract Host Unit (World r) (ShellCall r) where
  Inv := Inv w₀
  Rely _ s t := s = t
  Guard _ _ _ := True
  Pre _ _ w := Complete w₀ w ∧ w.busy = true
  refl _ _ := rfl
  trans h h' := h.trans h'

lemma yields {t : World r} (h : Inv w₀ t) : (contract w₀).Yields () w t :=
  ⟨h, fun a ha => absurd (Subsingleton.elim a ()) ha⟩

variable {β : Type} {J : World r → Prop} {Q : Except Exc β → World r → Prop}

abbrev wp (w₀ : World r) (J : World r → Prop) (Q : Except Exc β → World r → Prop) (q : Code β)
    (w : World r) : Prop :=
  (contract w₀).wp (toolCalls r) () J Q q w

lemma wp_execute {x : Execution} {Q : Except Exc (Except Exc SandboxResult) → World r → Prop}
    {e : LedgerEntry} (hb : Complete w₀ b) (hm : Mid b [e] [] w) (hx : Allowed r x.command)
    (hQ : ∀ outcome w', Mid b [e] [(x, outcome)] w' → Q (.ok outcome) w') : wp w₀ J Q (execute x) w := by
  rintro t rfl - - o w' y hw
  cases hw
  have hm' : Mid b [e] [(x, o.outcome)] { w with executed := w.executed ++ [(x, o.outcome)] } :=
    { hm with
      executed := by simp [hm.executed]
      allowed := by simpa using hx
      one := by simp }
  exact ⟨yields (hm'.inv hb), hQ o.outcome _ hm'⟩

lemma wp_ledger_call {α : Type} {c : Ledger.Command} {k : Ledger.Reply c → Ledger.Code α}
    {Q : Except Exc α → World r → Prop}
    (h : ∀ o l y, collides o w c = false → Ledger.exec 0 o.ledger w.ledger c = some (l, y) →
      Inv w₀ { w with ledger := l } ∧ wp w₀ J Q (ledger (k y)) { w with ledger := l }) :
    wp w₀ J Q (ledger (.call c k)) w := by
  rintro t rfl - - o w' y hw
  change (if collides o w c then none
    else (Ledger.exec 0 o.ledger w.ledger c).map fun x => ({ w with ledger := x.1 }, x.2)) = _ at hw
  split at hw
  · cases hw
  · rename_i hc
    obtain ⟨⟨l, y'⟩, hl, heq⟩ := Option.map_eq_some_iff.mp hw
    cases heq
    obtain ⟨hi, hk⟩ := h o l y' (by simpa using hc) hl
    exact ⟨yields hi, hk⟩

lemma Mid.ledger {added' : List LedgerEntry} (hm : Mid b added rans w) {l : Ledger.World}
    (hl : l.table.rows = b.ledger.table.rows ++ added') (hlen : added'.length ≤ 1)
    (hran : rans.length ≤ added'.length) : Mid b added' rans { w with ledger := l } :=
  { hm with
    rows := hl
    one := ⟨hlen, hran⟩ }

section LedgerCalls

variable {α : Type} {Q : Except Exc α → World r → Prop}

lemma wp_uuid4 {k : PyStr → Ledger.Code α} (hb : Complete w₀ b) (hm : Mid b added rans w)
    (h : ∀ i : String, w.ledger.table.find? i = none → wp w₀ J Q (ledger (k i)) w) :
    wp w₀ J Q (ledger (uuid4 >>= k)) w := by
  apply wp_ledger_call
  intro o l y hc hl
  cases hl
  refine ⟨hm.inv hb, h _ ?_⟩
  simpa [collides] using hc

lemma wp_utcMs {k : ℤ → Ledger.Code α} (hb : Complete w₀ b) (hm : Mid b added rans w)
    (h : ∀ z : Int64, wp w₀ J Q (ledger (k z.toInt)) w) : wp w₀ J Q (ledger (utcMs >>= k)) w := by
  apply wp_ledger_call
  intro o l y hc hl
  cases hl
  exact ⟨hm.inv hb, h _⟩

lemma wp_get {i : String} {k : Option LedgerEntry → Ledger.Code α} (hb : Complete w₀ b)
    (hm : Mid b added rans w) (h : wp w₀ J Q (ledger (k ((w.ledger.table.find? i).map Table.rowToEntry))) w) :
    wp w₀ J Q (ledger (Ledger.get i >>= k)) w := by
  apply wp_ledger_call
  intro o l y hc hl
  cases hl
  exact ⟨hm.inv hb, h⟩

lemma wp_append {e : LedgerEntry} {k : Unit → Ledger.Code α} (hb : Complete w₀ b)
    (hm : Mid b [] [] w) (hfree : w.ledger.table.find? e.id = none) (hrow : e.Storable)
    (h : ∀ w', Mid b [e] [] w' → wp w₀ J Q (ledger (k ())) w') :
    wp w₀ J Q (ledger (Ledger.append e >>= k)) w := by
  apply wp_ledger_call
  intro o l y hc hl
  obtain ⟨t, ht, hinsert⟩ := Table.append_free hfree hrow
  simp only [Ledger.exec, ht] at hl
  cases hl
  have hrows : t.rows = b.ledger.table.rows ++ [e] := by
    rw [Table.insert_rows hinsert, hm.rows, List.append_nil]
  have hm' := hm.ledger (l := w.ledger.write 0 (.append e) e.id t true) hrows (by simp) (by simp)
  exact ⟨hm'.inv hb, h _ hm'⟩

lemma wp_update {e : LedgerEntry} {status : Status} {updated_at : ℤ} {checkpoint : Option Dict}
    {error : Option String} {k : Bool → Ledger.Code α} (hb : Complete w₀ b)
    (hm : Mid b [e] rans w) (he : Edge e.status status) (hc : checkpoint.bind refusedDict = none)
    (ht : int64 updated_at = true)
    (h : ∀ w', Mid b [Table.assign (transitionUpdates status updated_at checkpoint error) e] rans w' →
      wp w₀ J Q (ledger (k true)) w') :
    wp w₀ J Q (ledger (Ledger.update e.id (transitionUpdates status updated_at checkpoint (error.map .text))
      (some (allowedOldStatuses status)) >>= k)) w := by
  apply wp_ledger_call
  intro o l y hfree hl
  obtain ⟨t, ht, hrows⟩ := transition_last ht error hm.rows he hc
  simp only [Ledger.exec, ht] at hl
  cases hl
  have hm' : ∀ l : Ledger.World, l.table = t → Mid b [Table.assign _ e] rans { w with ledger := l } :=
    fun l hl => hm.ledger (hl ▸ hrows) (by simp) hm.one.2
  exact ⟨(hm' _ rfl).inv hb, h _ (hm' _ rfl)⟩

end LedgerCalls

lemma Mid.find? {e : LedgerEntry} (hm : Mid b [e] rans w) : w.ledger.table.find? e.id = some e :=
  Table.find?_last hm.rows

lemma wp_createEntry {action : String} {metadata : Dict} {Q : Except Exc LedgerEntry → World r → Prop}
    (hb : Complete w₀ b) (hm : Mid b [] [] w) (hmeta : refusedDict metadata = none)
    (hQ : ∀ e w', Mid b [e] [] w' → e.status = .pending → e.action = action → e.metadata = metadata →
      Q (.ok e) w') : wp w₀ J Q (ToolRegistry.createEntry action metadata) w := by
  apply wp_uuid4 hb hm
  intro i hfree
  apply wp_get hb hm
  rw [hfree]
  apply wp_utcMs hb hm
  intro created_at
  apply wp_utcMs hb hm
  intro updated_at
  let row : LedgerEntry :=
    { id := i, action, status := .pending, checkpoint := [], created_at := created_at.toInt,
      updated_at := updated_at.toInt, accio_ref := none, metadata, last_error := none }
  have hrow : row.Storable := ⟨hmeta, int64_toInt _, int64_toInt _⟩
  apply wp_append (e := row) hb hm hfree hrow
  intro w' hm'
  apply wp_get (i := row.id) hb hm'
  rw [hm'.find?]
  exact hQ _ w' hm' rfl rfl rfl

lemma wp_transitionTo {e : LedgerEntry} {status : Status} {checkpoint : Option Dict}
    {Q : Except Exc LedgerEntry → World r → Prop} (error : Option String) (hb : Complete w₀ b)
    (hm : Mid b [e] rans w) (he : Edge e.status status) (hc : checkpoint.bind refusedDict = none)
    (hQ : ∀ z v w', Mid b [Table.assign (transitionUpdates status z checkpoint error) e] rans w' →
      Q (.ok v) w') : wp w₀ J Q (ledger (transitionTo e.id status checkpoint (error.map .text))) w := by
  apply wp_utcMs hb hm
  intro z
  apply wp_update hb hm he hc (int64_toInt z)
  intro w' hm'
  have hid : (Table.assign (transitionUpdates status z.toInt checkpoint error) e).id = e.id := by
    rw [← setFields_transitionUpdates]
    exact (Table.assign_id (Table.setFields_mutable _) e).1
  have hrow := hm'.find?
  rw [hid] at hrow
  apply wp_get hb hm'
  rw [hrow]
  exact hQ z.toInt _ w' hm'

/-- How the call `c` ends whose trace is `row` and `ran`. -/
def Leaves (c : ShellCall r) (b : World r) (x : Except Exc Outcome) (w : World r) : Prop :=
  ∃ row ran, Mid b [row] ran.toList w ∧ (⟨c, x, row, ran⟩ : Trace r).Sound

lemma wp_runSandboxed {x : Execution} {e : LedgerEntry} {Q : Except Exc Outcome → World r → Prop}
    (hb : Complete w₀ b) (hm : Mid b [e] [] w) (hx : Allowed r x.command) (he : e.status = .running)
    (hok : ∀ z result w', Mid b [Table.assign (transitionUpdates .completed z
      (some result.toAuditRecord) none) e] [(x, .ok result)] w' →
        Q (.ok (.finished result (ToolRegistry.permissionDenied result))) w')
    (herr : ∀ e' w', Mid b [e] [(x, .error e')] w' → Q (.error e') w') :
    wp w₀ J Q (ToolRegistry.runSandboxed x e.id) w := by
  apply Contract.wp_bind
  apply wp_execute hb hm hx
  rintro (e' | result) w' hm'
  · exact herr e' w' hm'
  · have hcode : markCompleted e.id (some result.toAuditRecord) =
        transitionTo e.id .completed (some result.toAuditRecord) none :=
      transition_text e.id .completed _ none
    change wp w₀ J Q (ledger (markCompleted e.id (some result.toAuditRecord)) >>= fun _ =>
      pure (.finished result (ToolRegistry.permissionDenied result))) w'
    rw [hcode]
    apply Contract.wp_bind
    apply wp_transitionTo none hb hm'
    · rw [he]
      decide
    · rfl
    · intro z v w'' hm''
      exact hok z result w'' hm''

lemma wp_dispatchSandbox {c : ShellCall r} (hb : Complete w₀ b) (hm : Mid b [] [] w)
    (hc : Allowed r c.command) :
    wp w₀ J (Leaves c b) (ToolRegistry.dispatchSandbox (ToolRegistry.executionOf c.command c.args)) w := by
  have hsound : ∀ x row ran, Executed row c x ran → (⟨c, x, row, ran⟩ : Trace r).Sound := by
    intro x row ran h
    simpa [Trace.Sound, hc.1, hc.2] using h
  apply Contract.wp_bind
  apply wp_createEntry hb hm rfl
  intro e w₁ hm₁ hpending haction hmeta
  apply Contract.wp_bind
  have hrun : markRunning e.id none = transitionTo e.id .running none none :=
    transition_text e.id .running none none
  rw [hrun]
  apply wp_transitionTo none hb hm₁
  · rw [hpending]
    decide
  · rfl
  intro z v w₂ hm₂
  have hrow : Table.assign (transitionUpdates .running z none none) e =
      { e with status := .running, updated_at := z, last_error := none } := rfl
  rw [hrow] at hm₂
  apply Contract.wp_handle
  have hx : Allowed r (ToolRegistry.executionOf c.command c.args).command := hc
  apply wp_runSandboxed hb hm₂ hx rfl
  · intro z' result w₃ hm₃
    exact ⟨_, some _, hm₃, hsound _ _ _ ⟨.ok result, rfl, haction, hmeta, rfl, rfl, rfl⟩⟩
  · intro e' w₃ hm₃
    have hfail : markFailed e.id e'.text none = transitionTo e.id .failed none (some e'.text) :=
      transition_text e.id .failed none (some e'.text)
    change wp w₀ J (Leaves c b) (ledger (markFailed e.id e'.text none) >>= fun _ =>
      pure (.failed e'.text)) w₃
    rw [hfail]
    apply Contract.wp_bind
    apply wp_transitionTo (some e'.text) hb hm₃
    · change Edge .running .failed
      decide
    · rfl
    intro z' v' w₄ hm₄
    exact ⟨_, some _, hm₄, hsound _ _ _ ⟨.error e', rfl, haction, hmeta, rfl, rfl, rfl⟩⟩

lemma wp_refuse {c : ShellCall r} {action reason : String} {f : LedgerEntry → Outcome}
    (hb : Complete w₀ b) (hm : Mid b [] [] w)
    (hsound : ∀ row, Refused row c action reason → (⟨c, .ok (f row), row, none⟩ : Trace r).Sound) :
    wp w₀ J (Leaves c b) (ToolRegistry.createEntry action [("tool", .str c.tool_name),
      ("command", .str c.command), ("reason", .str reason)] >>= fun e => pure (f e)) w := by
  apply Contract.wp_bind
  apply wp_createEntry hb hm rfl
  intro e w' hm' hpending haction hmeta
  exact ⟨e, none, hm', hsound e ⟨hpending, haction, hmeta⟩⟩

lemma wp_dispatch {c : ShellCall r} (hb : Complete w₀ b) (hm : Mid b [] [] w) :
    wp w₀ J (Leaves c b) (r.dispatch c.tool_name c.args) w := by
  have hdispatch : r.dispatch c.tool_name c.args = r.dispatchCommand c.tool_name c.command c.args := by
    have htool : ¬ (c.tool_name ≠ "bash" ∧ c.tool_name ≠ "process") := by
      rintro ⟨hbash, hprocess⟩
      exact c.shell.elim hbash hprocess
    rw [ToolRegistry.dispatch, if_neg htool, c.enabled, c.given]
    rfl
  rw [hdispatch, ToolRegistry.dispatchCommand]
  split
  · rename_i hdenied
    apply wp_refuse (f := fun _ => .blocked "Security Violation: L1 Policy") hb hm
    intro row hrow
    simpa [Trace.Sound, hdenied] using hrow
  · split
    · rename_i hdenied happroval
      apply wp_refuse (f := fun e => .pendingApproval e.id) hb hm
      intro row hrow
      simpa [Trace.Sound, hdenied, happroval] using hrow
    · rename_i hdenied happroval
      exact wp_dispatchSandbox hb hm ⟨by simpa using hdenied, by simpa using happroval⟩

lemma Mid.start (hw : w.busy = true) : Mid w [] [] w where
  dispatched := rfl
  rows := by simp
  executed := by simp
  busy := hw
  allowed := by simp
  one := by simp

lemma Leaves.complete {c : ShellCall r} {x : Except Exc Outcome} (hb : Complete w₀ b)
    (h : Leaves c b x w) : Complete w₀ ((toolCalls r).leave () c x w) := by
  obtain ⟨traces, ha⟩ := hb
  obtain ⟨row, ran, hm, hsound⟩ := h
  refine ⟨traces ++ [⟨c, x, row, ran⟩], ?_⟩
  constructor
  · simp [toolCalls, hm.dispatched, ha.dispatched]
  · simp [toolCalls, hm.rows, ha.rows]
  · cases ran <;> simp [toolCalls, hm.executed, ha.executed]
  · intro a hmem
    rcases List.mem_append.mp hmem with hmem | hmem
    · exact ha.sound a hmem
    · obtain rfl := List.mem_singleton.mp hmem
      exact hsound
  · simp
  · simp

lemma Complete.inv (h : Complete w₀ w) : Inv w₀ w := by
  obtain ⟨traces, ha⟩ := h
  exact ⟨traces, [], [], ha, fun _ => ⟨rfl, rfl⟩⟩

lemma Inv.complete (h : Inv w₀ w) (hw : w.busy = false) : Complete w₀ w := by
  obtain ⟨traces, added, rans, ha, hidle⟩ := h
  obtain ⟨rfl, rfl⟩ := hidle hw
  exact ⟨traces, ha⟩

lemma meets (w₀ : World r) : (contract w₀).Meets (toolCalls r) where
  enter := by
    intro a c w w' hi h
    change (if w.busy then none else some { w with busy := true }) = some w' at h
    split at h
    · cases h
    · rename_i hidle
      cases h
      obtain ⟨traces, ha⟩ := hi.complete (by simpa using hidle)
      have hc : Complete w₀ { w with busy := true } := ⟨traces, { ha with }⟩
      exact ⟨yields ((Mid.start rfl).inv hc), hc, rfl⟩
  body := by
    intro a c w hi hp
    refine Contract.wp_mono hi (wp_dispatch hp.1 (Mid.start hp.2)) ?_
    rintro x t - hx _ rfl -
    exact yields (hx.complete hp.1).inv
  crash := by
    intro a w w' hi h
    cases h
  environment := fun e => e.elim

lemma exec_busy {o : Oracle} {w' : World r} {c : Command} {y : Reply c} (h : exec o w c = some (w', y)) :
    w'.busy = w.busy := by
  cases c with
  | execute x =>
    cases h
    rfl
  | ledger c =>
    change (if collides o w c then none
      else (Ledger.exec 0 o.ledger w.ledger c).map fun x => ({ w with ledger := x.1 }, x.2)) = _ at h
    split at h
    · cases h
    · obtain ⟨x, -, hx⟩ := Option.map_eq_some_iff.mp h
      cases hx
      rfl

abbrev Calls (r : ToolRegistry) := Pool Host Unit (World r) (ShellCall r) Exc Outcome

lemma busy_step {s t : Calls r} {l : Label Unit (ShellCall r) Oracle Empty}
    (h : s.shared.busy = (s.active ()).isSome) (hs : (toolCalls r).step s l = some t) :
    t.shared.busy = (t.active ()).isSome := by
  cases l with
  | invoke a c =>
    simp only [Service.step] at hs
    split at hs
    · cases hs
    · obtain ⟨w, hw, rfl⟩ := Option.map_eq_some_iff.mp hs
      simp only [toolCalls] at hw
      split at hw
      · cases hw
      · cases hw
        simp
  | advance a o =>
    simp only [Service.step] at hs
    split at hs
    · cases hs
    · rename_i c q hq
      obtain ⟨⟨w, x⟩, hw, rfl⟩ := Option.map_eq_some_iff.mp hs
      rw [hq] at h
      cases q with
      | ret v => cases hw; simp [toolCalls]
      | raise e => cases hw; simp [toolCalls]
      | again => cases hw; simpa using h
      | call k f =>
        obtain ⟨⟨w', y⟩, hy, heq⟩ := Option.map_eq_some_iff.mp hw
        cases heq
        simpa using (exec_busy hy).trans h
  | crash a => cases hs
  | environment e => exact e.elim

lemma Trace.Sound.allowed {a : Trace r} (h : a.Sound) {x : Ran} (hx : a.ran = some x) :
    Allowed r x.1.command := by
  rw [Trace.Sound] at h
  split at h
  · rw [h.1] at hx
    cases hx
  · rename_i hdenied
    split at h
    · rw [h.1] at hx
      cases hx
    · rename_i happroval
      obtain ⟨outcome, hran, -⟩ := h
      rw [hran] at hx
      cases hx
      exact ⟨Bool.eq_false_of_not_eq_true hdenied, Bool.eq_false_of_not_eq_true happroval⟩

lemma Inv.allowed (h : Inv w₀ w) :
    ∃ ran, w.executed = w₀.executed ++ ran ∧ ∀ x ∈ ran, Allowed r x.1.command := by
  obtain ⟨traces, added, rans, ha, -⟩ := h
  refine ⟨traces.filterMap Trace.ran ++ rans, by rw [ha.executed, List.append_assoc], ?_⟩
  intro x hx
  rcases List.mem_append.mp hx with hx | hx
  · obtain ⟨a, hmem, hran⟩ := List.mem_filterMap.mp hx
    exact (ha.sound a hmem).allowed hran
  · exact ha.allowed x hx

/-- Whatever the sandbox does, it only runs commands that both checks let pass, and the calls
that returned, the commands that ran and the new rows of the ledger are those of one list of
traces; the rows from before stay as they were. -/
theorem executed_are_audited (w₀ : World r) (hw : w₀.busy = false) {t : Calls r}
    {ls : List (Label Unit (ShellCall r) Oracle Empty)}
    (hr : run (toolCalls r).step (Pool.idle w₀) ls = some t) :
    (∃ ran, t.shared.executed = w₀.executed ++ ran ∧ ∀ x ∈ ran, Allowed r x.1.command) ∧
      ∃ traces added rans, Accounts w₀ t.shared traces added rans ∧
        (t.active () = none → added = [] ∧ rans = []) := by
  have hstart : Complete w₀ w₀ := ⟨[], ⟨by simp, by simp, by simp, by simp, by simp, by simp⟩⟩
  have hinv : Inv w₀ t.shared :=
    (contract w₀).sound_of_unguarded (meets w₀) (fun _ _ _ => trivial) hstart.inv hr
  have hbusy : t.shared.busy = (t.active ()).isSome := by
    have hidle : (Pool.idle w₀ : Calls r).shared.busy = ((Pool.idle w₀ : Calls r).active ()).isSome := hw
    exact reachable_invariant (fun h hs => busy_step h hs) hidle ⟨ls, hr⟩
  obtain ⟨traces, added, rans, ha, hidle⟩ := hinv
  refine ⟨Inv.allowed ⟨traces, added, rans, ha, hidle⟩, traces, added, rans, ha, ?_⟩
  intro hactive
  rw [hactive] at hbusy
  exact hidle hbusy

section Calls

def host : ToolRegistry := ⟨Foundation.PosixPath.AbsPath.root, Foundation.Dicts.OrderedDict.empty⟩

def bash (command : String) : ShellCall host :=
  ⟨"bash", [("command", .str command)], command, Or.inl rfl, by decide, rfl⟩

def quiet : World host := ⟨⟨Table.empty, []⟩, [], [], false⟩

def play (command id : String) (n : ℕ) (outcome : Except Exc SandboxResult) :
    List (Label Unit (ShellCall host) Oracle Empty) :=
  .invoke () (bash command) :: List.replicate n (.advance () ⟨⟨0, id⟩, outcome⟩)

def session : List (Label Unit (ShellCall host) Oracle Empty) :=
  play "mkfs.ext4" "a" 7 (.error (.sandbox "")) ++ play "uptime" "b" 14 (.error (.sandbox "timeout")) ++
    play "uptime" "c" 14 (.ok ⟨0, "up", "", 3, false, "direct"⟩)

theorem session_audited : ∃ t traces, run (toolCalls host).step (Pool.idle quiet) session = some t ∧
    Accounts quiet t.shared traces [] [] ∧ t.shared.executed.length = 2 := by
  obtain ⟨t, hrun, ht⟩ := exists_of_run_any (toolCalls host).step (Pool.idle quiet) session
    (fun t => (t.active ()).isNone && t.shared.executed.length == 2) (by decide +kernel)
  obtain ⟨hidle, hlen⟩ := Bool.and_eq_true_iff.mp ht
  obtain ⟨-, traces, added, rans, ha, hnone⟩ := executed_are_audited quiet rfl hrun
  obtain ⟨rfl, rfl⟩ := hnone (Option.isNone_iff_eq_none.mp hidle)
  exact ⟨t, traces, hrun, ha, eq_of_beq hlen⟩

end Calls

end OpsSentry.Tools.Audit
