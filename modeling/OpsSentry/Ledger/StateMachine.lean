import OpsSentry.Ledger.Lifecycle

/-! Every storage call that `OpsLedger` issues keeps the lives of the entries lawful; so
they are in every run. -/

namespace OpsSentry.Ledger

open Foundation.Strings Foundation.Values Foundation.Programs Foundation.Runs

section Updates

lemma matching_status {entry_id : String} {ss : List Status} {e : LedgerEntry} (hs : ss ≠ [])
    (h : Table.matching entry_id (some ss) e = true) : e.status ∈ ss := by
  simp only [Table.matching] at h
  rw [Bool.and_eq_true] at h
  cases ss with
  | nil => exact absurd rfl hs
  | cons s ss => exact of_decide_eq_true h.2

/-- What the updates of `OpsLedger` and their status conditions have in common. -/
structure Guarded (fields : List Assignment) (expected : List Status) : Prop where
  guarded : expected ≠ []
  open_ : .completed ∉ expected
  fixed : ∀ e, SameIdentity e (Table.assign (Table.setFields fields) e)
  moves : ∀ e : LedgerEntry, e.status ∈ expected →
    match fields.findSome? Assignment.newStatus with
    | some s => Edge e.status s ∧ (Table.assign (Table.setFields fields) e).status = s
    | none => (Table.assign (Table.setFields fields) e).status = e.status

lemma newStatus_setFields (updates : List (Assignment PyStr)) :
    (Table.setFields updates).findSome? Assignment.newStatus = updates.findSome? Assignment.newStatus := by
  induction updates with
  | nil => rfl
  | cons a updates ih =>
    rw [List.findSome?_cons, ← ih]
    cases a <;> rfl

lemma newStatus_of_sets {updates : List (Assignment PyStr)} {fields : List Assignment}
    (h : Table.Sets updates fields) :
    updates.findSome? Assignment.newStatus = fields.findSome? Assignment.newStatus := by
  rw [← newStatus_setFields, h.values, List.findSome?_map]
  congr 1
  funext a
  cases a <;> rfl

lemma transition_guarded (status : Status) (updated_at : ℤ) (checkpoint : Option Dict)
    (error : Option String) :
    Guarded (transitionUpdates status updated_at checkpoint error) (allowedOldStatuses status) where
  guarded := allowedOldStatuses_ne_nil status
  open_ := fun h => not_edge_completed status (mem_allowedOldStatuses.mp h)
  fixed := by
    intro e
    cases checkpoint <;> cases error <;> by_cases hf : status = .failed <;>
      simp [transitionUpdates, Table.setFields, Assignment.immutable, Table.assign, Assignment.apply,
        SameIdentity, hf]
  moves := by
    intro e he
    refine ⟨mem_allowedOldStatuses.mp he, ?_⟩
    cases checkpoint <;> cases error <;> by_cases hf : status = .failed <;>
      simp [transitionUpdates, Table.setFields, Assignment.immutable, Table.assign, Assignment.apply, hf]

lemma checkpoint_guarded (checkpoint : Dict) (updated_at : ℤ) :
    Guarded [.checkpoint checkpoint, .updated_at updated_at] [.pending, .running] where
  guarded := by simp
  open_ := by decide
  fixed _ := ⟨rfl, rfl, rfl, rfl, rfl⟩
  moves _ _ := rfl

/-- The storage calls of `OpsLedger`. -/
def Proper : Command → Prop
  | .append entry => entry.status = .pending
  | .update _ updates (some expected) =>
    Table.setFields updates ≠ [] ∧ ∀ fields, Table.Sets updates fields → Guarded fields expected
  | .update _ _ none => False
  | _ => True

end Updates

section Programs

lemma transition_proper (entry_id : PyStr) (status : Status) (updated_at : ℤ) (checkpoint : Option Dict)
    (error : Option PyStr) :
    Proper (.update entry_id (transitionUpdates status updated_at checkpoint error)
      (some (allowedOldStatuses status))) := by
  refine ⟨?_, fun fields h => ?_⟩
  · rw [setFields_transitionUpdates]
    exact transitionUpdates_ne_nil
  · obtain ⟨error, -, rfl⟩ := fields_of_sets h
    exact transition_guarded status updated_at checkpoint error

lemma checkpoint_proper (entry_id : PyStr) (checkpoint : Dict) (updated_at : ℤ) :
    Proper (.update entry_id [.checkpoint checkpoint, .updated_at updated_at] (some [.pending, .running])) := by
  refine ⟨by simp [Table.setFields, Assignment.immutable], fun fields h => ?_⟩
  have hfields : fields.map Assignment.toPy =
      [Assignment.checkpoint checkpoint, Assignment.updated_at updated_at].map Assignment.toPy := h.values.symm
  rw [List.map_injective_iff.mpr Assignment.toPy_injective hfields]
  exact checkpoint_guarded checkpoint updated_at

lemma getEntry_issues (entry_id : PyStr) : (getEntry entry_id).Issues Proper := by
  apply (get_issues trivial).bind
  rintro (_ | entry) <;> trivial

lemma identifierOf_issues (entry_id : Option PyStr) : (identifierOf entry_id).Issues Proper := by
  cases entry_id with
  | none => exact uuid4_issues trivial
  | some entry_id =>
    rw [identifierOf]
    split
    · exact uuid4_issues trivial
    · trivial

lemma createEntry_issues (action : PyStr) (entry_id accio_ref : Option PyStr)
    (checkpoint metadata : Option Dict) :
    (createEntry action entry_id accio_ref checkpoint metadata).Issues Proper := by
  refine (identifierOf_issues entry_id).bind fun identifier => (get_issues trivial).bind ?_
  rintro (_ | entry)
  · refine (utcMs_issues trivial).bind fun created_at => (utcMs_issues trivial).bind fun updated_at => ?_
    exact Prog.Issues.bind ⟨rfl, fun x => orThrow_issues x⟩ fun _ => getEntry_issues _
  · trivial

lemma transitionTo_issues (entry_id : PyStr) (status : Status) (checkpoint : Option Dict)
    (error : Option PyStr) : (transitionTo entry_id status checkpoint error).Issues Proper := by
  refine (utcMs_issues trivial).bind fun updated_at => ?_
  apply (update_issues (transition_proper entry_id status updated_at checkpoint error)).bind
  rintro (_ | _)
  · apply (get_issues trivial).bind
    rintro (_ | entry) <;> trivial
  · exact getEntry_issues entry_id

lemma transition_issues (entry_id status : PyStr) (checkpoint : Option Dict) (error : Option PyStr) :
    (transition entry_id status checkpoint error).Issues Proper := by
  rw [transition]
  split
  · trivial
  · exact transitionTo_issues ..

lemma updateCheckpoint_issues (entry_id : PyStr) (checkpoint : Dict) :
    (updateCheckpoint entry_id checkpoint).Issues Proper := by
  refine (utcMs_issues trivial).bind fun updated_at => ?_
  apply (update_issues (checkpoint_proper entry_id checkpoint updated_at)).bind
  rintro (_ | _)
  · apply (get_issues trivial).bind
    rintro (_ | entry) <;> trivial
  · exact getEntry_issues entry_id

lemma deleteEntry_issues (entry_id : PyStr) : (deleteEntry entry_id).Issues Proper :=
  (getEntry_issues entry_id).bind fun _ => delete_issues trivial

lemma body_issues (p : Procedure) : (body p).Issues Proper := by
  have hsome : ∀ q : Code LedgerEntry, q.Issues Proper → (some <$> q : Code (Option LedgerEntry)).Issues Proper :=
    fun q hq => hq.bind fun _ => trivial
  cases p with
  | createEntry => exact hsome _ (createEntry_issues ..)
  | transition => exact hsome _ (transition_issues ..)
  | markRunning => exact hsome _ (transition_issues ..)
  | markCompleted => exact hsome _ (transition_issues ..)
  | markFailed => exact hsome _ (transition_issues ..)
  | updateCheckpoint => exact hsome _ (updateCheckpoint_issues ..)
  | deleteEntry entry_id => exact (deleteEntry_issues entry_id).bind fun _ => trivial

end Programs

section Invariant

variable {w : World} {n : ℕ} {c : Command} {j : String} {t : Table} {b : Bool}

structure Lawful (i : String) (w : World) : Prop where
  starts : ∀ v ∈ (life i w.log).head?, v.row.status = .pending ∧ v.move = none
  chain : (life i w.log).IsChain fun u v => Next u.row v
  current : ∀ v ∈ (life i w.log).getLast?, w.table.find? i = some v.row

/-- A transition that was reported successful found a row and took it along one edge. -/
def Accounted (r : Record) : Prop :=
  ∀ s, r.call.newStatus = some s → r.success = true →
    ∃ e f, r.before = some e ∧ r.after = some f ∧ Edge e.status s ∧ f.status = s

structure Inv (w : World) : Prop where
  lives : ∀ i, Lawful i w
  accounted : ∀ r ∈ w.log, Accounted r

@[simp] lemma life_write (i : String) : life i (w.write n c j t b).log =
    extend i (life i w.log) ⟨n, c, j, b, w.table.find? j, t.find? j⟩ := by
  simp [life, World.write, List.foldl_append]

/-- One write keeps the lives lawful, if it creates pending rows, and versions of an older
row only by a lawful step, of the entry it names. -/
lemma write_inv (hi : Inv w) (hother : ∀ i, i ≠ j → t.find? i = w.table.find? i)
    (hcreate : ∀ e, w.table.find? j = none → t.find? j = some e →
      e.status = .pending ∧ c.newStatus = none)
    (hstep : ∀ e f, w.table.find? j = some e → t.find? j = some f →
      Next e ⟨⟨n, c, j, b, w.table.find? j, t.find? j⟩, f⟩)
    (haccount : Accounted ⟨n, c, j, b, w.table.find? j, t.find? j⟩) : Inv (w.write n c j t b) := by
  refine ⟨?_, ?_⟩
  swap
  · intro r hr
    rcases List.mem_append.mp hr with hr | hr
    · exact hi.accounted r hr
    · exact List.mem_singleton.mp hr ▸ haccount
  intro i
  have hl := hi.lives i
  by_cases hij : j = i
  · subst i
    have htable : (w.write n c j t b).table = t := rfl
    have hlife := life_write (w := w) (n := n) (c := c) (j := j) (t := t) (b := b) j
    simp only [extend, ↓reduceIte] at hlife
    cases hbefore : w.table.find? j with
    | none =>
      cases hafter : t.find? j with
      | none =>
        rw [hbefore, hafter] at hlife
        constructor <;> simp [hlife]
      | some e =>
        rw [hbefore, hafter] at hlife
        obtain ⟨hp, hc⟩ := hcreate e hbefore hafter
        constructor <;> simp [hlife, htable, hafter, hp, Version.move, hc]
    | some e =>
      cases hafter : t.find? j with
      | none =>
        rw [hbefore, hafter] at hlife
        constructor <;> simp [hlife]
      | some f =>
        have hnext := hstep e f hbefore hafter
        rw [hbefore, hafter] at hlife hnext
        dsimp only at hlife
        by_cases hnil : life j w.log = []
        · rw [if_pos hnil] at hlife
          constructor <;> simp [hlife]
        · rw [if_neg hnil] at hlife
          constructor
          · intro v hv
            rw [hlife, List.head?_append_of_ne_nil _ hnil] at hv
            exact hl.starts v hv
          · rw [hlife]
            apply List.IsChain.append hl.chain (List.isChain_singleton _)
            intro u hu v hv
            obtain rfl := Option.some.inj hv
            have hrow := (hl.current u hu).symm.trans hbefore
            rw [Option.some.injEq] at hrow
            exact hrow ▸ hnext
          · intro v hv
            rw [hlife, List.getLast?_concat] at hv
            obtain rfl := Option.some.inj hv
            exact hafter
  · have hlife : life i (w.write n c j t b).log = life i w.log := by
      rw [life_write, extend, if_neg fun h => hij (PyStr.text.inj h)]
    refine ⟨hlife ▸ hl.starts, hlife ▸ hl.chain, ?_⟩
    rw [hlife]
    intro v hv
    exact (hother i (Ne.symm hij)).trans (hl.current v hv)

lemma insert_inv (hi : Inv w) {row : LedgerEntry} (hp : row.status = .pending)
    (h : w.table.insert row = .ok t) : Inv (w.write n (.append row) row.id t true) := by
  obtain ⟨hnone, hfind⟩ := Table.insert_ok h
  apply write_inv hi
  · intro i hne
    rw [hfind, if_neg hne]
  · intro e _ he
    rw [hfind, if_pos rfl] at he
    exact ⟨Option.some.inj he ▸ hp, rfl⟩
  · intro e f he
    rw [hnone] at he
    cases he
  · intro s hs
    cases hs

lemma set_inv (hi : Inv w) {entry_id : String} {updates : List (Assignment PyStr)} {fields : List Assignment}
    {expected : List Status} (hs : Table.Sets updates fields) (hg : Guarded fields expected) :
    Inv (w.write n (.update entry_id updates (some expected)) entry_id
      (w.table.set entry_id fields (some expected)).1 (w.table.set entry_id fields (some expected)).2) := by
  have hsuccess : (w.table.set entry_id fields (some expected)).2 = true ↔
      ∃ e, w.table.find? entry_id = some e ∧ Table.matching entry_id (some expected) e = true := Table.set_affects
  have hstatus : (Command.update entry_id updates (some expected)).newStatus =
      fields.findSome? Assignment.newStatus := newStatus_of_sets hs
  apply write_inv hi
  · intro i hne
    exact Table.set_other hne
  · intro e he hf
    rw [Table.find?_set, he] at hf
    cases hf
  · intro e f he hf
    rw [Table.find?_set, he, Option.map_some, Option.some.injEq] at hf
    subst hf
    by_cases hm : Table.matching entry_id (some expected) e = true
    · have hb := hsuccess.mpr ⟨e, he, hm⟩
      have hmem := matching_status hg.guarded hm
      have hupd : Table.updated fields entry_id (some expected) e =
          Table.assign (Table.setFields fields) e := if_pos hm
      refine ⟨?_, ?_, hupd ▸ hg.fixed e⟩
      · have hmoves := hg.moves e hmem
        simp only [Moves, Version.move, hb, ↓reduceIte, hupd, hstatus]
        exact hmoves
      · intro hc
        exact absurd (hc ▸ hmem) hg.open_
    · have hb : (w.table.set entry_id fields (some expected)).2 = false := by
        rw [← Bool.not_eq_true, hsuccess]
        rintro ⟨e', he', hm'⟩
        rw [he, Option.some.injEq] at he'
        exact hm (he' ▸ hm')
      have hupd : Table.updated fields entry_id (some expected) e = e := if_neg hm
      rw [hupd]
      refine ⟨?_, fun _ => ⟨rfl, rfl, rfl, rfl⟩, ⟨rfl, rfl, rfl, rfl, rfl⟩⟩
      simp [Moves, Version.move, hb]
  · intro s hs' hb
    obtain ⟨e, he, hm⟩ := hsuccess.mp hb
    have hmoves := hg.moves e (matching_status hg.guarded hm)
    rw [← hstatus, hs'] at hmoves
    refine ⟨e, _, he, (Table.find?_set entry_id).trans (congrArg _ he), hmoves.1, ?_⟩
    rw [Table.updated, if_pos hm]
    exact hmoves.2

lemma remove_inv (hi : Inv w) (entry_id : String) :
    Inv (w.write n (.delete entry_id) entry_id (w.table.remove entry_id) b) := by
  apply write_inv hi
  · intro i hne
    rw [Table.find?_remove, if_neg hne]
  · intro e _ he
    rw [Table.find?_remove, if_pos rfl] at he
    cases he
  · intro e f _ hf
    rw [Table.find?_remove, if_pos rfl] at hf
    cases hf
  · intro s hs
    cases hs

lemma exec_inv (hi : Inv w) (hc : Proper c) {o : Oracle} {w' : World} {y : Reply c}
    (h : exec n o w c = some (w', y)) : Inv w' := by
  cases c with
  | utcMs => cases h; exact hi
  | uuid4 => cases h; exact hi
  | get entry_id => cases h; exact hi
  | append entry =>
    simp only [exec] at h
    split at h <;> cases h
    · exact hi
    · obtain ⟨row, rfl, -, hinsert⟩ := Table.append_eq_ok.mp ‹_›
      exact insert_inv hi hc hinsert
  | update entry_id updates expected =>
    cases expected with
    | none => exact hc.elim
    | some expected =>
      simp only [exec] at h
      split at h <;> cases h
      · exact hi
      · rename_i ht
        rcases Table.update_eq_ok.mp ht with ⟨hnil, -⟩ | ⟨i, fields, rfl, hsets, heq⟩
        · exact absurd hnil hc.1
        · cases heq
          exact set_inv hi hsets (hc.2 fields hsets)
  | delete entry_id =>
    simp only [exec] at h
    split at h <;> cases h
    · exact hi
    · rename_i ht
      obtain ⟨i, hid, ht⟩ := bind_eq_ok ht
      obtain rfl := bindText_eq_ok.mp hid
      cases ht
      exact remove_inv hi i

end Invariant

/-- No call relies on anything the others do. -/
def contract : Contract Database ℕ World Procedure where
  Inv := Inv
  Rely _ _ _ := True
  Guard _ _ _ := True
  Pre _ _ _ := True
  refl _ _ := trivial
  trans _ _ := trivial

lemma opsLedger_meets : contract.Meets opsLedger where
  enter n p s w hi hw := by
    cases hw
    exact ⟨Contract.Yields.refl hi, trivial⟩
  body n p s hi _ := by
    refine Contract.safe_of_issues (Z := Proper) ?_ ?_ (fun _ _ => trivial) (body_issues p) hi
    · intro c o t w r hc hit _ hw
      exact ⟨exec_inv hit hc hw, fun _ _ => trivial⟩
    · intro x t hit
      exact Contract.Yields.refl hit
  crash n s w hi hw := by
    cases hw
    exact Contract.Yields.refl hi
  environment e := e.elim

lemma Lawful.lifecycle {i : String} {w : World} (h : Lawful i w) : Lifecycle (life i w.log) where
  starts v hv := (h.starts v hv).1
  path := statuses_path (h.chain.imp fun _ _ hn => hn.moves)
  edges := h.chain.imp fun _ _ hn => hn.moves
  leaves_once m k hmk hm hk := by
    apply leaves_pending_once (h.chain.imp fun _ _ hn => hn.moves) hmk ?_ hm hk
    cases hl : life i w.log with
    | nil => rfl
    | cons v l => exact (h.starts v (by rw [hl]; rfl)).2
  final := (h.chain.imp fun _ _ hn => hn.final).pairwise
  fixed := (h.chain.imp fun _ _ hn => hn.fixed).pairwise

/-- From any database, in every state that any run of `OpsLedger` calls reaches. -/
theorem ledger_lifecycle {table : Table} {ls : List (Label ℕ Procedure Oracle Empty)}
    {t : Pool Database ℕ World Procedure Exc (Option LedgerEntry)}
    (hr : run opsLedger.step (Pool.idle ⟨table, []⟩) ls = some t) :
    (∀ i, Lifecycle (life i t.shared.log) ∧
      ∀ v ∈ (life i t.shared.log).getLast?, t.shared.table.find? i = some v.row) ∧
    ∀ r ∈ t.shared.log, Accounted r := by
  have hstart : Inv ⟨table, []⟩ := by
    refine ⟨fun i => ?_, by simp⟩
    constructor <;> simp [life]
  have hinv : Inv t.shared := contract.sound_of_unguarded opsLedger_meets (fun _ _ _ => trivial) hstart hr
  exact ⟨fun i => ⟨(hinv.lives i).lifecycle, (hinv.lives i).current⟩, hinv.accounted⟩

def race : List (Label ℕ Procedure Oracle Empty) :=
  [.invoke 0 (.createEntry "deploy" (some "task-1") none none none)] ++
    List.replicate 6 (.advance 0 {}) ++
    [.invoke 1 (.markRunning "task-1" none), .invoke 2 (.markRunning "task-1" none),
      .advance 1 {}, .advance 2 {}, .advance 2 {}, .advance 1 {}, .advance 1 {}, .advance 2 {}]

theorem race_lifecycle :
    ∃ t, run opsLedger.step (Pool.idle ⟨Table.empty, []⟩) race = some t ∧
      (life "task-1" t.shared.log).map (fun v => (v.made.process, v.made.success, v.row.status)) =
        [(0, true, .pending), (2, true, .running), (1, false, .running)] ∧
      Lifecycle (life "task-1" t.shared.log) := by
  obtain ⟨t, ht, hl⟩ := exists_of_run_any opsLedger.step (Pool.idle ⟨Table.empty, []⟩) race
    (fun t => decide ((life "task-1" t.shared.log).map
      (fun v => (v.made.process, v.made.success, v.row.status)) =
        [(0, true, .pending), (2, true, .running), (1, false, .running)])) (by decide +kernel)
  exact ⟨t, ht, of_decide_eq_true hl, ((ledger_lifecycle ht).1 "task-1").1⟩

end OpsSentry.Ledger
