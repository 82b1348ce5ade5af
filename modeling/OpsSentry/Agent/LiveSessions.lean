import OpsSentry.Agent.Broadcast

/-! `websocket_chat_endpoint` of `routers/sessions.py` between its awaits: when its socket stands in the
table of connections. -/

namespace OpsSentry.Agent.Connections

open Foundation.Runs Foundation.Values

/-- `CancelledError` is no `Exception`. -/
inductive Raised
  | disconnect
  | error
  | cancelled

/-- The await that an endpoint has come to, with the session once it is bound. A cancelled one is
`stranded` where neither handler has run for its session; `broken` is one whose handler raised. -/
inductive Phase
  | accepting
  | greeting
  | refusing
  | refused
  | listening (session_id : String)
  | chatting (session_id : String)
  | reporting (session_id : String)
  | closing
  | ended
  | stranded (session_id : String)
  | broken
deriving DecidableEq

/-- What comes back to an endpoint at its await and from the calls up to the next one: `none` in `data`,
`session` is a call that raised. -/
structure Answer where
  raised : Option Raised := none
  data : Option Value := none
  session : Option String := none
  rebuilt : Bool := false
  prepared : Bool := true
  recorded : Bool := true
  more : Bool := false

/-- A socket goes by the place of its endpoint. The order in which they were registered is kept beside. -/
structure Server where
  registry : Registry ℕ
  endpoints : List Phase
  arrivals : List ℕ

def Server.init : Server := ⟨.empty, [], []⟩

/-- `data.get(key)`, if `data` has a `get`. -/
def getField (key : String) : Value → Option Value
  | .dict d => some ((d.lookup (.text key)).getD .null)
  | _ => none

namespace Server

variable (w : Server) (i : ℕ) (answer : Answer)

def moveTo (p : Phase) : Server := { w with endpoints := w.endpoints.set i p }

def register (session_id : String) : Server :=
  { w with
    registry := w.registry.connect session_id i answer.rebuilt
    arrivals := w.arrivals ++ [i] }.moveTo i (.listening session_id)

/-- `list.remove` raises for a socket that is not in the list. -/
def leave (session_id : String) (p : Phase) : Server :=
  if (w.registry.find session_id).all fun l => i ∈ w.registry.lists l then
    { w with registry := w.registry.disconnect session_id i }.moveTo i p
  else w.moveTo i .broken

/-- The handlers before `session_id` is bound. -/
def fail : Raised → Server
  | .disconnect | .cancelled => w.moveTo i .ended
  | .error => w.moveTo i .closing

def failIn (session_id : String) : Raised → Server
  | .disconnect => w.leave i session_id .ended
  | .error => w.leave i session_id .closing
  | .cancelled => w.moveTo i (.stranded session_id)

def greet : Server :=
  match answer.data.bind fun data => (getField "uid" data).bind fun uid => (getField "did" data).map fun did => (uid, did) with
  | none => w.fail i .error
  | some (uid, did) =>
    if !uid.truthy || !did.truthy then w.moveTo i .refusing
    else
      match answer.session with
      | none => w.fail i .error
      | some session_id =>
        if answer.prepared then w.register i answer session_id
        else (w.register i answer session_id).failIn i session_id .error

def listen (session_id : String) : Server :=
  match answer.data.bind (getField "message") with
  | none => w.failIn i session_id .error
  | some message_text =>
    if !message_text.truthy then w.moveTo i (.listening session_id)
    else if answer.recorded then w.moveTo i (.chatting session_id)
    else w.failIn i session_id .error

/-- The loop catches what `chat` and the sends raise, and reports it. -/
def converse (session_id : String) : Option Raised → Server
  | none => w.moveTo i (if answer.more then .chatting session_id else .listening session_id)
  | some .cancelled => w.moveTo i (.stranded session_id)
  | some _ => w.moveTo i (.reporting session_id)

/-- From the await at `p`. The last `close` swallows all that it raises. -/
def resume : Phase → Option Raised → Option Server
  | .accepting, none => some (w.moveTo i .greeting)
  | .greeting, none => some (w.greet i answer)
  | .refusing, none => some (w.moveTo i .refused)
  | .refused, none => some (w.moveTo i .ended)
  | .accepting, some raised | .greeting, some raised | .refusing, some raised | .refused, some raised =>
    some (w.fail i raised)
  | .listening session_id, none => some (w.listen i answer session_id)
  | .chatting session_id, raised => some (w.converse i answer session_id raised)
  | .reporting session_id, none => some (w.moveTo i (.listening session_id))
  | .listening session_id, some raised | .reporting session_id, some raised => some (w.failIn i session_id raised)
  | .closing, _ => some (w.moveTo i .ended)
  | .ended, _ | .stranded _, _ | .broken, _ => none

end Server

inductive Action
  | accept
  | answer (i : ℕ) (answer : Answer)

def serve (w : Server) : Action → Option Server
  | .accept => some { w with endpoints := w.endpoints ++ [.accepting] }
  | .answer i answer => w.endpoints[i]?.bind fun p => w.resume i answer p answer.raised

/-- The session under which the socket is in the table. -/
def Phase.session : Phase → Option String
  | .listening session_id | .chatting session_id | .reporting session_id | .stranded session_id => some session_id
  | _ => none

/-- Before its socket was registered. -/
def Phase.early : Phase → Bool
  | .accepting | .greeting => true
  | _ => false

def Server.session (w : Server) (i : ℕ) : Option String := w.endpoints[i]?.bind Phase.session

/-- The list that a broadcast to the session goes over. -/
def Registry.roster {W : Type} (r : Registry W) (session_id : String) : List W := (r.find session_id).elim [] r.lists

section Roster

variable {W : Type} [DecidableEq W] {r : Registry W} {session_id i : String} {websocket : W} {l : Ref}

omit [DecidableEq W] in
lemma find_inj (hr : Sound r) (h : r.find session_id = some l) (h' : r.find i = some l) : session_id = i :=
  congrArg Prod.fst (List.inj_on_of_nodup_map hr.refs (mem_items_of_find h) (mem_items_of_find h') rfl)

omit [DecidableEq W] in
lemma find_of_mem (hr : Sound r) (h : (session_id, l) ∈ r.items) : r.find session_id = some l := by
  cases hfind : r.find session_id with
  | none => exact absurd (List.mem_map_of_mem h) (find_none_iff.mp hfind)
  | some l' =>
    have hsame := List.inj_on_of_nodup_map hr.ids (mem_items_of_find hfind) h rfl
    exact congrArg (fun p => some p.2) hsame

omit [DecidableEq W] in
lemma mem_roster (hr : Sound r) (h : websocket ∈ r.lists l) : ∃ i, websocket ∈ r.roster i := by
  obtain ⟨⟨i, l'⟩, hitem, rfl⟩ := List.mem_map.mp (hr.held h)
  refine ⟨i, ?_⟩
  rw [Registry.roster, find_of_mem hr hitem]
  exact h

omit [DecidableEq W] in
lemma find_connect (rebuilt : Bool) : (r.connect session_id websocket rebuilt).find i =
    (r.find i).or (if r.find session_id = none ∧ i = session_id then some r.fresh else none) := by
  cases h : r.find session_id with
  | some l =>
    rw [if_neg (by simp), Option.or_none, Registry.connect, h]
    rfl
  | none =>
    rw [Registry.find, items_connect h, List.lookup_append, ← Registry.find]
    congr 1
    by_cases hi : i = session_id
    · simp [hi]
    · simp [hi, List.lookup_cons, List.lookup_nil, beq_eq_false_iff_ne.mpr hi]

omit [DecidableEq W] in
lemma roster_connect (hr : Sound r) (rebuilt : Bool) : (r.connect session_id websocket rebuilt).roster i =
    if i = session_id then r.roster i ++ [websocket] else r.roster i := by
  rw [Registry.roster, find_connect]
  cases h : r.find session_id with
  | some l =>
    rw [if_neg (by simp), Option.or_none, Registry.connect, h]
    by_cases hi : i = session_id
    · subst hi
      simp [Registry.roster, h]
    · rw [if_neg hi, Registry.roster]
      cases hfind : r.find i with
      | none => rfl
      | some l' =>
        have hne : l' ≠ l := by
          rintro rfl
          exact hi (find_inj hr hfind h)
        simp [Function.update_of_ne hne]
  | none =>
    rw [Registry.connect, h]
    by_cases hi : i = session_id
    · subst hi
      simp [Registry.roster, h]
    · rw [if_neg (by simp [hi]), if_neg hi, Option.or_none, Registry.roster]
      cases hfind : r.find i with
      | none => rfl
      | some l' =>
        have hlt := hr.fresh l' (List.mem_map_of_mem (f := Prod.snd) (mem_items_of_find hfind))
        simp [Function.update_of_ne (Nat.ne_of_lt hlt)]

lemma lookup_filter {d : List (String × Ref)} : (d.filter fun p => p.1 ≠ session_id).lookup i =
    if i = session_id then none else d.lookup i := by
  induction d with
  | nil => simp
  | cons p d ih =>
    by_cases hp : p.1 = session_id
    · rw [List.filter_cons_of_neg (by simpa using hp), ih]
      by_cases hi : i = session_id
      · rw [if_pos hi, if_pos hi]
      · rw [if_neg hi, if_neg hi, List.lookup_cons, beq_eq_false_iff_ne.mpr fun heq => hi (heq.trans hp)]
    · rw [List.filter_cons_of_pos (by simpa using hp), List.lookup_cons, List.lookup_cons, ih]
      by_cases hi : i = session_id
      · rw [if_pos hi, if_pos hi, beq_eq_false_iff_ne.mpr fun heq => hp (heq.symm.trans hi)]
      · rw [if_neg hi, if_neg hi]

lemma find_disconnect (hmem : websocket ∈ r.roster session_id) : (r.disconnect session_id websocket).find i =
    if i = session_id ∧ (r.roster session_id).erase websocket = [] then none else r.find i := by
  rw [Registry.roster] at hmem ⊢
  cases h : r.find session_id with
  | none =>
    rw [h] at hmem
    cases hmem
  | some l =>
    rw [h] at hmem
    have hmem : websocket ∈ r.lists l := hmem
    rw [Registry.disconnect, h]
    simp only [if_pos hmem, Option.elim_some, Registry.find, Registry.items]
    by_cases hempty : (r.lists l).erase websocket = []
    · rw [if_pos hempty, items_delete, lookup_filter, Registry.items]
      simp only [hempty, and_true]
    · simp only [hempty, and_false, if_false]

lemma roster_disconnect (hr : Sound r) (hmem : websocket ∈ r.roster session_id) :
    (r.disconnect session_id websocket).roster i =
      if i = session_id then (r.roster i).erase websocket else r.roster i := by
  have hfind := find_disconnect (i := i) hmem
  rw [Registry.roster, hfind]
  rw [Registry.roster] at hmem
  cases h : r.find session_id with
  | none =>
    rw [h] at hmem
    cases hmem
  | some l =>
    rw [h] at hmem
    have hmem : websocket ∈ r.lists l := hmem
    have hlists : (r.disconnect session_id websocket).lists = Function.update r.lists l ((r.lists l).erase websocket) := by
      rw [Registry.disconnect, h]
      simp only [if_pos hmem]
    rw [hlists]
    by_cases hi : i = session_id
    · subst hi
      simp only [Registry.roster, h, Option.elim_some, true_and, if_true]
      split
      · rename_i hempty
        rw [hempty]
        rfl
      · rw [Option.elim_some, Function.update_self]
    · rw [if_neg (by simp [hi]), if_neg hi, Registry.roster]
      cases hfind : r.find i with
      | none => rfl
      | some l' =>
        have hne : l' ≠ l := by
          rintro rfl
          exact hi (find_inj hr hfind h)
        simp [Function.update_of_ne hne]

end Roster

/-- The sockets of a session whose endpoints are in their loop, in the order in which they came. -/
def Server.live (w : Server) (session_id : String) : List ℕ :=
  w.arrivals.filter fun i => w.session i = some session_id

structure Served (w : Server) : Prop where
  sound : Sound w.registry
  roster : ∀ session_id, w.registry.roster session_id = w.live session_id
  nonempty : ∀ session_id, (w.registry.find session_id).isSome → w.registry.roster session_id ≠ []
  nodup : w.arrivals.Nodup
  arrived : ∀ i session_id, w.session i = some session_id → i ∈ w.arrivals
  late : ∀ i ∈ w.arrivals, ∃ p, w.endpoints[i]? = some p ∧ p.early = false
  whole : Phase.broken ∉ w.endpoints

section Step

variable {w t : Server} {i : ℕ} {p q : Phase} {session_id : String} {answer : Answer}

lemma session_moveTo (hp : w.endpoints[i]? = some p) (j : ℕ) :
    (w.moveTo i q).session j = if j = i then q.session else w.session j := by
  have hi := (List.getElem?_eq_some_iff.mp hp).1
  rw [Server.session, Server.moveTo]
  by_cases hj : j = i
  · subst hj
    simp [List.getElem?_set_self hi]
  · rw [if_neg hj, Server.session, List.getElem?_set_ne fun h => hj h.symm]

lemma endpoints_moveTo (hp : w.endpoints[i]? = some p) {j : ℕ} {r : Phase} (hr : w.endpoints[j]? = some r)
    (hearly : p.early = false → q.early = false) (hr' : r.early = false) :
    ∃ r', (w.moveTo i q).endpoints[j]? = some r' ∧ r'.early = false := by
  by_cases hj : j = i
  · subst hj
    obtain rfl : p = r := Option.some.inj (hp.symm.trans hr)
    exact ⟨q, List.getElem?_set_self (List.getElem?_eq_some_iff.mp hp).1, hearly hr'⟩
  · exact ⟨r, by rw [Server.moveTo, List.getElem?_set_ne fun h => hj h.symm, hr], hr'⟩

lemma whole_set {endpoints : List Phase} (h : Phase.broken ∉ endpoints) (hq : q ≠ .broken) :
    Phase.broken ∉ endpoints.set i q := by
  intro hmem
  rcases List.mem_or_eq_of_mem_set hmem with hmem | heq
  · exact h hmem
  · exact hq heq.symm

/-- A move that stays under its session. -/
lemma Served.moveTo (h : Served w) (hp : w.endpoints[i]? = some p) (hsession : q.session = p.session)
    (hearly : p.early = false → q.early = false) (hq : q ≠ .broken) : Served (w.moveTo i q) := by
  have hsame : (w.moveTo i q).session = w.session := by
    funext j
    rw [session_moveTo hp]
    split
    · rename_i hj
      rw [hsession, hj, Server.session, hp]
      rfl
    · rfl
  refine ⟨h.sound, fun session_id => ?_, h.nonempty, h.nodup, fun j session_id hj => ?_, fun j hj => ?_, whole_set h.whole hq⟩
  · rw [Server.live, hsame]
    exact h.roster session_id
  · exact h.arrived j session_id (hsame ▸ hj)
  · obtain ⟨r, hr, hr'⟩ := h.late j hj
    exact endpoints_moveTo hp hr hearly hr'

lemma Served.not_arrived (h : Served w) (hp : w.endpoints[i]? = some p) (hearly : p.early = true) : i ∉ w.arrivals := by
  intro hmem
  obtain ⟨r, hr, hr'⟩ := h.late i hmem
  rw [Option.some.inj (hp.symm.trans hr), hr'] at hearly
  cases hearly

lemma Served.register (h : Served w) (hp : w.endpoints[i]? = some p) (hearly : p.early = true) :
    Served (w.register i answer session_id) := by
  have hnew := h.not_arrived hp hearly
  have hnever : w.registry.registered i = false := by
    rw [Registry.registered, List.any_eq_false]
    intro l _ hmem
    obtain ⟨id, hid⟩ := mem_roster h.sound (of_decide_eq_true hmem)
    rw [h.roster] at hid
    exact hnew (List.mem_of_mem_filter hid)
  have hsession : ∀ j, (w.register i answer session_id).session j = if j = i then some session_id else w.session j :=
    session_moveTo hp
  have hroster : ∀ id, (w.register i answer session_id).registry.roster id =
      if id = session_id then w.registry.roster id ++ [i] else w.registry.roster id :=
    fun id => roster_connect h.sound answer.rebuilt
  refine ⟨h.sound.connect hnever answer.rebuilt, fun id => ?_, fun id hid => ?_, ?_, fun j id hj => ?_, fun j hj => ?_,
    whole_set h.whole (by simp)⟩
  · have hbefore : w.arrivals.filter (fun j => (w.register i answer session_id).session j = some id) = w.live id := by
      refine List.filter_congr fun j hj => ?_
      have hne : j ≠ i := by
        rintro rfl
        exact hnew hj
      rw [hsession, if_neg hne]
    have harrivals : (w.register i answer session_id).arrivals = w.arrivals ++ [i] := rfl
    rw [hroster, Server.live, harrivals, List.filter_append, hbefore, h.roster, List.filter_singleton, hsession, if_pos rfl]
    by_cases hid : id = session_id
    · simp [hid]
    · simp [hid, Ne.symm hid]
  · rw [hroster]
    split
    · simp
    · rename_i hne
      refine h.nonempty id ?_
      have hfind : (w.register i answer session_id).registry.find id = _ := find_connect answer.rebuilt
      rwa [hfind, if_neg fun hand => hne hand.2, Option.or_none] at hid
  · exact h.nodup.append (List.nodup_singleton i) (by simpa using hnew)
  · rw [hsession] at hj
    split at hj
    · rename_i heq
      exact heq ▸ List.mem_append_right _ List.mem_cons_self
    · exact List.mem_append_left _ (h.arrived j id hj)
  · rcases List.mem_append.mp hj with hj | hj
    · obtain ⟨r, hr, hr'⟩ := h.late j hj
      exact endpoints_moveTo hp hr (fun _ => rfl) hr'
    · obtain rfl := List.mem_singleton.mp hj
      exact ⟨_, List.getElem?_set_self (List.getElem?_eq_some_iff.mp hp).1, rfl⟩

lemma Served.leave (h : Served w) (hp : w.endpoints[i]? = some p) (hin : p.session = some session_id)
    (hsession : q.session = none) (hearly : q.early = false) (hq : q ≠ .broken) : Served (w.leave i session_id q) := by
  have hi : w.session i = some session_id := by
    rw [Server.session, hp]
    exact hin
  have hmem : i ∈ w.registry.roster session_id := by
    rw [h.roster]
    exact List.mem_filter.mpr ⟨h.arrived i session_id hi, decide_eq_true hi⟩
  have hfound : (w.registry.find session_id).all (fun l => decide (i ∈ w.registry.lists l)) = true := by
    rw [Registry.roster] at hmem
    cases hfind : w.registry.find session_id with
    | none => rfl
    | some l =>
      rw [hfind] at hmem
      exact decide_eq_true hmem
  rw [Server.leave, if_pos hfound]
  have hsessions := session_moveTo (q := q) hp
  have hroster : ∀ id, (w.registry.disconnect session_id i).roster id = _ := fun id => roster_disconnect (i := id) h.sound hmem
  refine ⟨h.sound.disconnect, fun id => ?_, fun id hid => ?_, h.nodup, fun j id hj => ?_, fun j hj => ?_, whole_set h.whole hq⟩
  · have hlive : w.arrivals.filter (fun j => (w.moveTo i q).session j = some id) =
        (w.live id).filter fun j => j ≠ i := by
      rw [Server.live, List.filter_filter]
      refine List.filter_congr fun j _ => ?_
      rw [hsessions]
      by_cases hj : j = i
      · simp [hj, hsession]
      · simp [hj]
    change (w.registry.disconnect session_id i).roster id = w.arrivals.filter fun j => (w.moveTo i q).session j = some id
    rw [hroster, hlive, h.roster]
    have hnodup : (w.live id).Nodup := h.nodup.filter _
    by_cases hid : id = session_id
    · rw [if_pos hid, hnodup.erase_eq_filter]
      exact List.filter_congr fun j _ => Bool.eq_iff_iff.mpr (by simp)
    · rw [if_neg hid, eq_comm, List.filter_eq_self]
      rintro j hj
      have hj := of_decide_eq_true (List.mem_filter.mp hj).2
      refine decide_eq_true ?_
      rintro rfl
      exact hid (Option.some.inj (hj.symm.trans hi))
  · change (w.registry.disconnect session_id i).roster id ≠ []
    have hid : ((w.registry.disconnect session_id i).find id).isSome := hid
    rw [find_disconnect hmem] at hid
    rw [hroster]
    split at hid
    · cases hid
    · rename_i hne
      split
      · rename_i heq
        exact fun hempty => hne ⟨heq, heq ▸ hempty⟩
      · exact h.nonempty id hid
  · have hj : (w.moveTo i q).session j = some id := hj
    rw [hsessions] at hj
    split at hj
    · cases hsession.symm.trans hj
    · exact h.arrived j id hj
  · obtain ⟨r, hr, hr'⟩ := h.late j hj
    exact endpoints_moveTo hp hr (fun _ => hearly) hr'

lemma Served.fail (h : Served w) (hp : w.endpoints[i]? = some p) (hsession : p.session = none) (raised : Raised) :
    Served (w.fail i raised) := by
  cases raised with
  | error => exact h.moveTo hp hsession.symm (fun _ => rfl) (by simp)
  | _ => exact h.moveTo hp hsession.symm (fun _ => rfl) (by simp)

lemma Served.failIn (h : Served w) (hp : w.endpoints[i]? = some p) (hsession : p.session = some session_id)
    (raised : Raised) : Served (w.failIn i session_id raised) := by
  cases raised with
  | cancelled => exact h.moveTo hp hsession.symm (fun _ => rfl) (by simp)
  | _ => exact h.leave hp hsession rfl rfl (by simp)

lemma Served.greet (h : Served w) (hp : w.endpoints[i]? = some .greeting) : Served (w.greet i answer) := by
  rw [Server.greet]
  split
  · exact h.fail hp rfl .error
  · split
    · exact h.moveTo hp rfl (fun _ => rfl) (by simp)
    · split
      · exact h.fail hp rfl .error
      · rename_i session_id _
        have hregister : Served (w.register i answer session_id) := h.register hp rfl
        split
        · exact hregister
        · exact hregister.failIn (List.getElem?_set_self (List.getElem?_eq_some_iff.mp hp).1) rfl .error

lemma Served.listen (h : Served w) (hp : w.endpoints[i]? = some (.listening session_id)) :
    Served (w.listen i answer session_id) := by
  rw [Server.listen]
  split
  · exact h.failIn hp rfl .error
  · split
    · exact h.moveTo hp rfl (fun _ => rfl) (by simp)
    · split
      · exact h.moveTo hp rfl (fun _ => rfl) (by simp)
      · exact h.failIn hp rfl .error

lemma Served.converse (h : Served w) (hp : w.endpoints[i]? = some (.chatting session_id)) (raised : Option Raised) :
    Served (w.converse i answer session_id raised) := by
  cases raised with
  | none =>
    rw [Server.converse]
    split <;> exact h.moveTo hp rfl (fun _ => rfl) (by simp)
  | some raised => cases raised <;> exact h.moveTo hp rfl (fun _ => rfl) (by simp)

lemma served_init : Served Server.init where
  sound := sound_empty
  roster _ := rfl
  nonempty _ h := by cases h
  nodup := List.nodup_nil
  arrived i session_id h := by cases h
  late i h := by cases h
  whole h := by cases h

lemma Served.accept (h : Served w) : Served { w with endpoints := w.endpoints ++ [.accepting] } := by
  have hsession : ({ w with endpoints := w.endpoints ++ [.accepting] } : Server).session = w.session := by
    funext j
    rw [Server.session, Server.session, List.getElem?_append]
    split
    · rfl
    · rename_i hj
      rw [List.getElem?_eq_none (l := w.endpoints) (by omega)]
      cases hlast : [Phase.accepting][j - w.endpoints.length]? with
      | none => rfl
      | some p =>
        rw [List.mem_singleton.mp (List.mem_of_getElem? hlast)]
        rfl
  refine ⟨h.sound, fun session_id => ?_, h.nonempty, h.nodup, fun j session_id hj => ?_, fun j hj => ?_, ?_⟩
  · rw [Server.live, hsession]
    exact h.roster session_id
  · exact h.arrived j session_id (hsession ▸ hj)
  · obtain ⟨p, hp, hp'⟩ := h.late j hj
    exact ⟨p, by rw [List.getElem?_append_left (List.getElem?_eq_some_iff.mp hp).1, hp], hp'⟩
  · intro hmem
    rcases List.mem_append.mp hmem with hmem | hmem
    · exact h.whole hmem
    · cases List.mem_singleton.mp hmem

lemma Served.resume (h : Served w) (hp : w.endpoints[i]? = some p) {raised : Option Raised}
    (ht : w.resume i answer p raised = some t) : Served t := by
  cases p with
  | accepting =>
    cases raised <;> cases ht
    · exact h.moveTo hp rfl (fun h => h) (by simp)
    · exact h.fail hp rfl _
  | greeting =>
    cases raised <;> cases ht
    · exact h.greet hp
    · exact h.fail hp rfl _
  | refusing =>
    cases raised <;> cases ht
    · exact h.moveTo hp rfl (fun h => h) (by simp)
    · exact h.fail hp rfl _
  | refused =>
    cases raised <;> cases ht
    · exact h.moveTo hp rfl (fun h => h) (by simp)
    · exact h.fail hp rfl _
  | listening session_id =>
    cases raised <;> cases ht
    · exact h.listen hp
    · exact h.failIn hp rfl _
  | chatting session_id =>
    cases ht
    exact h.converse hp raised
  | reporting session_id =>
    cases raised <;> cases ht
    · exact h.moveTo hp rfl (fun _ => rfl) (by simp)
    · exact h.failIn hp rfl _
  | closing =>
    cases ht
    exact h.moveTo hp rfl (fun h => h) (by simp)
  | _ => cases ht

lemma serve_served {action : Action} (h : Served w) (ht : serve w action = some t) : Served t := by
  cases action with
  | accept =>
    cases ht
    exact h.accept
  | answer i answer =>
    obtain ⟨p, hp, ht⟩ := Option.bind_eq_some_iff.mp ht
    exact h.resume hp ht

lemma reachable_served (h : Reachable serve Server.init w) : Served w :=
  reachable_invariant serve_served served_init h

lemma Served.mem_live (h : Served w) : i ∈ w.live session_id ↔ w.session i = some session_id := by
  rw [Server.live, List.mem_filter, decide_eq_true_iff]
  exact and_iff_right_of_imp (h.arrived i session_id)

lemma mem_roster_iff {W : Type} [DecidableEq W] {r : Registry W} {websocket : W} :
    Registered (.broadcastToSession session_id) r websocket ↔ websocket ∈ r.roster session_id := by
  rw [Registry.roster]
  cases h : r.find session_id with
  | none => simp [Registered, h]
  | some l => simp [Registered, h]

lemma Served.registered_iff (h : Served w) : Registered .broadcastGlobal w.registry i ↔ (w.session i).isSome := by
  constructor
  · intro hmem
    obtain ⟨l, -, hl⟩ := List.any_eq_true.mp hmem
    obtain ⟨id, hid⟩ := mem_roster h.sound (of_decide_eq_true hl)
    rw [h.roster, h.mem_live] at hid
    rw [hid]
    rfl
  · intro hsome
    obtain ⟨id, hid⟩ := Option.isSome_iff_exists.mp hsome
    rw [← h.mem_live, ← h.roster, ← mem_roster_iff] at hid
    obtain ⟨l, hl, hmem⟩ := hid
    exact List.any_eq_true.mpr ⟨(id, l), mem_items_of_find hl, decide_eq_true hmem⟩

end Step

/-- However the endpoints interleave, and wherever they fail, a session has in the table the sockets whose
endpoints are in its loop, each once and in the order in which they came, and no list is left empty; what
a broadcast goes over is this, and no handler raises for a socket that is not there. -/
theorem table_holds_live_sockets {w : Server} (h : Reachable serve Server.init w) :
    (∀ session_id, w.registry.roster session_id = w.live session_id ∧ (w.live session_id).Nodup ∧
      ((w.registry.find session_id).isSome ↔ w.live session_id ≠ [])) ∧
    (∀ i session_id, Registered (.broadcastToSession session_id) w.registry i ↔ w.session i = some session_id) ∧
    (∀ i, Registered .broadcastGlobal w.registry i ↔ (w.session i).isSome) ∧ Phase.broken ∉ w.endpoints := by
  have hs := reachable_served h
  refine ⟨fun session_id => ⟨hs.roster session_id, hs.nodup.filter _, ?_⟩, fun i session_id => ?_, fun i => hs.registered_iff,
    hs.whole⟩
  · rw [← hs.roster]
    refine ⟨hs.nonempty session_id, fun hne => ?_⟩
    rw [Registry.roster] at hne
    cases hfind : w.registry.find session_id with
    | none =>
      rw [hfind] at hne
      exact absurd rfl hne
    | some l => rfl
  · rw [mem_roster_iff, hs.roster, hs.mem_live]

/-- The first message of a client, and what is made of it. -/
def hello : Answer where
  data := some (.dict [("uid", .str "u"), ("did", .str "d")])
  session := some "sess_u_d_1"

/-- Two clients come to one session, and the first goes away. -/
def visit : List Action :=
  [.accept, .answer 0 {}, .accept, .answer 0 hello, .answer 1 {}, .answer 1 hello, .answer 0 { raised := some .disconnect }]

theorem visit_leaves_second : ∃ w, run serve Server.init visit = some w ∧ w.registry.roster "sess_u_d_1" = [1] := by
  have hw : run serve Server.init visit = some _ := rfl
  exact ⟨_, hw, ((table_holds_live_sockets ⟨visit, hw⟩).1 "sess_u_d_1").1⟩

/-! What is left of a cancelled endpoint. -/

section Cancelled

variable {w t : Server} {i j : ℕ} {session_id : String} {answer : Answer} {raised : Raised}

/-- An endpoint moves no other. -/
def Frame (j : ℕ) (w t : Server) : Prop := ∀ i, i ≠ j → t.endpoints[i]? = w.endpoints[i]?

lemma frame_moveTo {endpoints : List Phase} {registry : Registry ℕ} {arrivals : List ℕ} (h : endpoints = w.endpoints)
    (q : Phase) : Frame j w (Server.moveTo ⟨registry, endpoints, arrivals⟩ j q) := by
  intro i hi
  subst h
  exact List.getElem?_set_ne (Ne.symm hi)

lemma frame_failIn : Frame j w (w.failIn j session_id raised) := by
  have hleave : ∀ q, Frame j w (w.leave j session_id q) := by
    intro q
    rw [Server.leave]
    split <;> exact frame_moveTo rfl _
  cases raised with
  | cancelled => exact frame_moveTo rfl _
  | _ => exact hleave _

lemma frame_fail : Frame j w (w.fail j raised) := by
  cases raised <;> exact frame_moveTo rfl _

lemma frame_greet : Frame j w (w.greet j answer) := by
  rw [Server.greet]
  split
  · exact frame_fail
  · split
    · exact frame_moveTo rfl _
    · split
      · exact frame_fail
      · rename_i session_id _
        have hregister : Frame j w (w.register j answer session_id) := frame_moveTo rfl _
        split
        · exact hregister
        · exact fun i hi => (frame_failIn i hi).trans (hregister i hi)

lemma frame_listen : Frame j w (w.listen j answer session_id) := by
  rw [Server.listen]
  split
  · exact frame_failIn
  · split
    · exact frame_moveTo rfl _
    · split
      · exact frame_moveTo rfl _
      · exact frame_failIn

lemma frame_converse (raised : Option Raised) : Frame j w (w.converse j answer session_id raised) := by
  cases raised with
  | none => exact frame_moveTo rfl _
  | some raised => cases raised <;> exact frame_moveTo rfl _

lemma frame_resume {p : Phase} {raised : Option Raised} (ht : w.resume j answer p raised = some t) : Frame j w t := by
  cases p with
  | chatting session_id =>
    cases ht
    exact frame_converse raised
  | closing =>
    cases ht
    exact frame_moveTo rfl _
  | greeting =>
    cases raised <;> cases ht
    · exact frame_greet
    · exact frame_fail
  | listening session_id =>
    cases raised <;> cases ht
    · exact frame_listen
    · exact frame_failIn
  | reporting session_id =>
    cases raised <;> cases ht
    · exact frame_moveTo rfl _
    · exact frame_failIn
  | ended => cases ht
  | stranded session_id => cases ht
  | broken => cases ht
  | _ =>
    cases raised <;> cases ht
    · exact frame_moveTo rfl _
    · exact frame_fail

lemma serve_stranded {action : Action} (h : w.endpoints[i]? = some (.stranded session_id)) (ht : serve w action = some t) :
    t.endpoints[i]? = some (.stranded session_id) := by
  cases action with
  | accept =>
    cases ht
    exact (List.getElem?_append_left (List.getElem?_eq_some_iff.mp h).1).trans h
  | answer j answer =>
    obtain ⟨p, hp, ht⟩ := Option.bind_eq_some_iff.mp ht
    by_cases hi : i = j
    · subst hi
      obtain rfl := Option.some.inj (h.symm.trans hp)
      cases ht
    · exact (frame_resume ht i hi).trans h

end Cancelled

/-- The handlers do not run for a cancelled endpoint, so its socket stays in the table for good: a server
whose endpoints have all ended has an empty table exactly if none of them was cancelled in its loop. -/
theorem cancelled_sockets_stay {w t : Server} {actions : List Action} (h : Reachable serve Server.init w)
    (ht : run serve w actions = some t) :
    (∀ (i : ℕ) session_id, w.endpoints[i]? = some (.stranded session_id) → i ∈ t.registry.roster session_id) ∧
    ((∀ p ∈ t.endpoints, p = .ended ∨ ∃ session_id, p = .stranded session_id) →
      (t.registry.items = [] ↔ ∀ p ∈ t.endpoints, p = .ended)) := by
  obtain ⟨as, hw⟩ := h
  have hs := reachable_served ⟨as ++ actions, run_append.mpr ⟨w, hw, ht⟩⟩
  refine ⟨fun i session_id hi => ?_, fun hdone => ?_⟩
  · have hkept := run_invariant (P := fun _ _ => True) (fun h _ ht => serve_stranded h ht) hi
      (along_of_forall (fun _ _ => trivial) w actions) ht
    rw [hs.roster, hs.mem_live, Server.session, hkept]
    rfl
  · constructor
    · intro hempty p hp
      refine (hdone p hp).resolve_right ?_
      rintro ⟨session_id, rfl⟩
      obtain ⟨i, hi⟩ := List.mem_iff_getElem?.mp hp
      have hmem : i ∈ t.registry.roster session_id := by
        rw [hs.roster, hs.mem_live, Server.session, hi]
        rfl
      rw [Registry.roster, Registry.find, hempty] at hmem
      cases hmem
    · intro hended
      rw [List.eq_nil_iff_forall_not_mem]
      rintro ⟨session_id, l⟩ hitem
      have hfind := find_of_mem hs.sound hitem
      refine hs.nonempty session_id (by rw [hfind]; rfl) ?_
      rw [hs.roster, List.eq_nil_iff_forall_not_mem]
      intro i hi
      rw [hs.mem_live, Server.session, Option.bind_eq_some_iff] at hi
      obtain ⟨p, hp, hp'⟩ := hi
      rw [hended p (List.mem_of_getElem? hp)] at hp'
      cases hp'

def cancelSecond : List Action := visit ++ [.answer 1 { raised := some .cancelled }]

theorem second_stays : ∃ w t, run serve Server.init cancelSecond = some w ∧ run serve w [.accept] = some t ∧
    1 ∈ t.registry.roster "sess_u_d_1" := by
  have ht : run serve Server.init (cancelSecond ++ [.accept]) = some _ := rfl
  obtain ⟨w, hw, ht⟩ := run_append.mp ht
  refine ⟨w, _, hw, ht, (cancelled_sockets_stay ⟨cancelSecond, hw⟩ ht).1 1 "sess_u_d_1" ?_⟩
  cases hw
  rfl

end OpsSentry.Agent.Connections
