import Mathlib.Data.List.Infix
import Mathlib.Data.String.Basic
import Mathlib.Tactic.Common

/-! `session_manager.py`: the sessions that `get_or_create_session` names after a user and an agent,
and those that `list_user_sessions` reads back from the names. -/

namespace OpsSentry.Agent.Sessions

structure SessionEntry where
  id : String
  uid : String
  did : String
  history_path : List String
  created_at : String
  updated_at : String

/-- A uid or a did: not empty, and a single component of a path. -/
def IsName (name : String) : Prop := name ≠ "" ∧ '/' ∉ name.toList

instance (name : String) : Decidable (IsName name) := inferInstanceAs (Decidable (_ ∧ _))

/-- What `get_or_create_session` is called with, and what `datetime.now` gives it. -/
structure Creation where
  uid : String
  did : String
  timestamp : ℤ
  isoformat : String
  valid : IsName uid ∧ IsName did

def Creation.session_id (c : Creation) : String :=
  "sess_" ++ c.uid ++ "_" ++ c.did ++ "_" ++ toString c.timestamp

/-- The names in `sessions_dir`. -/
abbrev SessionsDir := List String

def getOrCreateSession (c : Creation) (dir : SessionsDir) : SessionsDir × SessionEntry :=
  (if c.session_id ∈ dir then dir else dir ++ [c.session_id],
    { id := c.session_id, uid := c.uid, did := c.did, history_path := [c.session_id, "history.jsonl"],
      created_at := c.isoformat, updated_at := c.isoformat })

def split (name : String) : List String := (name.toList.splitOn '_').map String.ofList

/-- An `IndexError` is `none`. -/
def listUserSessions (uid : String) (dir : SessionsDir) : Option (List SessionEntry) :=
  (dir.filter fun name => ("sess_" ++ uid ++ "_").toList.isPrefixOf name.toList).mapM fun name =>
    (split name)[2]?.map fun did =>
      { id := name, uid, did, history_path := [name, "history.jsonl"], created_at := "", updated_at := "" }

def create (cs : List Creation) : SessionsDir := cs.foldl (fun dir c => (getOrCreateSession c dir).1) []

/-- Of the sessions created, those of `uid` are listed with their did, and no others. -/
def Separates (cs : List Creation) (uid : String) : Prop :=
  ∃ listed, listUserSessions uid (create cs) = some listed ∧
    (∀ e ∈ listed, ∃ c ∈ cs, e.id = c.session_id) ∧
    ∀ c ∈ cs, if c.uid = uid then
        (∃ e ∈ listed, e.id = c.session_id) ∧ ∀ e ∈ listed, e.id = c.session_id → e.did = c.did
      else ∀ e ∈ listed, e.id ≠ c.session_id

/-- Between uid and did no other `_` is read as the separator, and the session of another user does
not start like one of `uid`. -/
def Condition (cs : List Creation) (uid : String) : Prop :=
  ∀ c ∈ cs, if c.uid = uid then (split c.uid ++ split c.did)[1]? = some c.did
    else ¬ (uid ++ "_").toList <+: (c.uid ++ "_" ++ c.did ++ "_" ++ toString c.timestamp).toList

lemma mem_create {cs : List Creation} {name : String} :
    name ∈ create cs ↔ ∃ c ∈ cs, name = c.session_id := by
  have hfold : ∀ dir : SessionsDir, name ∈ cs.foldl (fun dir c => (getOrCreateSession c dir).1) dir ↔
      name ∈ dir ∨ ∃ c ∈ cs, name = c.session_id := by
    induction cs with
    | nil => simp
    | cons c cs ih =>
      intro dir
      simp only [List.foldl_cons, ih, List.mem_cons, exists_eq_or_imp, ← or_assoc]
      refine or_congr_left ?_
      rw [getOrCreateSession]
      split
      · rename_i hmem
        exact ⟨Or.inl, fun h => h.elim id fun hname => hname ▸ hmem⟩
      · rw [List.mem_append, List.mem_singleton]
  simpa [create] using hfold []

lemma split_append (s t : String) : split (s ++ "_" ++ t) = split s ++ split t := by
  rw [split, split, split, ← List.map_append]
  congr 1
  have hlist : (s ++ "_" ++ t).toList = s.toList ++ '_' :: t.toList := by simp
  rw [hlist]
  exact List.splitOnP_append_cons s.toList t.toList (beq_self_eq_true '_')

lemma split_session_id (c : Creation) :
    split c.session_id = "sess" :: (split c.uid ++ split c.did ++ split (toString c.timestamp)) := by
  have hname : c.session_id = "sess" ++ "_" ++ (c.uid ++ "_" ++ c.did ++ "_" ++ toString c.timestamp) := by
    simp only [Creation.session_id, String.append_assoc]
    rfl
  have hsess : split "sess" = ["sess"] := by decide
  rw [hname, split_append, split_append, split_append, hsess]
  rfl

lemma split_ne_nil (name : String) : split name ≠ [] := by
  rw [split, ne_eq, List.map_eq_nil_iff]
  exact List.splitOnP_ne_nil _ _

lemma third_session_id (c : Creation) : (split c.session_id)[2]? = (split c.uid ++ split c.did)[1]? := by
  have huid := List.length_pos_of_ne_nil (split_ne_nil c.uid)
  have hdid := List.length_pos_of_ne_nil (split_ne_nil c.did)
  rw [split_session_id, List.getElem?_cons_succ, List.getElem?_append_left]
  rw [List.length_append]
  omega

lemma exists_third (c : Creation) : ∃ did, (split c.session_id)[2]? = some did := by
  have huid := List.length_pos_of_ne_nil (split_ne_nil c.uid)
  have hdid := List.length_pos_of_ne_nil (split_ne_nil c.did)
  rw [third_session_id]
  refine ⟨_, List.getElem?_eq_getElem ?_⟩
  rw [List.length_append]
  omega

lemma starts_iff (c : Creation) (uid : String) :
    ("sess_" ++ uid ++ "_").toList.isPrefixOf c.session_id.toList = true ↔
      (uid ++ "_").toList <+: (c.uid ++ "_" ++ c.did ++ "_" ++ toString c.timestamp).toList := by
  have hname : c.session_id = "sess_" ++ (c.uid ++ "_" ++ c.did ++ "_" ++ toString c.timestamp) := by
    simp only [Creation.session_id, String.append_assoc]
  have hlist (t : String) : ("sess_" ++ t).toList = "sess_".toList ++ t.toList := String.toList_append
  rw [List.isPrefixOf_iff_prefix, hname, String.append_assoc, hlist, hlist, List.prefix_append_right_inj]

lemma mapM_some {α β : Type} (f : α → Option β) (xs : List α) (h : ∀ x ∈ xs, ∃ y, f x = some y) :
    ∃ ys, xs.mapM f = some ys ∧ ∀ y, y ∈ ys ↔ ∃ x ∈ xs, f x = some y := by
  induction xs with
  | nil => exact ⟨[], rfl, by simp⟩
  | cons x xs ih =>
    obtain ⟨y, hy⟩ := h x List.mem_cons_self
    obtain ⟨ys, hys, hmem⟩ := ih fun x hx => h x (List.mem_cons_of_mem _ hx)
    refine ⟨y :: ys, by simp [hy, hys], fun z => ?_⟩
    simp only [List.mem_cons, exists_eq_or_imp, hmem, hy, Option.some.injEq]
    exact or_congr_left eq_comm

def entryOf (uid name did : String) : SessionEntry :=
  { id := name, uid, did, history_path := [name, "history.jsonl"], created_at := "", updated_at := "" }

lemma listUserSessions_create (cs : List Creation) (uid : String) :
    ∃ listed, listUserSessions uid (create cs) = some listed ∧ ∀ e, e ∈ listed ↔
      ∃ c ∈ cs, (uid ++ "_").toList <+: (c.uid ++ "_" ++ c.did ++ "_" ++ toString c.timestamp).toList ∧
        ∃ did, (split c.uid ++ split c.did)[1]? = some did ∧ e = entryOf uid c.session_id did := by
  obtain ⟨listed, hlisted, hmem⟩ := mapM_some
    (fun name => (split name)[2]?.map (entryOf uid name))
    ((create cs).filter fun name => ("sess_" ++ uid ++ "_").toList.isPrefixOf name.toList) (by
      intro name hname
      obtain ⟨c, -, rfl⟩ := mem_create.mp (List.mem_of_mem_filter hname)
      obtain ⟨did, hdid⟩ := exists_third c
      exact ⟨_, congrArg (Option.map _) hdid⟩)
  refine ⟨listed, hlisted, fun e => ?_⟩
  rw [hmem]
  constructor
  · rintro ⟨name, hname, he⟩
    rw [List.mem_filter, mem_create] at hname
    obtain ⟨⟨c, hc, rfl⟩, hstarts⟩ := hname
    obtain ⟨did, hdid, rfl⟩ := Option.map_eq_some_iff.mp he
    exact ⟨c, hc, (starts_iff c uid).mp hstarts, did, third_session_id c ▸ hdid, rfl⟩
  · rintro ⟨c, hc, hstarts, did, hdid, rfl⟩
    refine ⟨c.session_id, List.mem_filter.mpr ⟨mem_create.mpr ⟨c, hc, rfl⟩, (starts_iff c uid).mpr hstarts⟩, ?_⟩
    rw [third_session_id, hdid]
    rfl

lemma starts_self (c : Creation) :
    (c.uid ++ "_").toList <+: (c.uid ++ "_" ++ c.did ++ "_" ++ toString c.timestamp).toList := by
  rw [String.append_assoc, String.append_assoc, String.toList_append (s := c.uid ++ "_")]
  exact List.prefix_append _ _

lemma Separates.condition {cs : List Creation} {uid : String} (h : Separates cs uid) :
    Condition cs uid := by
  obtain ⟨listed, hlisted, hmem⟩ := listUserSessions_create cs uid
  obtain ⟨listed', hlisted', -, hall⟩ := h
  cases hlisted.symm.trans hlisted'
  intro c hc
  have hsession := hall c hc
  obtain ⟨did, hdid⟩ := exists_third c
  rw [third_session_id] at hdid
  split at hsession
  · rename_i huid
    have he := (hmem (entryOf uid c.session_id did)).mpr ⟨c, hc, huid ▸ starts_self c, did, hdid, rfl⟩
    rw [if_pos huid, hdid, ← hsession.2 _ he rfl]
    rfl
  · rename_i huid
    rw [if_neg huid]
    exact fun hstarts => hsession _ ((hmem _).mpr ⟨c, hc, hstarts, did, hdid, rfl⟩) rfl

lemma Condition.separates {cs : List Creation} {uid : String} (h : Condition cs uid) :
    Separates cs uid := by
  obtain ⟨listed, hlisted, hmem⟩ := listUserSessions_create cs uid
  refine ⟨listed, hlisted, fun e he => ?_, fun c hc => ?_⟩
  · obtain ⟨c, hc, -, did, -, rfl⟩ := (hmem e).mp he
    exact ⟨c, hc, rfl⟩
  · have hsession := h c hc
    split at hsession
    · rename_i huid
      rw [if_pos huid]
      obtain ⟨did, hdid⟩ := exists_third c
      rw [third_session_id] at hdid
      refine ⟨⟨_, (hmem _).mpr ⟨c, hc, huid ▸ starts_self c, did, hdid, rfl⟩, rfl⟩, fun e he hid => ?_⟩
      obtain ⟨c', -, -, did', hdid', rfl⟩ := (hmem e).mp he
      -- Whoever was created under the same name, the third piece is that of the name.
      rw [← third_session_id, show c'.session_id = c.session_id from hid, third_session_id, hsession] at hdid'
      exact (Option.some.inj hdid').symm
    · rename_i huid
      rw [if_neg huid]
      intro e he hid
      obtain ⟨c', -, hstarts, did', -, rfl⟩ := (hmem e).mp he
      rw [← starts_iff, show c'.session_id = c.session_id from hid, starts_iff] at hstarts
      exact hsession hstarts

end OpsSentry.Agent.Sessions
