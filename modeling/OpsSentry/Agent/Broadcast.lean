import OpsSentry.Agent.ConnectionManager

/-! Which clients a broadcast reaches while others come and go. -/

namespace OpsSentry.Agent.Connections

open Foundation.Runs Foundation.Values

variable {W : Type}

/-! What holds of the table of connections at any time. -/

structure Sound (r : Registry W) : Prop where
  nodup : ∀ l, (r.lists l).Nodup
  apart : ∀ {l l' w}, w ∈ r.lists l → w ∈ r.lists l' → l = l'
  held : ∀ {l w}, w ∈ r.lists l → l ∈ r.items.map Prod.snd
  refs : (r.items.map Prod.snd).Nodup
  ids : (r.items.map Prod.fst).Nodup
  fresh : ∀ l ∈ r.items.map Prod.snd, l < r.fresh

section Registry

variable {r : Registry W} {session_id : String} {websocket w : W} {l : Ref}

lemma items_connect (h : r.find session_id = none) (websocket : W) (rebuilt : Bool) :
    (r.connect session_id websocket rebuilt).items = r.items ++ [(session_id, r.fresh)] := by
  have hfilter : (r.entries.filter Option.isSome).filterMap id = r.items := by
    rw [List.filterMap_filter, Registry.items]
    congr 1
    funext entry
    cases entry <;> rfl
  rw [Registry.connect, h]
  change ((if rebuilt then r.entries.filter Option.isSome else r.entries) ++ [some (session_id, r.fresh)]).filterMap id = _
  rw [List.filterMap_append]
  cases rebuilt with
  | false => rfl
  | true => exact congrArg (· ++ [(session_id, r.fresh)]) hfilter

lemma items_delete : (r.delete session_id).filterMap id = r.items.filter fun p => p.1 ≠ session_id := by
  rw [Registry.delete, Registry.items, List.filterMap_map]
  induction r.entries with
  | nil => rfl
  | cons entry entries ih =>
    cases entry with
    | none => simpa using ih
    | some p =>
      by_cases hp : p.1 = session_id
      · simpa [hp] using ih
      · simpa [Option.filter_some, hp] using ih

lemma mem_items_of_find (h : r.find session_id = some l) : (session_id, l) ∈ r.items := by
  obtain ⟨xs, ys, hitems, -⟩ := List.lookup_eq_some_iff.mp h
  rw [hitems]
  exact List.mem_append_right _ List.mem_cons_self

lemma sound_empty : Sound (Registry.empty : Registry W) where
  nodup _ := List.nodup_nil
  apart h := absurd h List.not_mem_nil
  held h := absurd h List.not_mem_nil
  refs := List.nodup_nil
  ids := List.nodup_nil
  fresh _ h := absurd h List.not_mem_nil

variable [DecidableEq W]

lemma not_mem_of_not_registered (hr : Sound r) (h : r.registered websocket = false) (l : Ref) :
    websocket ∉ r.lists l := by
  intro hmem
  obtain ⟨p, hp, rfl⟩ := List.mem_map.mp (hr.held hmem)
  rw [Registry.registered, List.any_eq_false] at h
  exact h p hp (decide_eq_true hmem)

omit [DecidableEq W] in
lemma find_none_iff : r.find session_id = none ↔ session_id ∉ r.items.map Prod.fst := by
  rw [Registry.find, List.lookup_eq_none_iff]
  constructor
  · intro h hmem
    obtain ⟨p, hp, rfl⟩ := List.mem_map.mp hmem
    exact absurd (h p hp) (by simp)
  · intro h p hp
    have hne : session_id ≠ p.1 := by
      rintro rfl
      exact h (List.mem_map_of_mem hp)
    simpa using hne

omit [DecidableEq W] in
lemma fresh_nil (hr : Sound r) : r.lists r.fresh = [] := by
  rw [List.eq_nil_iff_forall_not_mem]
  intro w hw
  exact absurd (hr.fresh _ (hr.held hw)) (Nat.lt_irrefl _)

omit [DecidableEq W] in
lemma mem_connect (hr : Sound r) (session_id : String) (websocket : W) (rebuilt : Bool) :
    ∃ l₀ ∈ (r.connect session_id websocket rebuilt).items.map Prod.snd, ∀ l w,
      w ∈ (r.connect session_id websocket rebuilt).lists l ↔ w ∈ r.lists l ∨ w = websocket ∧ l = l₀ := by
  cases h : r.find session_id with
  | some l₀ =>
    refine ⟨l₀, ?_, fun l w => ?_⟩
    · rw [Registry.connect, h]
      exact List.mem_map_of_mem (f := Prod.snd) (mem_items_of_find h)
    · rw [Registry.connect, h]
      by_cases hl : l = l₀
      · simp [hl]
      · simp [hl]
  | none =>
    refine ⟨r.fresh, ?_, fun l w => ?_⟩
    · rw [items_connect h websocket rebuilt, List.map_append]
      exact List.mem_append_right _ List.mem_cons_self
    · rw [Registry.connect, h]
      by_cases hl : l = r.fresh
      · simp [hl, fresh_nil hr]
      · simp [hl]

lemma Sound.connect (hr : Sound r) (hnew : r.registered websocket = false) (rebuilt : Bool) :
    Sound (r.connect session_id websocket rebuilt) := by
  have hnot := not_mem_of_not_registered hr hnew
  obtain ⟨l₀, hl₀, hmem⟩ := mem_connect hr session_id websocket rebuilt
  have hapart : ∀ {l l' w}, w ∈ (r.connect session_id websocket rebuilt).lists l →
      w ∈ (r.connect session_id websocket rebuilt).lists l' → l = l' := by
    intro l l' w hw hw'
    rw [hmem] at hw hw'
    rcases hw with hw | ⟨hnew, hl⟩ <;> rcases hw' with hw' | ⟨hnew', hl'⟩
    · exact hr.apart hw hw'
    · exact absurd (hnew' ▸ hw) (hnot l)
    · exact absurd (hnew ▸ hw') (hnot l')
    · exact hl.trans hl'.symm
  cases h : r.find session_id with
  | some l =>
    have hitems : (r.connect session_id websocket rebuilt).items = r.items := by
      rw [Registry.connect, h]
      rfl
    have hfresh : (r.connect session_id websocket rebuilt).fresh = r.fresh := by rw [Registry.connect, h]
    refine ⟨fun l' => ?_, hapart, fun hw => ?_, hitems ▸ hr.refs, hitems ▸ hr.ids, ?_⟩
    · rw [Registry.connect, h]
      by_cases hl : l' = l
      · subst hl
        simp only [Function.update_self]
        exact (hr.nodup l').append (List.nodup_singleton _) (by simpa using hnot l')
      · simpa only [Function.update_of_ne hl] using hr.nodup l'
    · rcases (hmem _ _).mp hw with hw | ⟨-, rfl⟩
      · exact hitems ▸ hr.held hw
      · exact hl₀
    · rw [hitems, hfresh]
      exact hr.fresh
  | none =>
    have hitems := items_connect h websocket rebuilt
    have hfresh : (r.connect session_id websocket rebuilt).fresh = r.fresh + 1 := by rw [Registry.connect, h]
    refine ⟨fun l' => ?_, hapart, fun hw => ?_, ?_, ?_, ?_⟩
    · rw [Registry.connect, h]
      by_cases hl : l' = r.fresh
      · simp only [hl, Function.update_self]
        exact List.nodup_singleton _
      · simpa only [Function.update_of_ne hl] using hr.nodup l'
    · rcases (hmem _ _).mp hw with hw | ⟨-, rfl⟩
      · rw [hitems, List.map_append]
        exact List.mem_append_left _ (hr.held hw)
      · exact hl₀
    · rw [hitems, List.map_append]
      refine hr.refs.append (List.nodup_singleton _) ?_
      intro l hl hl'
      rw [List.map_singleton, List.mem_singleton] at hl'
      exact absurd (hr.fresh l hl) (hl' ▸ Nat.lt_irrefl _)
    · rw [hitems, List.map_append]
      refine hr.ids.append (List.nodup_singleton _) ?_
      intro i hi hi'
      obtain rfl : i = session_id := List.mem_singleton.mp hi'
      exact find_none_iff.mp h hi
    · rw [hitems, hfresh]
      intro l hl
      rw [List.map_append, List.mem_append, List.map_singleton, List.mem_singleton] at hl
      rcases hl with hl | rfl
      · exact Nat.lt_succ_of_lt (hr.fresh l hl)
      · exact Nat.lt_succ_self _

lemma Sound.disconnect (hr : Sound r) : Sound (r.disconnect session_id websocket) := by
  rw [Registry.disconnect]
  cases h : r.find session_id with
  | none => exact hr
  | some l =>
    dsimp only
    split
    · have hmem : ∀ {l' w}, w ∈ Function.update r.lists l ((r.lists l).erase websocket) l' → w ∈ r.lists l' := by
        intro l' w hw
        by_cases hl : l' = l
        · subst hl
          rw [Function.update_self] at hw
          exact List.mem_of_mem_erase hw
        · rwa [Function.update_of_ne hl] at hw
      have hsub : (Registry.items ⟨if (r.lists l).erase websocket = [] then r.delete session_id else r.entries,
          Function.update r.lists l ((r.lists l).erase websocket), r.fresh⟩).Sublist r.items := by
        rw [Registry.items]
        split
        · rw [items_delete]
          exact List.filter_sublist
        · exact List.Sublist.refl _
      refine ⟨fun l' => ?_, fun hw hw' => hr.apart (hmem hw) (hmem hw'), fun {l' w} hw => ?_,
        hr.refs.sublist (hsub.map _), hr.ids.sublist (hsub.map _), fun l' hl' => hr.fresh l' ((hsub.map _).subset hl')⟩
      · by_cases hl : l' = l
        · subst hl
          simpa only [Function.update_self] using (hr.nodup l').erase websocket
        · simpa only [Function.update_of_ne hl] using hr.nodup l'
      · rw [Registry.items]
        split
        · rename_i hempty
          obtain ⟨p, hp, rfl⟩ := List.mem_map.mp (hr.held (hmem hw))
          have hl : p.2 ≠ l := by
            intro heq
            dsimp only at hw
            rw [heq, Function.update_self, hempty] at hw
            exact List.not_mem_nil hw
          -- The id that is deleted is that of the list that has become empty.
          have hid : p.1 ≠ session_id := by
            intro heq
            have hsame := List.inj_on_of_nodup_map hr.ids hp (mem_items_of_find h) heq
            exact hl (congrArg Prod.snd hsame)
          rw [items_delete]
          exact List.mem_map_of_mem (List.mem_filter.mpr ⟨hp, by simpa using hid⟩)
        · exact hr.held (hmem hw)
    · exact hr

end Registry

lemma mem_drop_erase [DecidableEq W] {xs : List W} {w websocket : W} (hne : w ≠ websocket) {i : ℕ}
    (h : websocket ∈ xs.take i → xs[i]? ≠ some w) : w ∈ (xs.erase websocket).drop i ↔ w ∈ xs.drop i := by
  by_cases htake : websocket ∈ xs.take i
  · have hsplit : xs.erase websocket = (xs.take i).erase websocket ++ xs.drop i := by
      conv_lhs => rw [← List.take_append_drop i xs]
      exact List.erase_append_left _ htake
    have hpos := List.length_pos_of_mem htake
    have hlength := List.length_erase_of_mem htake
    rw [List.length_take] at hlength hpos
    rw [hsplit, List.drop_append, List.drop_eq_nil_of_le (by omega), List.nil_append]
    rcases Nat.lt_or_ge i xs.length with hi | hi
    · rw [hlength, Nat.min_eq_left (Nat.le_of_lt hi), List.drop_drop, List.drop_eq_getElem_cons hi, List.mem_cons]
      have hother : w ≠ xs[i] := fun heq => h htake (by rw [heq]; exact List.getElem?_eq_getElem hi)
      rw [or_iff_right hother]
      have hone : i + (i - (i - 1)) = i + 1 := by omega
      rw [hone]
    · rw [List.drop_eq_nil_of_le hi, List.drop_nil]
  · have hsplit : xs.erase websocket = xs.take i ++ (xs.drop i).erase websocket := by
      conv_lhs => rw [← List.take_append_drop i xs]
      exact List.erase_append_right _ htake
    rcases Nat.lt_or_ge i xs.length with hi | hi
    · have hlength : (xs.take i).length = i := List.length_take_of_le (Nat.le_of_lt hi)
      rw [hsplit, List.drop_append, hlength, Nat.sub_self, List.drop_eq_nil_of_le (Nat.le_of_eq hlength),
        List.nil_append, List.drop_zero, List.mem_erase_of_ne hne]
    · rw [hsplit, List.drop_eq_nil_of_le hi, List.erase_nil, List.append_nil, List.take_of_length_le hi,
        List.drop_eq_nil_of_le hi]

/-! What the iterators have yet to give. -/

section Loops

variable {r : Registry W} {cursor : Cursor} {w : W}

def restFrom (r : Registry W) (pos : ℕ) : List Ref := ((r.entries.drop pos).filterMap id).map Prod.snd

/-- The lists of the sessions that the loop has not come to. -/
def rest (r : Registry W) : Option DictIter → List Ref
  | none => []
  | some it => restFrom r it.pos

def Pending (r : Registry W) (cursor : Cursor) (w : W) : Prop :=
  (∃ l i, cursor.connections = some (l, i) ∧ w ∈ (r.lists l).drop i) ∨ ∃ l ∈ rest r cursor.sessions, w ∈ r.lists l

lemma pending_some (r : Registry W) (l : Ref) (i : ℕ) (sessions : Option DictIter) (w : W) :
    Pending r ⟨some (l, i), sessions⟩ w ↔ w ∈ (r.lists l).drop i ∨ ∃ l ∈ rest r sessions, w ∈ r.lists l := by
  rw [Pending]
  refine or_congr_left ⟨?_, fun h => ⟨l, i, rfl, h⟩⟩
  rintro ⟨l, i, ⟨⟩, h⟩
  exact h

/-- The iterator of the dict is one that began with the entries as they are. -/
def Fit (r : Registry W) (cursor : Cursor) : Prop :=
  ∀ it, cursor.sessions = some it → it.used = r.items.length ∧ it.len = (restFrom r it.pos).length ∧
    ∀ l i, cursor.connections = some (l, i) → l ∉ restFrom r it.pos

inductive Advanced (r : Registry W) (cursor : Cursor) : Advance W → Prop
  | returned (h : ∀ w, ¬ Pending r cursor w) : Advanced r cursor (.returned, [])
  | sending {next : Cursor} {c : W} (hfit : Fit r next) (hform : next.sessions.isSome = cursor.sessions.isSome)
      (hc : Pending r cursor c) (hrest : ∀ w, Pending r next w ↔ Pending r cursor w ∧ w ≠ c) :
      Advanced r cursor (.sending next, [c])

lemma restFrom_cons {entries : List (Option (String × Ref))} {entry : Option (String × Ref)} {pos : ℕ}
    (h : r.entries.drop pos = entry :: entries) :
    r.entries.drop (pos + 1) = entries ∧ restFrom r pos = entry.toList.map Prod.snd ++ restFrom r (pos + 1) := by
  have htail : r.entries.drop (pos + 1) = entries := by
    rw [← List.drop_drop, h]
    rfl
  refine ⟨htail, ?_⟩
  rw [restFrom, restFrom, h, htail]
  cases entry <;> rfl

lemma nodup_restFrom (hr : Sound r) (pos : ℕ) : (restFrom r pos).Nodup :=
  hr.refs.sublist (((List.drop_sublist _ _).filterMap id).map _)

lemma nextSession_advanced (hr : Sound r) (hform : cursor.sessions.isSome)
    {entries : List (Option (String × Ref))}
    {pos len : ℕ} (hentries : r.entries.drop pos = entries) (hlen : len = (restFrom r pos).length)
    (hrest : ∀ w, Pending r cursor w ↔ ∃ l ∈ restFrom r pos, w ∈ r.lists l) :
    Advanced r cursor (nextSession r r.items.length entries pos len) := by
  induction entries generalizing pos len with
  | nil =>
    refine .returned fun w => ?_
    rw [hrest, restFrom, hentries]
    rintro ⟨l, hl, -⟩
    cases hl
  | cons entry entries ih =>
    obtain ⟨htail, hsplit⟩ := restFrom_cons hentries
    cases entry with
    | none =>
      rw [nextSession]
      exact ih htail (hlen.trans (by rw [hsplit]; rfl)) fun w => (hrest w).trans (by rw [hsplit]; rfl)
    | some p =>
      obtain ⟨session_id, l⟩ := p
      have hcons : restFrom r pos = l :: restFrom r (pos + 1) := hsplit
      rw [hcons, List.length_cons] at hlen
      have hnodup := nodup_restFrom hr pos
      rw [hcons, List.nodup_cons] at hnodup
      rw [nextSession, if_neg (by omega)]
      cases hlist : r.lists l with
      | nil =>
        refine ih htail (by omega) fun w => ?_
        rw [hrest, hcons]
        simp [hlist]
      | cons c cs =>
        have hnodup' := hr.nodup l
        rw [hlist, List.nodup_cons] at hnodup'
        refine .sending ?_ (by rw [hform]; rfl) ((hrest c).mpr ⟨l, hcons ▸ List.mem_cons_self, hlist ▸ List.mem_cons_self⟩)
          fun w => ?_
        · rintro it ⟨⟩
          refine ⟨rfl, by dsimp only; omega, ?_⟩
          rintro l' i ⟨⟩
          exact hnodup.1
        · have hlater : (∃ l' ∈ restFrom r (pos + 1), w ∈ r.lists l') → w ≠ c := by
            rintro ⟨l', hl', hw⟩ rfl
            have hsame : l = l' := hr.apart (hlist ▸ List.mem_cons_self) hw
            exact hnodup.1 (hsame ▸ hl')
          rw [hrest, hcons, pending_some, hlist]
          constructor
          · rintro (hw | hw)
            · refine ⟨⟨l, List.mem_cons_self, hlist ▸ List.mem_cons_of_mem _ hw⟩, ?_⟩
              rintro rfl
              exact hnodup'.1 hw
            · obtain ⟨l', hl', hmem⟩ := hw
              exact ⟨⟨l', List.mem_cons_of_mem _ hl', hmem⟩, hlater ⟨l', hl', hmem⟩⟩
          · rintro ⟨⟨l', hl', hw⟩, hne⟩
            rcases List.mem_cons.mp hl' with rfl | hl'
            · rw [hlist, List.mem_cons] at hw
              exact Or.inl (hw.resolve_left hne)
            · exact Or.inr ⟨l', hl', hw⟩

lemma advanceSessions_advanced (hr : Sound r) (hfit : Fit r cursor)
    (hpending : ∀ w, Pending r cursor w ↔ ∃ l ∈ rest r cursor.sessions, w ∈ r.lists l) :
    Advanced r cursor (advanceSessions r cursor.sessions) := by
  cases hsessions : cursor.sessions with
  | none =>
    refine .returned fun w => ?_
    rw [hpending, hsessions]
    rintro ⟨l, hl, -⟩
    cases hl
  | some it =>
    obtain ⟨hused, hlen, -⟩ := hfit it hsessions
    rw [advanceSessions, if_neg (by simpa using hused), hused]
    rw [hsessions] at hpending
    exact nextSession_advanced hr (by rw [hsessions]; rfl) rfl hlen hpending

lemma advance_advanced (hr : Sound r) (hfit : Fit r cursor) : Advanced r cursor (advance r cursor) := by
  obtain ⟨connections, sessions⟩ := cursor
  cases connections with
  | none =>
    refine advanceSessions_advanced hr hfit fun w => ?_
    rw [Pending]
    simp
  | some p =>
    obtain ⟨l, i⟩ := p
    rw [advance]
    dsimp only
    cases hnext : (r.lists l)[i]? with
    | none =>
      refine advanceSessions_advanced hr hfit fun w => ?_
      rw [pending_some, List.drop_eq_nil_of_le (List.getElem?_eq_none_iff.mp hnext)]
      simp
    | some c =>
      obtain ⟨hi, hc⟩ := List.getElem?_eq_some_iff.mp hnext
      have hdrop : (r.lists l).drop i = c :: (r.lists l).drop (i + 1) := by rw [List.drop_eq_getElem_cons hi, hc]
      have hnodup := (hr.nodup l).sublist (List.drop_sublist i _)
      rw [hdrop, List.nodup_cons] at hnodup
      refine .sending ?_ rfl ((pending_some _ _ _ _ _).mpr (Or.inl (hdrop ▸ List.mem_cons_self))) fun w => ?_
      · rintro it hit
        obtain ⟨hused, hlen, hnot⟩ := hfit it hit
        refine ⟨hused, hlen, ?_⟩
        rintro l' i' ⟨⟩
        exact hnot l i rfl
      · have hlater : (∃ l' ∈ rest r sessions, w ∈ r.lists l') → w ≠ c := by
          rintro ⟨l', hl', hw⟩ rfl
          have hsame : l = l' := hr.apart (hc ▸ List.getElem_mem hi) hw
          cases sessions with
          | none => cases hl'
          | some it => exact (hfit it rfl).2.2 l i rfl (hsame ▸ hl')
        rw [pending_some, pending_some, hdrop, List.mem_cons]
        constructor
        · rintro (hw | hw)
          · refine ⟨Or.inl (Or.inr hw), ?_⟩
            rintro rfl
            exact hnodup.1 hw
          · exact ⟨Or.inr hw, hlater hw⟩
        · rintro ⟨(hw | hw) | hw, hne⟩
          · exact absurd hw hne
          · exact Or.inl hw
          · exact Or.inr hw

end Loops

/-! What is asked of those who come and go. -/

section Steps

variable [DecidableEq W]

/-- The client whose turn comes next in the list that is iterated over, where another one leaves a
place there that the iterator has passed. -/
def overtaken (u : State W) : Event W → Option W
  | .change (.disconnect session_id websocket) =>
    match u.progress with
    | .sending ⟨some (l, i), _⟩ =>
      if u.registry.find session_id = some l ∧ websocket ∈ (u.registry.lists l).take i then (u.registry.lists l)[i]? else none
    | _ => none
  | _ => none

/-- No session is new and none goes while `broadcast_global` waits. -/
def Steady (form : Form) (u : State W) : Event W → Prop
  | .change c => form = .broadcastGlobal → (∃ cursor, u.progress = .sending cursor) →
      ∀ r, change u.registry c = some r → r.entries = u.registry.entries
  | .resume _ => True

/-- The message is JSON, the sessions stay while all of them are iterated over, and no client that
stays is overtaken. -/
def Condition (form : Form) (message : Dict) (r : Registry W) (events : List (Event W)) : Prop :=
  (refusedDict message = none ∨ ∀ w, ¬ Registered form r w) ∧
    Along step (Steady form) (start form message r) events ∧
    ∀ w, Stable form (start form message r) events w →
      Along step (fun u e => overtaken u e ≠ some w) (start form message r) events

/-- The iterators fit the table. -/
structure Base (form : Form) (u : State W) : Prop where
  sound : Sound u.registry
  fit : ∀ cursor, u.progress = .sending cursor → Fit u.registry cursor ∧
    (cursor.sessions.isSome → form = .broadcastGlobal)
  quiet : u.progress ≠ .raised

/-- How often a client has been sent the message. -/
def Track (u : State W) (w : W) : Prop :=
  match u.progress with
  | .sending cursor => (Pending u.registry cursor w → u.sent.count w = 0) ∧
      (¬ Pending u.registry cursor w → u.sent.count w = 1)
  | .returned => u.sent.count w = 1
  | .raised => False

lemma sound_change {r r' : Registry W} {c : Change W} (hr : Sound r) (h : change r c = some r') : Sound r' := by
  cases c with
  | connect session_id websocket rebuilt =>
    rw [change] at h
    split at h
    · cases h
    · rename_i hnew
      cases h
      exact hr.connect (by simpa using hnew) rebuilt
  | disconnect session_id websocket =>
    cases h
    exact hr.disconnect

lemma track_advanced {r : Registry W} {cursor : Cursor} {sent : List W} {w : W} {a : Advance W}
    (h : Advanced r cursor a) (hyet : Pending r cursor w → sent.count w = 0)
    (hdone : ¬ Pending r cursor w → sent.count w = 1) : Track ⟨r, a.1, sent ++ a.2⟩ w := by
  cases h with
  | returned hnone =>
    rw [Track, List.append_nil]
    exact hdone (hnone w)
  | sending hfit hform hc hrest =>
    rename_i next c
    change (Pending r next w → _) ∧ (¬ Pending r next w → _)
    rw [List.count_append, hrest]
    by_cases hw : w = c
    · subst hw
      simp [hyet hc]
    · have hzero : [c].count w = 0 := by simp [Ne.symm hw]
      simp only [hw, ne_eq, not_false_eq_true, and_true, hzero, Nat.add_zero]
      exact ⟨hyet, hdone⟩

omit [DecidableEq W] in
lemma base_advanced {form : Form} {r : Registry W} {cursor : Cursor} {a : Advance W} (hr : Sound r)
    (hform : cursor.sessions.isSome → form = .broadcastGlobal) (h : Advanced r cursor a) (sent : List W) :
    Base form ⟨r, a.1, sent⟩ := by
  cases h with
  | returned hnone =>
    refine ⟨hr, ?_, by simp⟩
    rintro cursor ⟨⟩
  | sending hfit hone hc hrest =>
    refine ⟨hr, ?_, by simp⟩
    rintro cursor ⟨⟩
    exact ⟨hfit, fun hsome => hform (hone ▸ hsome)⟩

lemma Registered.exists_mem {form : Form} {r : Registry W} {w : W} (h : Registered form r w) :
    ∃ l, w ∈ r.lists l := by
  cases form with
  | broadcastToSession session_id =>
    obtain ⟨l, -, hw⟩ := h
    exact ⟨l, hw⟩
  | broadcastGlobal =>
    obtain ⟨p, -, hw⟩ := List.any_eq_true.mp h
    exact ⟨p.2, of_decide_eq_true hw⟩

omit [DecidableEq W] in
lemma connect_drop {r : Registry W} (hr : Sound r) (session_id : String) {websocket w : W}
    (hne : w ≠ websocket)
    (rebuilt : Bool) (l : Ref) (i : ℕ) :
    w ∈ ((r.connect session_id websocket rebuilt).lists l).drop i ↔ w ∈ (r.lists l).drop i := by
  have hnew : ∀ j, w ∉ [websocket].drop j := by
    intro j hw
    exact hne (List.mem_singleton.mp (List.mem_of_mem_drop hw))
  rw [Registry.connect]
  cases h : r.find session_id with
  | some l₀ =>
    by_cases hl : l = l₀
    · subst hl
      simp only [Function.update_self]
      rw [List.drop_append, List.mem_append, or_iff_left (hnew _)]
    · simp only [Function.update_of_ne hl]
  | none =>
    by_cases hl : l = r.fresh
    · subst hl
      simp only [Function.update_self]
      rw [fresh_nil hr, List.drop_nil]
      exact iff_of_false (hnew i) List.not_mem_nil
    · simp only [Function.update_of_ne hl]

lemma disconnect_cases (r : Registry W) (session_id : String) (websocket : W) :
    r.disconnect session_id websocket = r ∨ ∃ l, r.find session_id = some l ∧
      (r.disconnect session_id websocket).lists = Function.update r.lists l ((r.lists l).erase websocket) := by
  rw [Registry.disconnect]
  cases h : r.find session_id with
  | none => exact Or.inl rfl
  | some l =>
    dsimp only
    split
    · exact Or.inr ⟨l, rfl, rfl⟩
    · exact Or.inl rfl

lemma disconnect_drop {r : Registry W} (session_id : String) {websocket w : W} (hne : w ≠ websocket)
    (l : Ref) (i : ℕ)
    (h : r.find session_id = some l → websocket ∈ (r.lists l).take i → (r.lists l)[i]? ≠ some w) :
    w ∈ ((r.disconnect session_id websocket).lists l).drop i ↔ w ∈ (r.lists l).drop i := by
  rcases disconnect_cases r session_id websocket with hsame | ⟨l₀, hfind, hlists⟩
  · rw [hsame]
  · rw [hlists]
    by_cases hl : l = l₀
    · subst hl
      rw [Function.update_self]
      exact mem_drop_erase hne (h hfind)
    · rw [Function.update_of_ne hl]

lemma disconnect_self {r : Registry W} (hr : Sound r) {session_id : String} {w : W}
    (h : ∃ l, w ∈ (r.disconnect session_id w).lists l) : r.disconnect session_id w = r := by
  rcases disconnect_cases r session_id w with hsame | ⟨l₀, hfind, hlists⟩
  · exact hsame
  · obtain ⟨l, hw⟩ := h
    rw [hlists] at hw
    by_cases hl : l = l₀
    · subst hl
      rw [Function.update_self] at hw
      exact absurd hw (List.Nodup.not_mem_erase (hr.nodup l))
    · rw [Function.update_of_ne hl] at hw
      rw [Registry.disconnect, hfind]
      dsimp only
      rw [if_neg]
      exact fun hw' => hl (hr.apart hw hw')

omit [DecidableEq W] in
lemma pending_congr {r r' : Registry W} {cursor : Cursor} {w : W}
    (hsessions : rest r' cursor.sessions = rest r cursor.sessions)
    (hdrop : ∀ l i, cursor.connections = some (l, i) → (w ∈ (r'.lists l).drop i ↔ w ∈ (r.lists l).drop i))
    (hmem : ∀ l, w ∈ r'.lists l ↔ w ∈ r.lists l) : Pending r' cursor w ↔ Pending r cursor w := by
  rw [Pending, Pending, hsessions]
  refine or_congr ⟨?_, ?_⟩ (by simp only [hmem])
  · rintro ⟨l, i, h, hw⟩
    exact ⟨l, i, h, (hdrop l i h).mp hw⟩
  · rintro ⟨l, i, h, hw⟩
    exact ⟨l, i, h, (hdrop l i h).mpr hw⟩

variable {form : Form} {u v : State W} {e : Event W} {w : W}

omit [DecidableEq W] in
lemma rest_change {r r' : Registry W} {sessions : Option DictIter}
    (h : sessions.isSome → r'.entries = r.entries) :
    rest r' sessions = rest r sessions := by
  cases sessions with
  | none => rfl
  | some it => rw [rest, rest, restFrom, restFrom, h rfl]

lemma base_step (hbase : Base form u) (hsteady : Steady form u e) (hstep : step u e = some v) :
    Base form v := by
  cases e with
  | change c =>
    rw [step, Option.map_eq_some_iff] at hstep
    obtain ⟨r', hchange, rfl⟩ := hstep
    refine ⟨sound_change hbase.sound hchange, fun cursor hcursor => ?_, hbase.quiet⟩
    obtain ⟨hfit, hform⟩ := hbase.fit cursor hcursor
    refine ⟨fun it hit => ?_, hform⟩
    have hentries := hsteady (hform (by rw [hit]; rfl)) ⟨cursor, hcursor⟩ r' hchange
    have hitems : r'.items = u.registry.items := by rw [Registry.items, hentries, Registry.items]
    have hrest : restFrom r' it.pos = restFrom u.registry it.pos := by rw [restFrom, hentries, restFrom]
    rw [hitems, hrest]
    exact hfit it hit
  | resume failed =>
    rw [step] at hstep
    split at hstep
    · rename_i cursor hcursor
      cases hstep
      obtain ⟨hfit, hform⟩ := hbase.fit cursor hcursor
      exact base_advanced hbase.sound hform (advance_advanced hbase.sound hfit) _
    · cases hstep

/-- Whoever comes or goes, a client that stays and is not overtaken waits for its turn as before. -/
lemma pending_change {c : Change W} {r' : Registry W} (hbase : Base form u)
    (hsteady : Steady form u (.change c))
    (hnext : overtaken u (.change c) ≠ some w) (hchange : change u.registry c = some r')
    (hu : Registered form u.registry w) (hv : Registered form r' w) {cursor : Cursor}
    (hcursor : u.progress = .sending cursor) : Pending r' cursor w ↔ Pending u.registry cursor w := by
  have hrest : rest r' cursor.sessions = rest u.registry cursor.sessions :=
    rest_change fun hsome => hsteady ((hbase.fit cursor hcursor).2 hsome) ⟨cursor, hcursor⟩ r' hchange
  obtain ⟨l₀, hw⟩ := hu.exists_mem
  cases c with
  | connect session_id websocket rebuilt =>
    rw [change] at hchange
    split at hchange
    · cases hchange
    · rename_i hnew
      cases hchange
      have hne : w ≠ websocket := by
        rintro rfl
        exact not_mem_of_not_registered hbase.sound (by simpa using hnew) l₀ hw
      have hdrop := connect_drop hbase.sound session_id hne rebuilt
      exact pending_congr hrest (fun l i _ => hdrop l i) fun l => by simpa using hdrop l 0
  | disconnect session_id websocket =>
    cases hchange
    by_cases hne : w = websocket
    · subst hne
      rw [disconnect_self hbase.sound hv.exists_mem]
    · refine pending_congr hrest (fun l i hl => disconnect_drop session_id hne l i fun hfind htake => ?_) fun l => ?_
      · intro hturn
        obtain ⟨connections, sessions⟩ := cursor
        dsimp only at hl
        subst hl
        apply hnext
        rw [overtaken, hcursor]
        dsimp only
        rw [if_pos ⟨hfind, htake⟩, hturn]
      · simpa using disconnect_drop session_id hne l 0 (by simp)

lemma track_step (hbase : Base form u) (hsteady : Steady form u e) (hnext : overtaken u e ≠ some w)
    (hstep : step u e = some v) (hu : Registered form u.registry w) (hv : Registered form v.registry w) (h : Track u w) :
    Track v w := by
  cases e with
  | change c =>
    rw [step, Option.map_eq_some_iff] at hstep
    obtain ⟨r', hchange, rfl⟩ := hstep
    rw [Track] at h ⊢
    dsimp only at hv ⊢
    cases hprogress : u.progress with
    | sending cursor =>
      rw [hprogress] at h
      dsimp only at h ⊢
      rw [pending_change hbase hsteady hnext hchange hu hv hprogress]
      exact h
    | returned =>
      rw [hprogress] at h
      exact h
    | raised => exact absurd hprogress hbase.quiet
  | resume failed =>
    rw [step] at hstep
    split at hstep
    · rename_i cursor hcursor
      cases hstep
      obtain ⟨hfit, hform⟩ := hbase.fit cursor hcursor
      rw [Track, hcursor] at h
      exact track_advanced (advance_advanced hbase.sound hfit) h.1 h.2
    · cases hstep

lemma stable_registered {events : List (Event W)} (h : Stable form u events w) :
    Registered form u.registry w := by
  cases events with
  | nil => exact h.2 u rfl
  | cons e events => exact h.1.head

lemma run_track {events : List (Event W)} {t : State W} (hbase : Base form u)
    (hsteady : Along step (Steady form) u events)
    (hrun : run step u events = some t) (hstable : Stable form u events w)
    (hnext : Along step (fun u e => overtaken u e ≠ some w) u events) (h : Track u w) : Track t w := by
  induction events generalizing u with
  | nil =>
    cases hrun
    exact h
  | cons e events ih =>
    obtain ⟨v, hstep, hrun⟩ := run_cons.mp hrun
    have htail : Stable form v events w :=
      ⟨hstable.1.tail hstep, fun t ht => hstable.2 t (run_cons.mpr ⟨v, hstep, ht⟩)⟩
    exact ih (base_step hbase hsteady.head hstep) (hsteady.tail hstep) hrun htail (hnext.tail hstep)
      (track_step hbase hsteady.head hnext.head hstep hstable.1.head (stable_registered htail) h)

lemma start_advanced {r : Registry W} {cursor : Cursor} (hr : Sound r) (hfit : Fit r cursor)
    (hform : cursor.sessions.isSome → form = .broadcastGlobal) (hall : ∀ w, Registered form r w → Pending r cursor w) :
    Base form ⟨r, (advance r cursor).1, (advance r cursor).2⟩ ∧
      ∀ w, Registered form r w → Track ⟨r, (advance r cursor).1, (advance r cursor).2⟩ w := by
  have hadvance := advance_advanced hr hfit
  refine ⟨base_advanced hr hform hadvance _, fun w hw => ?_⟩
  have hnone : ([] : List W).count w = 0 := rfl
  exact track_advanced hadvance (fun _ => hnone) fun hnot => absurd (hall w hw) hnot

lemma start_base {message : Dict} {r : Registry W} (hr : Sound r)
    (hmessage : refusedDict message = none ∨ ∀ w, ¬ Registered form r w) :
    Base form (start form message r) ∧ ∀ w, Registered form r w → Track (start form message r) w := by
  have hnobody (h : ∀ w, ¬ Registered form r w) : Base form (⟨r, .returned, []⟩ : State W) ∧
      ∀ w, Registered form r w → Track (⟨r, .returned, []⟩ : State W) w := by
    refine ⟨⟨hr, ?_, by simp⟩, fun w hw => absurd hw (h w)⟩
    rintro cursor ⟨⟩
  by_cases hrefused : (refusedDict message).isSome
  · have hstart : start form message r = ⟨r, .returned, []⟩ := if_pos hrefused
    rw [hstart]
    exact hnobody (hmessage.resolve_left fun hnone => by simp [hnone] at hrefused)
  · have hstart : start form message r = ⟨r, (enter r form).1, (enter r form).2⟩ := if_neg hrefused
    rw [hstart]
    cases form with
    | broadcastGlobal =>
      rw [enter]
      refine start_advanced hr ?_ (fun _ => rfl) fun w hw => Or.inr ?_
      · rintro it ⟨⟩
        refine ⟨rfl, ?_, by rintro l i ⟨⟩⟩
        exact (List.length_map _).symm
      · obtain ⟨p, hp, hmem⟩ := List.any_eq_true.mp hw
        exact ⟨p.2, List.mem_map_of_mem hp, of_decide_eq_true hmem⟩
    | broadcastToSession session_id =>
      rw [enter]
      cases hfind : r.find session_id with
      | none =>
        refine hnobody fun w hw => ?_
        obtain ⟨l, hl, -⟩ := hw
        rw [hfind] at hl
        cases hl
      | some l =>
        refine start_advanced hr (by rintro it ⟨⟩) (by rintro ⟨⟩) fun w hw => Or.inl ⟨l, 0, rfl, ?_⟩
        obtain ⟨l', hl', hmem⟩ := hw
        rw [hfind, Option.some.injEq] at hl'
        exact hl' ▸ hmem

omit [DecidableEq W] in
lemma start_registry (form : Form) (message : Dict) (r : Registry W) :
    (start form message r).registry = r := by
  by_cases hrefused : (refusedDict message).isSome
  · exact congrArg State.registry (if_pos hrefused)
  · exact congrArg State.registry (if_neg hrefused)

/-- From any table that comes about, and while others come and go as the condition allows, the
message reaches everyone who stays, once. -/
theorem delivers {message : Dict} {r : Registry W} {events : List (Event W)}
    (hr : Reachable change Registry.empty r)
    (h : Condition form message r events) : Delivers form message r events := by
  obtain ⟨hmessage, hsteady, hnext⟩ := h
  obtain ⟨hbase, htrack⟩ := start_base (reachable_invariant sound_change sound_empty hr) hmessage
  intro t hrun
  refine ⟨(run_invariant base_step hbase hsteady hrun).quiet, fun hreturned w hstable => ?_⟩
  have hw := start_registry form message r ▸ stable_registered hstable
  have h := run_track hbase hsteady hrun hstable (hnext w hstable) (htrack w hw)
  rw [Track, hreturned] at h
  exact h

/-- Three clients that come one after the other to a session. -/
def three : Registry ℕ := ((Registry.empty.connect "s" 0 false).connect "s" 1 false).connect "s" 2 false

lemma three_reachable : Reachable change Registry.empty three :=
  ⟨[.connect "s" 0 false, .connect "s" 1 false, .connect "s" 2 false], rfl⟩

/-- The last one leaves while the message is on its way to the first. -/
theorem last_client_leaves : Delivers (.broadcastToSession "s") [] three
    [.change (.disconnect "s" 2), .resume false, .resume false] := by
  refine delivers three_reachable ⟨Or.inl (by decide), along_of_forall (fun u e => ?_) _ _, fun w _ => ?_⟩
  · cases e with
    | change c => rintro ⟨⟩
    | resume failed => trivial
  · have hnone : Along step (fun u e => overtaken u e = none) (start (.broadcastToSession "s") [] three)
        [.change (.disconnect "s" 2), .resume false, .resume false] := by decide
    exact hnone.mono fun u e h => by simp [h]

/-- The first of three leaves while the message is on its way to it, and the second is passed over. -/
theorem left_client_hides_next :
    ¬ ∀ (form : Form) (message : Dict) (r : Registry ℕ) (events : List (Event ℕ)),
    Reachable change Registry.empty r → Delivers form message r events := by
  intro h
  obtain ⟨t, hrun, hsent, hreturned⟩ : ∃ t, run step (start (.broadcastToSession "s") [] three)
      [.change (.disconnect "s" 0), .resume false, .resume false] = some t ∧ t.sent = [0, 2] ∧ t.progress = .returned :=
    ⟨_, rfl, rfl, rfl⟩
  have hstable : Stable (.broadcastToSession "s") (start (.broadcastToSession "s") [] three)
      [.change (.disconnect "s" 0), .resume false, .resume false] 1 := by
    refine ⟨by decide, fun t ht => ?_⟩
    obtain rfl := Option.some.inj ht
    decide
  have hone := (h _ _ _ _ three_reachable t hrun).2 hreturned 1 hstable
  rw [hsent] at hone
  exact absurd hone (by decide)

end Steps

end OpsSentry.Agent.Connections
