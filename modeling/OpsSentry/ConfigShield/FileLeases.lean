import OpsSentry.ConfigShield.FileLock

/-! The lock directory as a registry of leases, and what one filesystem call of a
node leaves to the other nodes. -/

namespace OpsSentry.ConfigShield

open Foundation.Leases Foundation.Programs

def names (w : World) (r : Resource) (n : NodeId) : Prop :=
  ∃ i record, w.dir (.lock r) = some i ∧ w.text i = some record ∧ record.node_id = n

def registry : Registry World NodeId Resource where
  now := World.now
  names := names
  lease := World.lastWrite
  held := World.held
  live now l := now - l.since ≤ l.ttl
  names_unique := by
    rintro w r m n ⟨i, x, hi, hx, rfl⟩ ⟨j, y, hj, hy, rfl⟩
    obtain rfl := Option.some.inj (hi.symm.trans hj)
    rw [Option.some.inj (hx.symm.trans hy)]
  live_anti := by
    intro i j l hij hj
    omega

/-- At most one node holds a resource: its last acquire returned, it has called no
release since, and its last lock write is not older than its TTL. -/
def MutualExclusion (w : World) : Prop := registry.Exclusive w

/-- A file that `n` created under name `p` and that still stands there with content `x`. -/
def Own (w : World) (n : NodeId) (p : Path) (i : ℕ) (x : Option LockRecord) : Prop :=
  w.dir p = some i ∧ w.opener i = (n, p) ∧ w.text i = x

/-- Names that no other node touches: its own temporaries, and a lock file before it is written. -/
def Private (n : NodeId) (p : Path) (x : Option LockRecord) : Prop :=
  (∃ r, p = .lock r ∧ x = none) ∨ ∃ k, p = .temp n k

/-- `n` may move away, overwrite or unlink the lock file: there is none, it is `n`'s own, or
it names a node whose last write is older than its TTL. -/
def Disposable (w : World) (n : NodeId) (r : Resource) : Prop :=
  w.dir (.lock r) = none ∨ (∃ i, Own w n (.lock r) i none) ∨ names w r n ∨ registry.Expired w r

/-- The verdict on the lock file still holds when the node acts on it. -/
def CheckHolds (n : NodeId) (w : World) : Command → Prop
  | .rename (.lock r) _ => Disposable w n r
  | .replace _ (.lock r) => Disposable w n r
  | .unlink (.lock r) => Disposable w n r
  | _ => True

def lockRecord (w : World) (r : Resource) : Option LockRecord := (w.dir (.lock r)).bind w.text

lemma lockRecord_eq_some {w : World} {r : Resource} {x : LockRecord} :
    lockRecord w r = some x ↔ ∃ i, w.dir (.lock r) = some i ∧ w.text i = some x := by
  simp [lockRecord, Option.bind_eq_some_iff]

lemma names_iff {w : World} {r : Resource} {n : NodeId} :
    names w r n ↔ (lockRecord w r).map LockRecord.node_id = some n := by
  simp only [names, Option.map_eq_some_iff, lockRecord_eq_some]
  constructor
  · rintro ⟨i, x, hi, hx, hn⟩
    exact ⟨x, ⟨i, hi, hx⟩, hn⟩
  · rintro ⟨x, ⟨i, hi, hx⟩, hn⟩
    exact ⟨i, x, hi, hx, hn⟩

instance (w : World) (r : Resource) (n : NodeId) : Decidable (names w r n) :=
  decidable_of_iff _ names_iff.symm

instance (i : ℤ) (l : Lease) : Decidable (registry.live i l) :=
  inferInstanceAs (Decidable (i - l.since ≤ l.ttl))

instance (w : World) (r : Resource) : Decidable (registry.Expired w r) :=
  match h : (lockRecord w r).map LockRecord.node_id with
  | none => isFalse (by rintro ⟨m, hm, -⟩; simp [names_iff.mp hm] at h)
  | some m => decidable_of_iff (¬ registry.Live w m r)
      ⟨fun hl => ⟨m, names_iff.mpr h, hl⟩, fun ⟨_, hn, hl⟩ =>
        Option.some.inj (h.symm.trans (names_iff.mp hn)) ▸ hl⟩

instance (w : World) (n : NodeId) (p : Path) (x : Option LockRecord) : Decidable (∃ i, Own w n p i x) :=
  match h : w.dir p with
  | none => isFalse (by rintro ⟨i, hi, -⟩; simp [h] at hi)
  | some i => decidable_of_iff (w.opener i = (n, p) ∧ w.text i = x)
      ⟨fun ho => ⟨i, h, ho⟩, fun ⟨_, hj, ho⟩ => Option.some.inj (h.symm.trans hj) ▸ ho⟩

instance (w : World) (n : NodeId) (r : Resource) : Decidable (Disposable w n r) :=
  inferInstanceAs (Decidable (_ ∨ _ ∨ _ ∨ _))

instance (n : NodeId) (w : World) (c : Command) : Decidable (CheckHolds n w c) := by
  simp only [CheckHolds]
  split <;> infer_instance

structure Undisturbed (n : NodeId) (s t : World) : Prop where
  keeps : registry.Keeps n s t
  own : ∀ p i x, Private n p x → Own s n p i x → Own t n p i x

structure Wf (w : World) : Prop where
  bound : ∀ p i, w.dir p = some i → i < w.next
  inj : ∀ p q i, w.dir p = some i → w.dir q = some i → p = q

structure Inv (w : World) : Prop where
  wf : Wf w
  backed : registry.Backed w

def Pre (n : NodeId) : Procedure → World → Prop
  | .acquire r _ _, w => w.held n r = false
  | .heartbeat _ _, _ => True
  | .release r, w => w.held n r = false

def contract : Contract Disk NodeId World Procedure where
  Inv := Inv
  Rely := Undisturbed
  Guard := CheckHolds
  Pre := Pre
  refl n w := ⟨Registry.Keeps.refl n w, fun _ _ _ _ h => h⟩
  trans h h' := ⟨h.keeps.trans h'.keeps, fun p i x hp ho => h'.own p i x hp (h.own p i x hp ho)⟩

instance (n : NodeId) (w : World) (c : Command) : Decidable (contract.Guard n w c) :=
  inferInstanceAs (Decidable (CheckHolds n w c))

/-- What a step of node `n` leaves alone, except for the lock files in `D`. -/
structure Frame (n : NodeId) (D : Resource → Prop) (w w' : World) : Prop where
  now : w.now ≤ w'.now
  lease : ∀ b, b ≠ n → w'.lastWrite b = w.lastWrite b
  held : ∀ b, b ≠ n → w'.held b = w.held b
  opener : ∀ p i, w.dir p = some i → w'.opener i = w.opener i
  written : ∀ p i x, w.dir p = some i → w.text i = some x → w'.text i = some x
  unwritten : ∀ p i, w.dir p = some i → w.text i = none → (w.opener i).1 ≠ n → w'.text i = none
  lock : ∀ r i, ¬ D r → w.dir (.lock r) = some i → w'.dir (.lock r) = some i
  temp : ∀ b k i, b ≠ n → w.dir (.temp b k) = some i → w'.dir (.temp b k) = some i

lemma Frame.names_of {n : NodeId} {D : Resource → Prop} {w w' : World} (h : Frame n D w w')
    {r : Resource} (hr : ¬ D r) {m : NodeId} (hn : names w r m) : names w' r m := by
  obtain ⟨i, x, hi, hx, rfl⟩ := hn
  exact ⟨i, x, h.lock r i hr hi, h.written _ i x hi hx, rfl⟩

lemma not_own_of_disposable {w : World} {n b : NodeId} (hb : b ≠ n) {r : Resource}
    (hd : Disposable w n r) {i : ℕ} (ho : Own w b (.lock r) i none) : False := by
  obtain ⟨hi, hop, ht⟩ := ho
  have hnot : ∀ m, ¬ names w r m := by
    rintro m ⟨j, x, hj, hx, -⟩
    obtain rfl := Option.some.inj (hi.symm.trans hj)
    simp [ht] at hx
  rcases hd with hd | ⟨j, hj, hoj, -⟩ | hd | ⟨m, hm, -⟩
  · simp [hi] at hd
  · obtain rfl := Option.some.inj (hi.symm.trans hj)
    rw [hop] at hoj
    exact hb (Prod.mk.inj hoj).1
  · exact hnot n hd
  · exact hnot m hm

lemma Frame.undisturbed {n : NodeId} {D : Resource → Prop} {w w' : World} (h : Frame n D w w')
    (hd : ∀ r, D r → Disposable w n r) {b : NodeId} (hb : b ≠ n) : Undisturbed b w w' := by
  have hlease : ∀ r, w'.lastWrite b r = w.lastWrite b r := fun r => congrFun (h.lease b hb) r
  refine ⟨⟨h.now, hlease, fun r => congrFun (h.held b hb) r, ?_⟩, ?_⟩
  · intro r hl hn
    by_cases hr : D r
    · have hl' : registry.Live w b r := by
        obtain ⟨l, hl, hlive⟩ := hl
        exact ⟨l, (hlease r).symm.trans hl, registry.live_anti h.now hlive⟩
      rcases hd r hr with hno | ⟨i, hi, _, ht⟩ | hdis
      · obtain ⟨i, _, hi, _⟩ := hn
        simp [hno] at hi
      · obtain ⟨j, x, hj, hx, -⟩ := hn
        obtain rfl := Option.some.inj (hi.symm.trans hj)
        simp [ht] at hx
      · exact (Registry.not_live_of_disposable (G := registry) hb hdis hn hl').elim
    · exact h.names_of hr hn
  · intro p i x hp ho
    obtain ⟨hi, hop, ht⟩ := ho
    have hop' : w'.opener i = (b, p) := (h.opener p i hi).trans hop
    rcases hp with ⟨r, rfl, rfl⟩ | ⟨k, rfl⟩
    · by_cases hr : D r
      · exact (not_own_of_disposable hb (hd r hr) ⟨hi, hop, ht⟩).elim
      · exact ⟨h.lock r i hr hi, hop', h.unwritten _ i hi ht (by rw [hop]; exact hb)⟩
    · refine ⟨h.temp b k i hb hi, hop', ?_⟩
      cases x with
      | none => exact h.unwritten _ i hi ht (by rw [hop]; exact hb)
      | some x => exact h.written _ i x hi ht

/-- A step yields when it keeps to its frame, disposes only of disposable lock files, and
leaves the node's own holdings backed. -/
lemma Frame.yields {n : NodeId} {D : Resource → Prop} {w w' : World} (h : Frame n D w w')
    (hi : Inv w) (hd : ∀ r, D r → Disposable w n r) (hw : Wf w')
    (hown : ∀ r, registry.Holder w' n r → names w' r n) : contract.Yields n w w' :=
  ⟨⟨hw, hi.backed.step (fun _ hb => (h.undisturbed hd hb).keeps) hown⟩,
    fun _ hb => h.undisturbed hd hb⟩

lemma Frame.own_backed {n : NodeId} {D : Resource → Prop} {w w' : World} (h : Frame n D w w')
    (hi : Inv w) {r : Resource} (hr : ¬ D r) (hl : w'.lastWrite n r = w.lastWrite n r)
    (hh : w'.held n r = w.held n r) (ho : registry.Holder w' n r) : names w' r n := by
  refine h.names_of hr (hi.backed n r ⟨hh.symm.trans ho.1, ?_⟩)
  obtain ⟨l, hl', hlive⟩ := ho.2
  exact ⟨l, hl.symm.trans hl', registry.live_anti h.now hlive⟩

section Commands

variable {w : World} {n : NodeId}

lemma create_wf (h : Wf w) {p : Path} : Wf (w.create n p) := by
  constructor
  · intro q i hq
    by_cases he : q = p
    · subst q
      simp only [World.create, Function.update_self, Option.some.injEq] at hq ⊢
      omega
    · simp only [World.create, ne_eq, he, not_false_eq_true, Function.update_of_ne] at hq ⊢
      have := h.bound q i hq
      omega
  · intro q q' i hq hq'
    simp only [World.create, Function.update_apply] at hq hq'
    split at hq <;> split at hq'
    · simp_all
    · have := h.bound q' i hq'
      simp only [Option.some.injEq] at hq
      omega
    · have := h.bound q i hq
      simp only [Option.some.injEq] at hq'
      omega
    · exact h.inj q q' i hq hq'

lemma create_frame (h : Wf w) {p : Path} (hp : w.dir p = none) :
    Frame n (fun _ => False) w (w.create n p) := by
  have hdir : ∀ q i, w.dir q = some i → (w.create n p).dir q = some i := by
    intro q i hq
    have hne : q ≠ p := by rintro rfl; simp [hp] at hq
    simpa [World.create, Function.update_of_ne hne] using hq
  have hne : ∀ q i, w.dir q = some i → i ≠ w.next := fun q i hq => Nat.ne_of_lt (h.bound q i hq)
  exact {
    now := le_rfl
    lease := fun _ _ => rfl
    held := fun _ _ => rfl
    opener := fun q i hq => by simp [World.create, Function.update_of_ne (hne q i hq)]
    written := fun q i x hq hx => by simpa [World.create, Function.update_of_ne (hne q i hq)] using hx
    unwritten := fun q i hq hx _ => by simpa [World.create, Function.update_of_ne (hne q i hq)] using hx
    lock := fun r i _ hi => hdir _ i hi
    temp := fun b k i _ hi => hdir _ i hi }

lemma create_own (p : Path) : Own (w.create n p) n p w.next none := by
  simp [Own, World.create]

lemma create_yields (hi : Inv w) {p : Path} (hp : w.dir p = none) :
    contract.Yields n w (w.create n p) :=
  (create_frame hi.wf hp).yields hi (fun _ h => h.elim) (create_wf hi.wf)
    (fun _ ho => (create_frame hi.wf hp).own_backed hi id rfl rfl ho)

lemma setText_none {fd : ℕ} (h : w.text fd = none) : w.setText fd none = w := by
  simp [World.setText, ← h]

lemma setText_frame {p : Path} {fd : ℕ} (ho : Own w n p fd none) (x : LockRecord) :
    Frame n (fun _ => False) w (w.setText fd (some x)) where
  now := le_rfl
  lease _ _ := rfl
  held _ _ := rfl
  opener _ _ _ := rfl
  written q i y hq hy := by
    have hne : i ≠ fd := by rintro rfl; simp [ho.2.2] at hy
    simpa [World.setText, Function.update_of_ne hne] using hy
  unwritten q i hq hy hop := by
    have hne : i ≠ fd := by rintro rfl; simp [ho.2.1] at hop
    simpa [World.setText, Function.update_of_ne hne] using hy
  lock _ _ _ hi := hi
  temp _ _ _ _ hi := hi

lemma Frame.stamp {D : Resource → Prop} {w' : World} (h : Frame n D w w') (r : Resource) (ttl : ℤ) :
    Frame n D w (w'.stamp n r ttl) :=
  { h with lease := fun b hb => by simpa [World.stamp, Function.update_of_ne hb] using h.lease b hb }

lemma stamp_lastWrite_of_ne {r r' : Resource} (hr : r' ≠ r) (ttl : ℤ) :
    (w.stamp n r ttl).lastWrite n r' = w.lastWrite n r' := by
  simp [World.stamp, Function.update_of_ne hr]

lemma writeLock_temp {k fd : ℕ} (ho : Own w n (.temp n k) fd none) (x : LockRecord) :
    w.writeLock n fd x = w.setText fd (some x) := by
  simp [World.writeLock, ho.2.1]

lemma writeTemp_yields (hi : Inv w) {k fd : ℕ} (ho : Own w n (.temp n k) fd none) (x : LockRecord) :
    contract.Yields n w (w.setText fd (some x)) :=
  (setText_frame ho x).yields hi (fun _ h => h.elim) ⟨hi.wf.bound, hi.wf.inj⟩
    (fun _ hh => (setText_frame ho x).own_backed hi id rfl rfl hh)

lemma writeLock_names {r : Resource} {fd : ℕ} (ho : Own w n (.lock r) fd none) {x : LockRecord}
    (hx : x.node_id = n) : names (w.writeLock n fd x) r n := by
  refine ⟨fd, x, ?_, ?_, hx⟩ <;> simp [World.writeLock, ho.2.1, World.stamp, World.setText, ho.1]

lemma writeLock_yields (hi : Inv w) {r : Resource} {fd : ℕ} (ho : Own w n (.lock r) fd none)
    {x : LockRecord} (hx : x.node_id = n) : contract.Yields n w (w.writeLock n fd x) := by
  have hw : w.writeLock n fd x = (w.setText fd (some x)).stamp n r x.ttl_ms := by
    simp [World.writeLock, ho.2.1]
  have hf : Frame n (fun _ => False) w (w.writeLock n fd x) := by
    rw [hw]
    exact (setText_frame ho x).stamp r _
  refine hf.yields hi (fun _ h => h.elim) ?_ ?_
  · rw [hw]
    exact ⟨hi.wf.bound, hi.wf.inj⟩
  · intro r' hh
    by_cases hr : r' = r
    · subst r'
      exact writeLock_names ho hx
    · refine hf.own_backed hi id ?_ ?_ hh
      · rw [hw, stamp_lastWrite_of_ne hr]
        rfl
      · rw [hw]
        rfl

lemma move_wf (h : Wf w) {src dst : Path} {i : ℕ} (hs : w.dir src = some i) : Wf (w.move src dst i) := by
  have hdir : ∀ q j, (w.move src dst i).dir q = some j →
      (q = dst ∧ j = i ∧ q ≠ src) ∨ (w.dir q = some j ∧ q ≠ src ∧ q ≠ dst) := by
    intro q j hq
    simp only [World.move, Function.update_apply] at hq
    split at hq
    · simp at hq
    · split at hq
      · exact Or.inl ⟨by assumption, (Option.some.inj hq).symm, by assumption⟩
      · exact Or.inr ⟨hq, by assumption, by assumption⟩
  constructor
  · intro q j hq
    rcases hdir q j hq with ⟨-, rfl, -⟩ | ⟨hj, -⟩
    · exact h.bound src j hs
    · exact h.bound q j hj
  · intro q q' j hq hq'
    rcases hdir q j hq with ⟨rfl, rfl, hne⟩ | ⟨hj, hne, -⟩ <;>
      rcases hdir q' j hq' with ⟨hd, hji, hne'⟩ | ⟨hj', hne', -⟩
    · exact hd.symm
    · exact (hne' (h.inj q' src j hj' hs)).elim
    · exact (hne (h.inj q src j hj (hji ▸ hs))).elim
    · exact h.inj q q' j hj hj'

lemma remove_wf (h : Wf w) (p : Path) : Wf (w.remove p) := by
  have hdir : ∀ q j, (w.remove p).dir q = some j → w.dir q = some j := by
    intro q j hq
    simp only [World.remove, Function.update_apply] at hq
    split at hq
    · simp at hq
    · exact hq
  exact ⟨fun q j hq => h.bound q j (hdir q j hq), fun q q' j hq hq' => h.inj q q' j (hdir q j hq) (hdir q' j hq')⟩

lemma frame_of_dir {w' : World} {r : Resource} (hw : w' = { w with dir := w'.dir })
    (hlock : ∀ r', r' ≠ r → w'.dir (.lock r') = w.dir (.lock r'))
    (htemp : ∀ b k, b ≠ n → w'.dir (.temp b k) = w.dir (.temp b k)) : Frame n (· = r) w w' := by
  rw [hw]
  exact {
    now := le_rfl
    lease := fun _ _ => rfl
    held := fun _ _ => rfl
    opener := fun _ _ _ => rfl
    written := fun _ _ _ _ hx => hx
    unwritten := fun _ _ _ hx _ => hx
    lock := fun r' i hr hi => (hlock r' hr).trans hi
    temp := fun b k i hb hi => (htemp b k hb).trans hi }

lemma rename_yields (hi : Inv w) {r : Resource} {now : ℤ} {i : ℕ} (hs : w.dir (.lock r) = some i)
    (hd : Disposable w n r) (hh : w.held n r = false) :
    contract.Yields n w (w.move (.lock r) (.stale r n now) i) := by
  have hf : Frame n (· = r) w (w.move (.lock r) (.stale r n now) i) :=
    frame_of_dir rfl (fun r' hr => by simp [World.move, hr])
      (fun b k _ => by simp [World.move])
  refine hf.yields hi (by rintro r' rfl; exact hd) (move_wf hi.wf hs) ?_
  intro r' ho
  by_cases hr : r' = r
  · subst r'
    simp [Registry.Holder, registry, World.move, hh] at ho
  · exact hf.own_backed hi hr rfl rfl ho

lemma unlinkLock_yields (hi : Inv w) {r : Resource} (hd : Disposable w n r) (hh : w.held n r = false) :
    contract.Yields n w (w.remove (.lock r)) := by
  have hf : Frame n (· = r) w (w.remove (.lock r)) :=
    frame_of_dir rfl (fun r' hr => by simp [World.remove, hr])
      (fun b k _ => by simp [World.remove])
  refine hf.yields hi (by rintro r' rfl; exact hd) (remove_wf hi.wf _) ?_
  intro r' ho
  by_cases hr : r' = r
  · subst r'
    simp [Registry.Holder, registry, World.remove, hh] at ho
  · exact hf.own_backed hi hr rfl rfl ho

def Scratch (n : NodeId) (p : Path) : Prop := (∃ k, p = .temp n k) ∨ ∃ r now, p = .stale r n now

lemma unlinkScratch_frame {p : Path} (hp : Scratch n p) : Frame n (fun _ => False) w (w.remove p) := by
  have hdir : ∀ q, q ≠ p → (w.remove p).dir q = w.dir q := fun q hq => by
    simp [World.remove, Function.update_of_ne hq]
  exact {
    now := le_rfl
    lease := fun _ _ => rfl
    held := fun _ _ => rfl
    opener := fun _ _ _ => rfl
    written := fun _ _ _ _ hx => hx
    unwritten := fun _ _ _ hx _ => hx
    lock := fun r i _ h => (hdir _ (by rcases hp with ⟨k, rfl⟩ | ⟨r, now, rfl⟩ <;> simp)).trans h
    temp := fun b k i hb h => (hdir _ (by
      rcases hp with ⟨k, rfl⟩ | ⟨r, now, rfl⟩
      · simp [hb]
      · simp)).trans h }

lemma unlinkScratch_yields (hi : Inv w) {p : Path} (hp : Scratch n p) :
    contract.Yields n w (w.remove p) :=
  (unlinkScratch_frame hp).yields hi (fun _ h => h.elim) (remove_wf hi.wf p)
    (fun _ ho => (unlinkScratch_frame hp).own_backed hi id rfl rfl ho)

lemma replace_yields (hi : Inv w) {r : Resource} {k i : ℕ} {x : LockRecord}
    (ho : Own w n (.temp n k) i (some x)) (hx : x.node_id = n) (hd : Disposable w n r) :
    contract.Yields n w (w.replaceLock n (.temp n k) (.lock r) i) := by
  have hw : w.replaceLock n (.temp n k) (.lock r) i =
      (w.move (.temp n k) (.lock r) i).stamp n r x.ttl_ms := by simp [World.replaceLock, ho.2.2]
  have hf : Frame n (· = r) w (w.replaceLock n (.temp n k) (.lock r) i) := by
    rw [hw]
    refine (frame_of_dir rfl ?_ ?_).stamp r _
    · intro r' hr
      simp [World.move, hr]
    · intro b k' hb
      simp [World.move, hb]
  refine hf.yields hi (by rintro r' rfl; exact hd) ?_ ?_
  · rw [hw]
    exact ⟨(move_wf hi.wf ho.1).bound, (move_wf hi.wf ho.1).inj⟩
  · intro r' hh
    by_cases hr : r' = r
    · subst r'
      refine ⟨i, x, ?_, ?_, hx⟩ <;> rw [hw]
      · simp [World.stamp, World.move]
      · exact ho.2.2
    · refine hf.own_backed hi hr ?_ ?_ hh
      · rw [hw, stamp_lastWrite_of_ne hr]
        rfl
      · rw [hw]
        rfl

lemma tick_yields (hi : Inv w) (d : ℕ) : Inv (tick d w) ∧ ∀ b, Undisturbed b w (tick d w) := by
  have hk : ∀ b, registry.Keeps b w (tick d w) := fun b =>
    ⟨by change w.now ≤ w.now + d; omega, fun _ => rfl, fun _ => rfl, fun _ _ h => h⟩
  exact ⟨⟨⟨hi.wf.bound, hi.wf.inj⟩, hi.backed.keep hk⟩, fun b => ⟨hk b, fun _ _ _ _ h => h⟩⟩

lemma setHeld_yields (hi : Inv w) {r : Resource} {b : Bool}
    (hb : b = true → registry.Live w n r → names w r n) :
    contract.Yields n w (w.setHeld n r b) := by
  have hf : Frame n (fun _ => False) w (w.setHeld n r b) := {
    now := le_rfl
    lease := fun _ _ => rfl
    held := fun c hc => by simp [World.setHeld, Function.update_of_ne hc]
    opener := fun _ _ _ => rfl
    written := fun _ _ _ _ hx => hx
    unwritten := fun _ _ _ hx _ => hx
    lock := fun _ _ _ hi => hi
    temp := fun _ _ _ _ hi => hi }
  refine hf.yields hi (fun _ h => h.elim) ⟨hi.wf.bound, hi.wf.inj⟩ ?_
  intro r' ho
  by_cases hr : r' = r
  · subst r'
    have hbt : b = true := by simpa [World.setHeld, registry] using ho.1
    exact hb hbt ho.2
  · exact hf.own_backed hi id rfl (by simp [World.setHeld, Function.update_of_ne hr]) ho

end Commands

end OpsSentry.ConfigShield
