import OpsSentry.ConfigShield.FileExclusion

/-! What a crashed node leaves at a lock path, and when an acquire by another node gets
past it once every lease has run out. -/

namespace OpsSentry.ConfigShield.Recovery

open Foundation.Leases Foundation.Programs Foundation.Runs

/-- The record at a lock path is the last one that its node wrote, and was stamped before. -/
structure Stamped (w : World) : Prop where
  wf : Wf w
  origin : ∀ r i, w.dir (.lock r) = some i →
    (w.opener i).2 = .lock r ∨ ∃ b k, w.opener i = (b, .temp b k)
  stamped : ∀ r i x, w.dir (.lock r) = some i → w.text i = some x →
    ∃ t, w.lastWrite x.node_id r = some ⟨t, x.ttl_ms⟩ ∧ x.heartbeat_at ≤ t

/-- What the steps of the others leave to node `n`. -/
structure Apart (n : NodeId) (w w' : World) : Prop where
  now : w.now ≤ w'.now
  next : w.next ≤ w'.next
  opener : ∀ i, i < w.next → w'.opener i = w.opener i
  text : ∀ i, i < w.next → (w.opener i).1 = n → w'.text i = w.text i
  unnamed : ∀ r, ¬ names w r n → ¬ names w' r n
  temp : ∀ k, w'.dir (.temp n k) = w.dir (.temp n k)

lemma Apart.refl (n : NodeId) (w : World) : Apart n w w :=
  ⟨Int.le_refl _, Nat.le_refl _, fun _ _ => rfl, fun _ _ _ => rfl, fun _ h => h, fun _ => rfl⟩

lemma Apart.trans {n : NodeId} {u v w : World} (h : Apart n u v) (h' : Apart n v w) : Apart n u w where
  now := h.now.trans h'.now
  next := Nat.le_trans h.next h'.next
  opener i hi := (h'.opener i (Nat.lt_of_lt_of_le hi h.next)).trans (h.opener i hi)
  text i hi hn := (h'.text i (Nat.lt_of_lt_of_le hi h.next)
    ((congrArg Prod.fst (h.opener i hi)).trans hn)).trans (h.text i hi hn)
  unnamed r hr := h'.unnamed r (h.unnamed r hr)
  temp k := (h'.temp k).trans (h.temp k)

def contract : Contract Disk NodeId World Procedure where
  Inv := Stamped
  Rely := Apart
  Guard _ _ _ := True
  Pre _ _ _ := True
  refl := Apart.refl
  trans := Apart.trans

section Steps

variable {w : World} {n : NodeId} {r : Resource}

lemma names_create {p : Path} {m : NodeId} (hw : Wf w) (hn : names (w.create n p) r m) : names w r m := by
  obtain ⟨i, x, hi, hx, hm⟩ := hn
  by_cases hp : Path.lock r = p
  · subst p
    simp [World.create] at hi hx
    subst hi
    simp at hx
  · have hi' : w.dir (.lock r) = some i := by simpa [World.create, hp] using hi
    have hne : i ≠ w.next := Nat.ne_of_lt (hw.bound _ i hi')
    exact ⟨i, x, hi', by simpa [World.create, hne] using hx, hm⟩

lemma create_yields (hi : Stamped w) {p : Path} (hp : (∃ r, p = .lock r) ∨ ∃ k, p = .temp n k)
    (hfree : w.dir p = none) : contract.Yields n w (w.create n p) := by
  have hold : ∀ r' i, (w.create n p).dir (.lock r') = some i →
      (i = w.next ∧ p = .lock r') ∨ (i ≠ w.next ∧ w.dir (.lock r') = some i) := by
    intro r' i h
    by_cases he : Path.lock r' = p
    · subst p
      exact Or.inl ⟨by simpa [World.create, eq_comm] using h, rfl⟩
    · have h' : w.dir (.lock r') = some i := by simpa [World.create, he] using h
      exact Or.inr ⟨Nat.ne_of_lt (hi.wf.bound _ i h'), h'⟩
  refine ⟨⟨create_wf hi.wf, ?_, ?_⟩, ?_⟩
  · intro r' i h
    rcases hold r' i h with ⟨rfl, rfl⟩ | ⟨hne, h'⟩
    · simp [World.create]
    · simpa [World.create, hne] using hi.origin r' i h'
  · intro r' i x h hx
    rcases hold r' i h with ⟨rfl, rfl⟩ | ⟨hne, h'⟩
    · simp [World.create] at hx
    · exact hi.stamped r' i x h' (by simpa [World.create, hne] using hx)
  · intro b hb
    refine ⟨le_rfl, Nat.le_succ _, ?_, ?_, fun r' hr h => hr (names_create hi.wf h), ?_⟩
    · intro i h
      simp [World.create, Nat.ne_of_lt h]
    · intro i h _
      simp [World.create, Nat.ne_of_lt h]
    · intro k
      have hne : Path.temp b k ≠ p := by
        rcases hp with ⟨r', rfl⟩ | ⟨k', rfl⟩
        · simp
        · simp [hb]
      simp [World.create, hne]

lemma fewer_yields (hi : Stamped w) {w' : World} (hw : w' = { w with dir := w'.dir }) (hwf : Wf w')
    (hlock : ∀ r i, w'.dir (.lock r) = some i → w.dir (.lock r) = some i)
    (htemp : ∀ b k, b ≠ n → w'.dir (.temp b k) = w.dir (.temp b k)) : contract.Yields n w w' := by
  refine ⟨⟨hwf, ?_, ?_⟩, ?_⟩
  · intro r i h
    rw [hw]
    exact hi.origin r i (hlock r i h)
  · intro r i x h hx
    rw [hw] at hx ⊢
    exact hi.stamped r i x (hlock r i h) hx
  · intro b hb
    have hnames : ∀ r, names w' r b → names w r b := by
      rintro r ⟨i, x, h, hx, hn⟩
      rw [hw] at hx
      exact ⟨i, x, hlock r i h, hx, hn⟩
    have hunnamed : ∀ r, ¬ names w r b → ¬ names w' r b := fun r hr h => hr (hnames r h)
    have htemp' : ∀ k, w'.dir (.temp b k) = w.dir (.temp b k) := fun k => htemp b k hb
    rw [hw] at hunnamed htemp' ⊢
    exact ⟨Int.le_refl _, Nat.le_refl _, fun _ _ => rfl, fun _ _ _ => rfl, hunnamed, htemp'⟩

lemma rename_yields (hi : Stamped w) {now : ℤ} {i : ℕ} (hs : w.dir (.lock r) = some i) :
    contract.Yields n w (w.move (.lock r) (.stale r n now) i) := by
  refine fewer_yields hi rfl (move_wf hi.wf hs) ?_ ?_
  · intro r' j h
    by_cases he : r' = r
    · subst r'
      simp [World.move] at h
    · simpa [World.move, he] using h
  · intro b k _
    simp [World.move]

lemma remove_yields (hi : Stamped w) {p : Path} (hp : ∀ b k, p = .temp b k → b = n) :
    contract.Yields n w (w.remove p) := by
  refine fewer_yields hi rfl (remove_wf hi.wf p) ?_ ?_
  · intro r' j h
    by_cases he : Path.lock r' = p
    · subst p
      simp [World.remove] at h
    · simpa [World.remove, he] using h
  · intro b k hb
    have hne : Path.temp b k ≠ p := fun h => hb (hp b k h.symm)
    simp [World.remove, hne]

lemma setText_apart {fd : ℕ} {t : Option LockRecord} (hop : (w.opener fd).1 = n)
    (ht : ∀ x, t = some x → x.node_id = n) {b : NodeId} (hb : b ≠ n) : Apart b w (w.setText fd t) := by
  refine ⟨Int.le_refl _, Nat.le_refl _, fun _ _ => rfl, ?_, ?_, fun _ => rfl⟩
  · intro i _ hi
    have hne : i ≠ fd := by
      rintro rfl
      exact hb (hi.symm.trans hop)
    simp [World.setText, hne]
  · rintro r hr ⟨i, x, hi, hx, hxb⟩
    by_cases he : i = fd
    · subst i
      have hx' : t = some x := by simpa [World.setText] using hx
      exact hb (hxb.symm.trans (ht x hx'))
    · exact hr ⟨i, x, hi, by simpa [World.setText, he] using hx, hxb⟩

lemma Apart.stamp {w' : World} {b : NodeId} (h : Apart b w w') (r : Resource) (ttl : ℤ) :
    Apart b w (w'.stamp n r ttl) :=
  ⟨h.now, h.next, h.opener, h.text, h.unnamed, h.temp⟩

lemma lastWrite_stamp {r' : Resource} {m : NodeId} {ttl : ℤ} :
    (w.stamp n r ttl).lastWrite m r' = if m = n ∧ r' = r then some ⟨w.now, ttl⟩ else w.lastWrite m r' := by
  by_cases hm : m = n
  · subst m
    by_cases hr : r' = r
    · simp [World.stamp, hr]
    · simp [World.stamp, hr]
  · simp [World.stamp, hm]

lemma failWrite_yields (hi : Stamped w) {fd : ℕ} (hop : (w.opener fd).1 = n) :
    contract.Yields n w (w.setText fd none) := by
  refine ⟨⟨⟨hi.wf.bound, hi.wf.inj⟩, hi.origin, ?_⟩, fun b hb => setText_apart hop (by simp) hb⟩
  intro r i x h hx
  by_cases he : i = fd
  · simp [World.setText, he] at hx
  · exact hi.stamped r i x h (by simpa [World.setText, he] using hx)

/-- `n` has created the lock file and not written it; wherever the file is by now, the lock
path does not name `n`. -/
structure Opened (n : NodeId) (r : Resource) (fd : ℕ) (w : World) : Prop where
  opener : w.opener fd = (n, .lock r)
  bound : fd < w.next
  unnamed : ¬ names w r n

lemma writeLock_yields (hi : Stamped w) {fd : ℕ} (ho : Opened n r fd w) {x : LockRecord}
    (hx : x.node_id = n) (hnow : x.heartbeat_at ≤ w.now) : contract.Yields n w (w.writeLock n fd x) := by
  have hw : w.writeLock n fd x = (w.setText fd (some x)).stamp n r x.ttl_ms := by
    simp [World.writeLock, ho.opener]
  have hapart : ∀ b, b ≠ n → Apart b w (w.writeLock n fd x) := by
    intro b hb
    rw [hw]
    refine (setText_apart (by rw [ho.opener]) ?_ hb).stamp r _
    rintro y ⟨⟩
    exact hx
  rw [hw] at hapart ⊢
  refine ⟨⟨⟨hi.wf.bound, hi.wf.inj⟩, hi.origin, ?_⟩, hapart⟩
  intro r' i y h hy
  rw [lastWrite_stamp]
  by_cases he : i = fd
  · subst i
    obtain rfl : y = x := by simpa [World.stamp, World.setText, eq_comm] using hy
    have hr : r' = r := by
      rcases hi.origin r' fd h with ho' | ⟨b, k, ho'⟩
      · rw [ho.opener] at ho'
        exact (Path.lock.inj ho').symm
      · rw [ho.opener] at ho'
        cases ho'
    exact ⟨w.now, by rw [if_pos ⟨hx, hr⟩]; rfl, hnow⟩
  · have hy' : w.text i = some y := by simpa [World.stamp, World.setText, he] using hy
    have hne : ¬ (y.node_id = n ∧ r' = r) := by
      rintro ⟨hn, rfl⟩
      exact ho.unnamed ⟨i, y, h, hy', hn⟩
    rw [if_neg hne]
    exact hi.stamped r' i y h hy'

/-- A temporary of `n`, with its content. -/
structure Kept (n : NodeId) (k fd : ℕ) (x : Option LockRecord) (w : World) : Prop where
  opener : w.opener fd = (n, .temp n k)
  bound : fd < w.next
  dir : w.dir (.temp n k) = some fd
  text : w.text fd = x

lemma Kept.not_lock {k fd : ℕ} {x : Option LockRecord} (ho : Kept n k fd x w) (hi : Stamped w)
    {r : Resource} {i : ℕ} (h : w.dir (.lock r) = some i) : i ≠ fd := by
  rintro rfl
  cases hi.wf.inj _ _ _ h ho.dir

lemma writeTemp_yields (hi : Stamped w) {k fd : ℕ} {t : Option LockRecord} (ho : Kept n k fd t w)
    {x : LockRecord} (hx : x.node_id = n) : contract.Yields n w (w.setText fd (some x)) := by
  refine ⟨⟨⟨hi.wf.bound, hi.wf.inj⟩, hi.origin, ?_⟩, fun b hb => setText_apart (by rw [ho.opener]) ?_ hb⟩
  · intro r i y h hy
    exact hi.stamped r i y h (by simpa [World.setText, ho.not_lock hi h] using hy)
  · rintro y ⟨⟩
    exact hx

lemma replace_yields (hi : Stamped w) {k fd : ℕ} {x : LockRecord} (ho : Kept n k fd (some x) w)
    (hx : x.node_id = n) (hnow : x.heartbeat_at ≤ w.now) :
    contract.Yields n w (w.replaceLock n (.temp n k) (.lock r) fd) := by
  have hw : w.replaceLock n (.temp n k) (.lock r) fd =
      (w.move (.temp n k) (.lock r) fd).stamp n r x.ttl_ms := by simp [World.replaceLock, ho.text]
  have hlock : ∀ r' i, (w.move (.temp n k) (.lock r) fd).dir (.lock r') = some i →
      (r' = r ∧ i = fd) ∨ (r' ≠ r ∧ w.dir (.lock r') = some i) := by
    intro r' i h
    by_cases he : r' = r
    · subst r'
      exact Or.inl ⟨rfl, by simpa [World.move, eq_comm] using h⟩
    · exact Or.inr ⟨he, by simpa [World.move, he] using h⟩
  rw [hw]
  refine ⟨⟨⟨(move_wf hi.wf ho.dir).bound, (move_wf hi.wf ho.dir).inj⟩, ?_, ?_⟩, ?_⟩
  · intro r' i h
    rcases hlock r' i h with ⟨rfl, rfl⟩ | ⟨-, h'⟩
    · exact Or.inr ⟨n, k, ho.opener⟩
    · exact hi.origin r' i h'
  · intro r' i y h hy
    rw [lastWrite_stamp]
    rcases hlock r' i h with ⟨rfl, rfl⟩ | ⟨hr, h'⟩
    · obtain rfl : x = y := Option.some.inj (ho.text.symm.trans hy)
      exact ⟨w.now, by rw [if_pos ⟨hx, rfl⟩]; rfl, hnow⟩
    · rw [if_neg (fun he => hr he.2)]
      exact hi.stamped r' i y h' hy
  · intro b hb
    have hmove : Apart b w (w.move (.temp n k) (.lock r) fd) := by
      refine ⟨Int.le_refl _, Nat.le_refl _, fun _ _ => rfl, fun _ _ _ => rfl, ?_, ?_⟩
      · rintro r' hr' ⟨i, y, h, hy, hyb⟩
        rcases hlock r' i h with ⟨rfl, rfl⟩ | ⟨-, h'⟩
        · obtain rfl : x = y := Option.some.inj (ho.text.symm.trans hy)
          exact hb (hyb.symm.trans hx)
        · exact hr' ⟨i, y, h', hy, hyb⟩
      · intro j
        simp [World.move, hb]
    exact hmove.stamp r _

end Steps

section Programs

variable {ttl : NodeId → ℤ} {n : NodeId} {r : Resource} {i : ℤ} {α β : Type} {s : World}

/-- The commands that a node may issue at any time: all but the writes. -/
def Tame (n : NodeId) : Command → Prop
  | .openExcl p => ∃ r, p = .lock r
  | .rename src dst => ∃ r now, src = .lock r ∧ dst = .stale r n now
  | .unlink p => ∀ b k, p = .temp b k → b = n
  | .write .. | .replace .. => False
  | _ => True

lemma exec_tame {c : Command} (hc : Tame n c) {o : Bool} {w w' : World} {y : Reply c} (hi : Stamped w)
    (h : exec n o w c = some (w', y)) : contract.Yields n w w' ∧ w'.now = w.now := by
  have hself : contract.Yields n w w := Contract.Yields.refl hi
  cases c with
  | utcMs => cases h; exact ⟨hself, rfl⟩
  | «exists» p => cases h; exact ⟨hself, rfl⟩
  | readText p =>
    simp only [exec] at h
    repeat' (split at h)
    all_goals cases h; exact ⟨hself, rfl⟩
  | fsync fd =>
    simp only [exec] at h
    split at h <;> cases h <;> exact ⟨hself, rfl⟩
  | onLockAcquired r =>
    simp only [exec] at h
    split at h <;> cases h <;> exact ⟨hself, rfl⟩
  | openExcl p =>
    simp only [exec] at h
    split at h
    · cases h; exact ⟨hself, rfl⟩
    · split at h <;> cases h
      · exact ⟨create_yields hi (Or.inl hc) ‹_›, rfl⟩
      · exact ⟨hself, rfl⟩
  | mkstemp =>
    simp only [exec] at h
    split at h
    · cases h; exact ⟨hself, rfl⟩
    · split at h <;> cases h
      exact ⟨create_yields hi (Or.inr ⟨_, rfl⟩) ‹_›, rfl⟩
  | write fd x => exact hc.elim
  | replace src dst => exact hc.elim
  | rename src dst =>
    obtain ⟨r, now, rfl, rfl⟩ := hc
    simp only [exec] at h
    split at h
    · cases h; exact ⟨hself, rfl⟩
    · split at h
      · cases h; exact ⟨hself, rfl⟩
      · rename_i i hd
        split at h <;> cases h
        · exact ⟨rename_yields hi hd, rfl⟩
        · exact ⟨hself, rfl⟩
  | unlink p =>
    simp only [exec] at h
    split at h
    · cases h; exact ⟨hself, rfl⟩
    · split at h <;> cases h
      · exact ⟨hself, rfl⟩
      · exact ⟨remove_yields hi hc, rfl⟩

/-- The program keeps to the contract, and the clock has passed `i` when it ends. -/
abbrev Spec (ttl : NodeId → ℤ) (n : NodeId) (i : ℤ) (q : Code β) (s : World) : Prop :=
  contract.wp (fileShield ttl) n (fun _ => True) (fun _ t => i ≤ t.now) q s

lemma tame_spec {q : Code β} (hq : q.Issues (Tame n)) (hi : Stamped s) (hs : i ≤ s.now) :
    Spec ttl n i q s := by
  refine Contract.wp_of_issues (C := contract) (T := fun w => i ≤ w.now) ?_ ?_ (fun _ _ _ => trivial)
    (fun _ _ _ h => h) hq hi hs
  · exact fun s t _ h _ hs => hs.trans h.now
  · intro c o t w y hc hit ht _ hw
    obtain ⟨hy, hnow⟩ := exec_tame hc hit hw
    exact ⟨hy, hnow ▸ ht⟩

lemma spec_bind {p : Code α} {f : α → Code β} (hi : Stamped s) (hp : Spec ttl n i p s)
    (hf : ∀ v t, Stamped t → i ≤ t.now → Spec ttl n i (f v) t) : Spec ttl n i (p >>= f) s := by
  refine Contract.wp_bind (Contract.wp_mono hi hp ?_)
  rintro (e | v) t hit ht
  · exact ht
  · exact hf v t hit ht

lemma spec_catch {p : Code α} {g : Exc → Code α} (hi : Stamped s) (hp : Spec ttl n i p s)
    (hg : ∀ e t, Stamped t → i ≤ t.now → Spec ttl n i (g e) t) : Spec ttl n i (tryCatch p g) s := by
  refine Contract.wp_handle (Contract.wp_mono hi hp ?_)
  rintro (e | v) t hit ht
  · exact hg e t hit ht
  · exact ht

lemma spec_finally {p : Code α} {cleanup : Code Unit} (hi : Stamped s) (hp : Spec ttl n i p s)
    (hc : cleanup.Issues (Tame n)) : Spec ttl n i (tryFinally p cleanup) s :=
  spec_bind hi
    (spec_catch hi hp fun _ _ hit ht => spec_bind hit (tame_spec hc hit ht) fun _ _ _ h => h)
    fun _ _ hit ht => spec_bind hit (tame_spec hc hit ht) fun _ _ _ h => h

lemma utcMs_spec {f : ℤ → Code β} (hs : i ≤ s.now)
    (hf : ∀ now t, Stamped t → i ≤ now → now ≤ t.now → Spec ttl n now (f now) t) :
    Spec ttl n i (utcMs >>= f) s := by
  intro t ht hit _ o w y hw
  cases hw
  refine ⟨Contract.Yields.refl hit, Contract.wp_mono hit (hf t.now t hit (hs.trans ht.now) le_rfl) ?_⟩
  exact fun _ _ _ h => (hs.trans ht.now).trans h

lemma unlinkIfExists_issues {p : Path} (hp : ∀ b k, p = .temp b k → b = n) :
    (unlinkIfExists p).Issues (Tame n) := by
  refine ⟨trivial, fun b => ?_⟩
  cases b with
  | false => trivial
  | true => exact ⟨hp, fun x => orRaise_issues x⟩

lemma readRecord_tame (p : Path) : (readRecord p).Issues (Tame n) := by
  refine ⟨trivial, fun b => ?_⟩
  cases b with
  | false => trivial
  | true =>
    refine ⟨trivial, fun x => ?_⟩
    rcases x with e | _ | y <;> trivial

lemma open_spec {f : Except OSErr ℕ → Code β} (hs : i ≤ s.now)
    (hok : ∀ fd t, Stamped t → i ≤ t.now → Opened n r fd t → Spec ttl n i (f (.ok fd)) t)
    (herr : ∀ e t, Stamped t → i ≤ t.now → Spec ttl n i (f (.error e)) t) :
    Spec ttl n i (openExcl (.lock r) >>= f) s := by
  intro t ht hit _ o w y hw
  have hnow : i ≤ t.now := hs.trans ht.now
  change exec n o t (.openExcl (.lock r)) = some (w, y) at hw
  simp only [exec] at hw
  split at hw
  · cases hw
    exact ⟨Contract.Yields.refl hit, herr _ t hit hnow⟩
  · split at hw <;> cases hw
    · have hy := create_yields (n := n) hit (Or.inl ⟨r, rfl⟩) ‹_›
      refine ⟨hy, hok _ _ hy.1 hnow ⟨by simp [World.create], Nat.lt_succ_self _, ?_⟩⟩
      rintro ⟨j, x, hj, hx, -⟩
      obtain rfl : t.next = j := by simpa [World.create] using hj
      simp [World.create] at hx
    · exact ⟨Contract.Yields.refl hit, herr _ t hit hnow⟩

lemma Opened.weaken {fd : ℕ} {w w' : World} (ho : Opened n r fd w) (h : Apart n w w') :
    Opened n r fd w' :=
  ⟨(h.opener fd ho.bound).trans ho.opener, Nat.lt_of_lt_of_le ho.bound h.next, h.unnamed r ho.unnamed⟩

lemma Kept.weaken {k fd : ℕ} {x : Option LockRecord} {w w' : World} (ho : Kept n k fd x w)
    (h : Apart n w w') : Kept n k fd x w' :=
  ⟨(h.opener fd ho.bound).trans ho.opener, Nat.lt_of_lt_of_le ho.bound h.next,
    (h.temp k).trans ho.dir, (h.text fd ho.bound (by rw [ho.opener])).trans ho.text⟩

lemma writeLock_spec {fd : ℕ} {x : LockRecord} (hx : x.node_id = n) (hxi : x.heartbeat_at ≤ i)
    (hs : i ≤ s.now) (ho : Opened n r fd s) : Spec ttl n i (writeAndSync fd x) s := by
  intro t ht hit _ o w y hw
  have hnow : i ≤ t.now := hs.trans ht.now
  have ho' := ho.weaken ht
  cases o with
  | true =>
    cases hw
    exact ⟨failWrite_yields hit (by rw [ho'.opener]), hnow⟩
  | false =>
    cases hw
    have hy := writeLock_yields hit ho' hx (hxi.trans hnow)
    have hnow' : (t.writeLock n fd x).now = t.now := by
      simp [World.writeLock, ho'.opener, World.stamp, World.setText]
    exact ⟨hy, tame_spec ⟨trivial, fun x => orRaise_issues x⟩ hy.1 (hnow' ▸ hnow)⟩

lemma takeOver_spec {x : LockRecord} {now : ℤ} (hx : x.node_id = n) (hxi : x.heartbeat_at ≤ i)
    (hs : i ≤ s.now) : Spec ttl n i (takeOver n r x (.stale r n now)) s := by
  have hstale : (unlinkIfExists (.stale r n now)).Issues (Tame n) := unlinkIfExists_issues (by simp)
  refine open_spec hs ?_ ?_
  · intro fd t hit ht ho
    refine spec_bind hit (spec_finally hit (spec_catch hit (writeLock_spec hx hxi ht ho) ?_) hstale) ?_
    · exact fun e u hiu hu => spec_bind hiu (tame_spec (unlinkIfExists_issues (by simp)) hiu hu)
        fun _ _ _ h => h
    · intro _ u hiu hu
      refine spec_bind hiu (tame_spec (readRecord_tame _) hiu hu) ?_
      rintro (_ | verified) v _ hv
      · exact hv
      · dsimp only
        split <;> exact hv
  · rintro (_ | _ | _ | _) t hit ht
    · exact spec_bind hit (tame_spec hstale hit ht) fun _ u hiu hu =>
        spec_bind hiu (tame_spec (readRecord_tame _) hiu hu) fun _ _ _ h => h
    · exact ht
    · exact ht
    · exact ht

lemma reclaim_spec {x : LockRecord} {now : ℤ} (hx : x.node_id = n) (hxi : x.heartbeat_at ≤ i)
    (hi : Stamped s) (hs : i ≤ s.now) : Spec ttl n i (do
      let stale_path ← orThrow (withName r n now)
      match ← rename (.lock r) stale_path with
      | .error .fileNotFound => .again
      | .error e => throw (.os e)
      | .ok () => takeOver n r x stale_path) s := by
  rw [withName_bind]
  split
  · have hrename : (rename (.lock r) (.stale r n now)).Issues (Tame n) := ⟨⟨r, now, rfl, rfl⟩, fun _ => trivial⟩
    refine spec_bind hi (tame_spec hrename hi hs) ?_
    rintro ((_ | _ | _ | _) | _) w hiw hw
    · exact hw
    · exact fun _ _ _ => trivial
    · exact hw
    · exact hw
    · exact takeOver_spec hx hxi hw
  · exact hs

lemma acquireOnce_spec {t : ℤ} (hs : i ≤ s.now) :
    Spec ttl n i (acquireOnce n r t) s := by
  refine utcMs_spec hs ?_
  intro now u hiu _ hu
  refine open_spec hu ?_ ?_
  · exact fun fd v hiv hv ho => spec_bind hiv (writeLock_spec rfl le_rfl hv ho) fun _ _ _ h => h
  · rintro (_ | _ | _ | _) v hiv hv
    · refine spec_bind hiv (tame_spec (readRecord_tame _) hiv hv) ?_
      rintro (_ | existing) v' hiv' hv'
      · exact fun _ _ _ => trivial
      · dsimp only
        split
        · exact reclaim_spec rfl le_rfl hiv' hv'
        · exact hv'
    · exact hv
    · exact hv
    · exact hv

lemma raiseOrSleep_tame {deadline : Option ℤ} {e : Exc} :
    (raiseOrSleep utcMs deadline e).Issues (Tame n) := by
  simp only [raiseOrSleep]
  split
  · cases deadline with
    | none => trivial
    | some deadline =>
      refine ⟨trivial, fun now : ℤ => ?_⟩
      change Prog.Issues _ (if deadline ≤ now then throw e else pure none : Code (Option LockRecord))
      split <;> trivial
  · trivial

lemma acquire_spec {t : ℤ} {deadline : Option ℤ} (hi : Stamped s) (hs : i ≤ s.now) :
    Spec ttl n i (acquire n r t deadline) s := by
  refine spec_catch hi (spec_bind hi (acquireOnce_spec hs) ?_) fun e u hiu hu =>
    tame_spec raiseOrSleep_tame hiu hu
  intro record u hiu hu
  refine spec_bind hiu (tame_spec (q := onLockAcquired r) ⟨trivial, fun _ => trivial⟩ hiu hu) ?_
  exact fun x v hiv hv => spec_bind hiv (tame_spec (orThrow_issues x) hiv hv) fun _ _ _ h => h

lemma mkstemp_spec {f : Except OSErr (Path × ℕ) → Code β} (hs : i ≤ s.now)
    (hok : ∀ k fd t, Stamped t → i ≤ t.now → Kept n k fd none t →
      Spec ttl n i (f (.ok (.temp n k, fd))) t)
    (herr : ∀ e t, Stamped t → i ≤ t.now → Spec ttl n i (f (.error e)) t) :
    Spec ttl n i (mkstemp >>= f) s := by
  intro t ht hit _ o w y hw
  have hnow : i ≤ t.now := hs.trans ht.now
  change exec n o t .mkstemp = some (w, y) at hw
  simp only [exec] at hw
  split at hw
  · cases hw
    exact ⟨Contract.Yields.refl hit, herr _ t hit hnow⟩
  · split at hw <;> cases hw
    have hy := create_yields (n := n) hit (Or.inr ⟨_, rfl⟩) ‹_›
    refine ⟨hy, hok _ _ _ hy.1 hnow ⟨?_, Nat.lt_succ_self _, ?_, ?_⟩⟩ <;> simp [World.create]

lemma writeRecord_spec {x : LockRecord} (hx : x.node_id = n) (hxi : x.heartbeat_at ≤ i)
    (hs : i ≤ s.now) : Spec ttl n i (writeRecord (.lock r) x) s := by
  refine mkstemp_spec hs ?_ (fun _ _ _ h => h)
  intro k fd t hit ht ho
  refine spec_finally hit ?_ (unlinkIfExists_issues (by simp))
  intro t' ht' hit' _ o w y hw
  have hnow : i ≤ t'.now := ht.trans ht'.now
  have ho' := ho.weaken ht'
  cases o with
  | true =>
    cases hw
    exact ⟨failWrite_yields hit' (by rw [ho'.opener]), hnow⟩
  | false =>
    cases hw
    have htext : t'.writeLock n fd x = t'.setText fd (some x) := by simp [World.writeLock, ho'.opener]
    rw [htext]
    have hy := writeTemp_yields hit' ho' hx
    have ho₁ : Kept n k fd (some x) (t'.setText fd (some x)) :=
      ⟨ho'.opener, ho'.bound, ho'.dir, by simp [World.setText]⟩
    refine ⟨hy, ?_⟩
    intro u hu hiu _ o w y hw
    cases o with
    | true =>
      cases hw
      exact ⟨Contract.Yields.refl hiu, hnow.trans hu.now⟩
    | false =>
      cases hw
      have ho₂ := ho₁.weaken hu
      have hnow₂ : i ≤ u.now := hnow.trans hu.now
      refine ⟨Contract.Yields.refl hiu, ?_⟩
      intro v hv hiv _ o w y hw
      have ho₃ := ho₂.weaken hv
      have hnow₃ : i ≤ v.now := hnow₂.trans hv.now
      change exec n o v (.replace (.temp n k) (.lock r)) = some (w, y) at hw
      simp only [exec, ho₃.dir] at hw
      split at hw <;> cases hw
      · exact ⟨Contract.Yields.refl hiv, hnow₃⟩
      · have hy' := replace_yields (r := r) hiv ho₃ hx (hxi.trans hnow₃)
        have hnow' : (v.replaceLock n (.temp n k) (.lock r) fd).now = v.now := by
          simp [World.replaceLock, ho₃.text, World.stamp, World.move]
        refine ⟨hy', ?_⟩
        change i ≤ World.now _
        rw [hnow']
        exact hnow₃

lemma lockedByOther_tame (x : LockRecord) : (lockedByOther n x).Issues (Tame n) := by
  rw [lockedByOther]
  split
  · trivial
  · exact ⟨trivial, fun _ => trivial⟩

lemma heartbeat_spec {t : ℤ} (hi : Stamped s) (hs : i ≤ s.now) : Spec ttl n i (heartbeat n r t) s := by
  refine spec_bind hi (tame_spec (readRecord_tame _) hi hs) ?_
  rintro (_ | record) u hiu hu
  · exact hu
  · refine spec_bind hiu (tame_spec (lockedByOther_tame record) hiu hu) ?_
    rintro (_ | _) v hiv hv
    · refine utcMs_spec hv ?_
      exact fun now w hiw _ hw => spec_bind hiw (writeRecord_spec rfl le_rfl hw) fun _ _ _ h => h
    · exact hv

lemma release_spec {force : Bool} (hi : Stamped s) (hs : i ≤ s.now) :
    Spec ttl n i (release n r force) s := by
  refine spec_bind hi (tame_spec (readRecord_tame _) hi hs) ?_
  rintro (_ | record) u hiu hu
  · exact hu
  · have hq : (if force then pure false else lockedByOther n record : Code Bool).Issues (Tame n) := by
      cases force
      · exact lockedByOther_tame record
      · trivial
    refine spec_bind hiu (tame_spec hq hiu hu) ?_
    rintro (_ | _) v hiv hv
    · exact tame_spec (unlinkIfExists_issues (by simp)) hiv hv
    · exact hv

lemma body_spec {p : Procedure} (hi : Stamped s) : Spec ttl n s.now (body ttl n p) s := by
  cases p with
  | acquire r t deadline => exact acquire_spec hi le_rfl
  | heartbeat r t => exact spec_bind hi (heartbeat_spec hi le_rfl) fun _ _ _ h => h
  | release r => exact spec_bind hi (release_spec hi le_rfl) fun _ _ _ h => h

end Programs

lemma setHeld_yields {w : World} (hi : Stamped w) (n : NodeId) (r : Resource) (b : Bool) :
    contract.Yields n w (w.setHeld n r b) :=
  ⟨⟨⟨hi.wf.bound, hi.wf.inj⟩, hi.origin, hi.stamped⟩, fun _ _ => ⟨Int.le_refl _, Nat.le_refl _,
    fun _ _ => rfl, fun _ _ _ => rfl, fun _ h => h, fun _ => rfl⟩⟩

lemma fileShield_meets (ttl : NodeId → ℤ) : contract.Meets (fileShield ttl) where
  enter n p s w hi hw := by
    obtain rfl := Option.some.inj hw
    refine ⟨?_, trivial⟩
    cases p with
    | acquire r t deadline => exact setHeld_yields hi n r false
    | heartbeat r t => exact Contract.Yields.refl hi
    | release r => exact setHeld_yields hi n r false
  body n p s hi _ := by
    refine Contract.wp_mono hi (body_spec hi) ?_
    intro x t _ _ u _ hiu
    change contract.Yields n u (leave n p x u)
    simp only [leave]
    split
    · exact setHeld_yields hiu n _ true
    · exact Contract.Yields.refl hiu
  crash n s w hi hw := by
    obtain rfl := Option.some.inj hw
    exact Contract.Yields.refl hi
  environment d s w hi hw := by
    obtain rfl := Option.some.inj hw
    refine ⟨⟨⟨hi.wf.bound, hi.wf.inj⟩, hi.origin, hi.stamped⟩, fun b => ⟨?_, Nat.le_refl _,
      fun _ _ => rfl, fun _ _ _ => rfl, fun _ h => h, fun _ => rfl⟩⟩
    change s.now ≤ s.now + d
    omega

def startAt (now : ℤ) : World := { emptyDir with now }

lemma stamped_of_run {ttl : NodeId → ℤ} {now : ℤ} {ls : List (Label NodeId Procedure Bool ℕ)}
    {s : Pool Disk NodeId World Procedure Exc (Option LockRecord)}
    (hr : run (fileShield ttl).step (Pool.idle (startAt now)) ls = some s) : Stamped s.shared := by
  have hi : Stamped (startAt now) := by
    refine ⟨⟨?_, ?_⟩, ?_, ?_⟩ <;> simp [startAt, emptyDir]
  exact contract.sound_of_unguarded (fileShield_meets ttl) (fun _ _ _ => trivial) hi hr

section Primitives

variable {β : Type}

@[simp] lemma utcMs_bind (f : ℤ → Code β) :
    utcMs >>= f = Prog.call (I := Disk) .utcMs (fun y : Disk.Reply .utcMs => f y) := rfl
@[simp] lemma pathExists_bind (p : Path) (f : Bool → Code β) :
    pathExists p >>= f = Prog.call (I := Disk) (.exists p) (fun y : Disk.Reply (.exists p) => f y) := rfl
@[simp] lemma readText_bind (p : Path) (f : Except OSErr (Option LockRecord) → Code β) :
    readText p >>= f = Prog.call (I := Disk) (.readText p) (fun y : Disk.Reply (.readText p) => f y) := rfl
@[simp] lemma openExcl_bind (p : Path) (f : Except OSErr ℕ → Code β) :
    openExcl p >>= f = Prog.call (I := Disk) (.openExcl p) (fun y : Disk.Reply (.openExcl p) => f y) := rfl
@[simp] lemma mkstemp_bind (f : Except OSErr (Path × ℕ) → Code β) :
    mkstemp >>= f = Prog.call (I := Disk) .mkstemp (fun y : Disk.Reply .mkstemp => f y) := rfl
@[simp] lemma write_bind (fd : ℕ) (x : LockRecord) (f : Except OSErr Unit → Code β) :
    write fd x >>= f = Prog.call (I := Disk) (.write fd x) (fun y : Disk.Reply (.write fd x) => f y) := rfl
@[simp] lemma fsync_bind (fd : ℕ) (f : Except OSErr Unit → Code β) :
    fsync fd >>= f = Prog.call (I := Disk) (.fsync fd) (fun y : Disk.Reply (.fsync fd) => f y) := rfl
@[simp] lemma rename_bind (src dst : Path) (f : Except OSErr Unit → Code β) :
    rename src dst >>= f = Prog.call (I := Disk) (.rename src dst) (fun y : Disk.Reply (.rename src dst) => f y) := rfl
@[simp] lemma replace_bind (src dst : Path) (f : Except OSErr Unit → Code β) :
    replace src dst >>= f = Prog.call (I := Disk) (.replace src dst) (fun y : Disk.Reply (.replace src dst) => f y) := rfl
@[simp] lemma remove_bind (p : Path) (f : Except OSErr Unit → Code β) :
    remove p >>= f = Prog.call (I := Disk) (.unlink p) (fun y : Disk.Reply (.unlink p) => f y) := rfl
@[simp] lemma onLockAcquired_bind (r : Resource) (f : Except Exc Unit → Code β) :
    onLockAcquired r >>= f = Prog.call (I := Disk) (.onLockAcquired r) (fun y : Disk.Reply (.onLockAcquired r) => f y) := rfl

end Primitives

variable {ttl : NodeId → ℤ} {m : NodeId} {r : Resource} {w : World}
  {t : ℤ} {deadline : Option ℤ} {e : ℕ → ℕ}

@[simp] lemma pacedExec_eq (e : ℕ → ℕ) (i : ℕ) (w : World) (c : Command) :
    (fileShield ttl).pacedExec m false e i w c = exec m false (tick (e i) w) c := rfl

lemma alone_of_free (h : w.dir (.lock r) = none) :
    ∃ v x, (acquire m r t deadline).alone ((fileShield ttl).pacedExec m false e) 0 w =
      some (v, .ok (some x)) := by
  simp [acquire, acquireRound, acquireOnce, acquireAt, Prog.alone, exec, tick, h, writeAndSync, orThrow]

lemma alone_of_unreadable {i : ℕ} (h : w.dir (.lock r) = some i) (hi : w.text i = none) :
    ∃ v, (acquire m r t deadline).alone ((fileShield ttl).pacedExec m false e) 0 w =
      some (v, .error .jsonDecode) ∧ v.held = w.held := by
  simp [acquire, acquireRound, acquireOnce, acquireAt, Prog.alone, exec, tick, h, readRecord, hi, raiseOrSleep,
    isTransient]

lemma alone_of_stale {i : ℕ} {x : LockRecord} (h : w.dir (.lock r) = some i) (hi : w.text i = some x)
    (hx : x.ttl_ms < w.now - x.heartbeat_at) (husable : Usable m (w.now + e 0)) :
    ∃ v y, (acquire m r t deadline).alone ((fileShield ttl).pacedExec m false e) 0 w =
      some (v, .ok (some y)) := by
  have hst : x.ttl_ms < w.now + ↑(e 0) - x.heartbeat_at := by omega
  obtain ⟨hname, hlength⟩ := husable
  simp [acquire, acquireRound, acquireOnce, acquireAt, Prog.alone, exec, tick, h, writeAndSync, orThrow, withName, hname,
    Path.Fits, hlength,
    readRecord, hi, isStale, hst, takeOver, World.move, World.create, World.writeLock, World.setText,
    World.stamp, tryFinally, unlinkIfExists, unlink, World.remove]

lemma alone_of_unusable {i : ℕ} {x : LockRecord} (h : w.dir (.lock r) = some i) (hi : w.text i = some x)
    (hx : x.ttl_ms < w.now - x.heartbeat_at) (hunusable : ¬ Usable m (w.now + e 0)) :
    ∃ v err, (acquire m r t deadline).alone ((fileShield ttl).pacedExec m false e) 0 w =
      some (v, .error err) ∧ v.held = w.held := by
  have hst : x.ttl_ms < w.now + ↑(e 0) - x.heartbeat_at := by omega
  by_cases hname : Nameable m
  · have hlength : ¬ staleNameBytes m (w.now + e 0) ≤ 255 := fun hle => hunusable ⟨hname, hle⟩
    simp [acquire, acquireRound, acquireOnce, acquireAt, Prog.alone, exec, tick, h, orThrow, withName, hname, Path.Fits, hlength,
      readRecord, hi, isStale, hst, raiseOrSleep, isTransient]
  · simp [acquire, acquireRound, acquireOnce, acquireAt, Prog.alone, exec, tick, h, orThrow, withName, hname,
      readRecord, hi, isStale, hst, raiseOrSleep, isTransient]

/-- The lock file stands there without a complete record: its creator has not written it. -/
def Unreadable (w : World) (r : Resource) : Prop := ∃ i, w.dir (.lock r) = some i ∧ w.text i = none

/-- Every node's last write of the lock is older than its TTL. -/
def RunOut (w : World) (r : Resource) : Prop :=
  ∀ n l, w.lastWrite n r = some l → ¬ registry.live w.now l

abbrev Nodes := Pool Disk NodeId World Procedure Exc (Option LockRecord)

/-- Node `m` acquires at one call, time passing between its steps as `e` says. -/
def Acquires (ttl : NodeId → ℤ) (s : Nodes) (m : NodeId) (r : Resource) (t deadline : Option ℤ) (e : ℕ → ℕ) : Prop :=
  ∃ k u, run (fileShield ttl).step s (.invoke m (.acquire r t deadline) :: Service.paced m false e 0 k) = some u ∧
    u.active m = none ∧ u.shared.held m r = true

/-- No unfinished lock file stands there; and if a lock file does, `m` can rename it. -/
def Recoverable (w : World) (r : Resource) (m : NodeId) (now : ℤ) : Prop :=
  ¬ Unreadable w r ∧ ((w.dir (.lock r)).isSome → Usable m now)

lemma alone_of_recoverable (hi : Stamped w) (hq : RunOut w r) (h : Recoverable w r m (w.now + e 0)) :
    ∃ v y, (acquire m r t deadline).alone ((fileShield ttl).pacedExec m false e) 0 w = some (v, .ok (some y)) := by
  obtain ⟨hreadable, husable⟩ := h
  cases hd : w.dir (.lock r) with
  | none => exact alone_of_free hd
  | some i =>
    cases ht : w.text i with
    | none => exact absurd ⟨i, hd, ht⟩ hreadable
    | some x =>
      obtain ⟨since, hl, hsince⟩ := hi.stamped r i x hd ht
      have hover : ¬ w.now - since ≤ x.ttl_ms := hq _ _ hl
      exact alone_of_stale hd ht (by omega) (husable (by rw [hd]; rfl))

lemma alone_of_not_recoverable (hi : Stamped w) (hq : RunOut w r) (h : ¬ Recoverable w r m (w.now + e 0)) :
    ∃ v err, (acquire m r t deadline).alone ((fileShield ttl).pacedExec m false e) 0 w = some (v, .error err) ∧
      v.held = w.held := by
  by_cases hunreadable : Unreadable w r
  · obtain ⟨i, hd, ht⟩ := hunreadable
    obtain ⟨v, hv, hsame⟩ := @alone_of_unreadable ttl m r w t deadline e i hd ht
    exact ⟨v, _, hv, hsame⟩
  · rw [Recoverable, not_and, Classical.not_imp] at h
    obtain ⟨hsome, hunusable⟩ := h hunreadable
    obtain ⟨i, hd⟩ := Option.isSome_iff_exists.mp hsome
    cases ht : w.text i with
    | none => exact absurd ⟨i, hd, ht⟩ hunreadable
    | some x =>
      obtain ⟨since, hl, hsince⟩ := hi.stamped r i x hd ht
      have hover : ¬ w.now - since ≤ x.ttl_ms := hq _ _ hl
      exact alone_of_unusable hd ht (by omega) hunusable

lemma acquires_iff {s : Nodes} (hi : Stamped s.shared) (hm : s.active m = none)
    (hq : RunOut s.shared r) {t : Option ℤ} :
    Acquires ttl s m r t deadline e ↔ Recoverable s.shared r m (s.shared.now + e 0) := by
  let s' : Nodes := ⟨s.shared.setHeld m r false, Function.update s.active m
    (some (.acquire r t deadline, acquire m r (effectiveTtl (ttl m) t) deadline))⟩
  have hinvoke : (fileShield ttl).step s (.invoke m (.acquire r t deadline)) = some s' := by
    simp [Service.step, hm, fileShield, enter, body, s']
  have hactive : s'.active m =
      some (.acquire r t deadline, acquire m r (effectiveTtl (ttl m) t) deadline) :=
    Function.update_self ..
  have hi' : Stamped s'.shared := (setHeld_yields hi m r false).1
  constructor
  · rintro ⟨k, u, hr, hu, hheld⟩
    by_contra hnot
    obtain ⟨v, hv, hr⟩ := run_cons.mp hr
    obtain rfl := Option.some.inj (hinvoke.symm.trans hv)
    obtain ⟨v, err, hv, hsame⟩ := @alone_of_not_recoverable ttl m r s'.shared (effectiveTtl (ttl m) t) deadline e
      hi' hq hnot
    obtain ⟨j, v', hv', rfl⟩ := Service.eq_of_run_alone hactive hv hr hu
    obtain rfl := Option.some.inj hv'
    change v.held m r = true at hheld
    rw [hsame] at hheld
    simp [s', World.setHeld] at hheld
  · intro h
    obtain ⟨v, x, hv⟩ := @alone_of_recoverable ttl m r s'.shared (effectiveTtl (ttl m) t) deadline e hi' hq h
    obtain ⟨j, k, v', -, hr⟩ := Service.exists_run_of_alone (fun i s => ⟨_, rfl⟩) hactive hv
    refine ⟨k, _, run_cons.mpr ⟨s', hinvoke, hr⟩, Function.update_self .., ?_⟩
    simp [fileShield, leave, World.setHeld]

/-- Node `n` stops for good at any point of a run, and time passes until every lease on `r` has
run out. Another node gets the lock exactly when no unfinished lock file stands there, and no lock file
that the node cannot rename. -/
theorem recovers_iff_readable (ttl : NodeId → ℤ) (now : ℤ) {ls : List (Label NodeId Procedure Bool ℕ)}
    {s u : Nodes} (hr : run (fileShield ttl).step (Pool.idle (startAt now)) ls = some s) {n m : NodeId}
    (hmn : m ≠ n) (hm : s.active m = none) {d : ℕ}
    (hu : run (fileShield ttl).step s [.crash n, .environment d] = some u) {r : Resource}
    (hq : RunOut u.shared r) (t deadline : Option ℤ) (e : ℕ → ℕ) :
    Acquires ttl u m r t deadline e ↔ Recoverable s.shared r m (u.shared.now + e 0) := by
  have hi : Stamped u.shared := stamped_of_run (run_append.mpr ⟨s, hr, hu⟩)
  obtain rfl : (⟨tick d s.shared, Function.update s.active n none⟩ : Nodes) = u := Option.some.inj hu
  exact acquires_iff hi (by simpa [hmn] using hm) hq

section Runs

instance (w : World) (r : Resource) : Decidable (Unreadable w r) :=
  decidable_of_iff ((w.dir (.lock r)).any fun i => (w.text i).isNone)
    (by simp [Unreadable, Option.any_eq_true])

/-- node-c has made the first `k` calls of an acquire. -/
def during (k : ℕ) : Option Nodes :=
  run (fileShield fun _ => 100).step (Pool.idle (startAt 0)) (acquiring "node-c" k)

lemma runOut_of_one {w : World} {n : NodeId} {r : Resource} {l : Lease} (hl : ¬ registry.live w.now l)
    (hw : w.lastWrite = Function.update (fun _ _ => none) n (Function.update (fun _ => none) r (some l))) :
    RunOut w r := by
  intro m l' h
  rw [hw] at h
  by_cases hm : m = n
  · subst m
    obtain rfl : l = l' := by simpa using h
    exact hl
  · simp [hm] at h

theorem written_then_crashed_recovers : ∃ s u, during 4 = some s ∧
    run (fileShield fun _ => 100).step s [.crash "node-c", .environment 101] = some u ∧
      Acquires (fun _ => 100) u "node-a" "nginx.conf" none none fun _ => 5 := by
  obtain ⟨s, hs⟩ : ∃ s, s = (during 4).get (by decide +kernel) := ⟨_, rfl⟩
  have hrun : during 4 = some s := by rw [hs, Option.some_get]
  have hwrites : s.shared.lastWrite = Function.update (fun _ _ => none) "node-c"
      (Function.update (fun _ => none) "nginx.conf" (some ⟨0, 100⟩)) := by rw [hs]; rfl
  have hnow : s.shared.now = 0 := by rw [hs]; rfl
  have hidle : s.active "node-a" = none := by rw [hs]; rfl
  have hreadable : ¬ Unreadable s.shared "nginx.conf" := by rw [hs]; decide +kernel
  refine ⟨s, _, hrun, rfl, ?_⟩
  refine (recovers_iff_readable (n := "node-c") (d := 101) _ 0 hrun (by decide) hidle rfl ?_ none
    none fun _ => 5).mpr ⟨hreadable, fun _ => ?_⟩
  swap
  · change Usable "node-a" (s.shared.now + (101 : ℕ) + (5 : ℕ))
    rw [hnow]
    decide +kernel
  refine runOut_of_one (n := "node-c") (l := ⟨0, 100⟩) ?_ hwrites
  change ¬ s.shared.now + (101 : ℕ) - 0 ≤ 100
  omega

/-- node-c stops between the `os.open` of its lock file and the write. -/
theorem created_then_crashed_wedges : ¬ ∀ (s u : Nodes) (d : ℕ), during 2 = some s →
    (s.active "node-c").isSome → s.active "node-a" = none →
    run (fileShield fun _ => 100).step s [.crash "node-c", .environment d] = some u →
    RunOut u.shared "nginx.conf" → ∀ e, Acquires (fun _ => 100) u "node-a" "nginx.conf" none none e := by
  intro h
  obtain ⟨s, hs⟩ : ∃ s, s = (during 2).get (by decide +kernel) := ⟨_, rfl⟩
  have hrun : during 2 = some s := by rw [hs, Option.some_get]
  have hwrites : s.shared.lastWrite = fun _ _ => none := by rw [hs]; rfl
  have hidle : s.active "node-a" = none := by rw [hs]; rfl
  have hunreadable : Unreadable s.shared "nginx.conf" := by rw [hs]; decide +kernel
  have hout : RunOut (tick 101 s.shared) "nginx.conf" := by
    intro n l hl
    rw [tick, hwrites] at hl
    cases hl
  have hlater : run (fileShield fun _ => 100).step (Pool.idle (startAt 0))
      (acquiring "node-c" 2 ++ [.environment 101]) = some ⟨tick 101 s.shared, s.active⟩ :=
    run_append.mpr ⟨s, hrun, rfl⟩
  have hi : Stamped (tick 101 s.shared) := stamped_of_run hlater
  have hacquires := h s _ 101 hrun (by rw [hs]; decide +kernel) hidle rfl hout fun _ => 0
  have hrecoverable := (acquires_iff (s := ⟨tick 101 s.shared, Function.update s.active "node-c" none⟩) hi
    (by simpa using hidle) hout).mp hacquires
  exact hrecoverable.1 hunreadable

end Runs

end OpsSentry.ConfigShield.Recovery
