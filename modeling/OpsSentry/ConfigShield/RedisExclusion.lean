import OpsSentry.ConfigShield.RedisLock

/-! Mutual exclusion of the Redis backend, in every run in which a node renews or deletes
a key only while the key still holds its own record or none. -/

namespace OpsSentry.ConfigShield.Redis

open Foundation.Leases Foundation.Programs Foundation.Runs

def names (w : World) (k : Key) (n : NodeId) : Prop :=
  ∃ x expiry, w.cell k = some (x, expiry) ∧ x.node_id = n

def registry : Registry World NodeId Key where
  now := World.now
  names := names
  lease := World.lastSet
  held := World.held
  live now l := now - l.since < l.ttl
  names_unique := by
    rintro w k m n ⟨x, e, hx, rfl⟩ ⟨y, f, hy, rfl⟩
    rw [(Prod.mk.inj (Option.some.inj (hx.symm.trans hy))).1]
  live_anti := by
    intro i j l hij hj
    omega

/-- At most one node holds a key: its acquire returned, it has called no release since, and
its last successful SET is younger than its TTL. -/
def MutualExclusion (w : World) : Prop := registry.Exclusive w

/-- Every live record that was deleted was the deleting node's own. -/
def DeletesOwn (w : World) : Prop := ∀ p ∈ w.deleted, p.2.node_id = p.1

def OwnOrGone (w : World) (n : NodeId) (k : Key) : Prop :=
  ∀ x, w.record k = some x → x.node_id = n

/-- What the GET said about the key still holds at the SET XX or the DEL. -/
def CheckHolds (n : NodeId) (w : World) : Command → Prop
  | .setXx k _ _ => OwnOrGone w n k
  | .del k => OwnOrGone w n k
  | _ => True

instance (i : ℤ) (l : Lease) : Decidable (registry.live i l) :=
  inferInstanceAs (Decidable (i - l.since < l.ttl))

instance (w : World) (n : NodeId) (k : Key) : Decidable (OwnOrGone w n k) :=
  match h : w.record k with
  | none => isTrue (by simp [OwnOrGone, h])
  | some x => decidable_of_iff (x.node_id = n) (by simp [OwnOrGone, h])

instance (n : NodeId) (w : World) (c : Command) : Decidable (CheckHolds n w c) := by
  simp only [CheckHolds]
  split <;> infer_instance

structure Inv (w : World) : Prop where
  recorded : ∀ k x expiry, w.cell k = some (x, expiry) →
    ∃ l, w.lastSet x.node_id k = some l ∧ expiry = l.since + l.ttl
  backed : registry.Backed w
  deletes : DeletesOwn w

def Out (n : NodeId) (k : Key) (w : World) : Prop := w.held n k = false

def Mine (n : NodeId) (k : Key) (w : World) : Prop := registry.Live w n k → names w k n

def Pre (n : NodeId) : Procedure → World → Prop
  | .release r, w => Out n (redisKey r) w
  | _, _ => True

def contract : Contract Server NodeId World Procedure where
  Inv := Inv
  Rely := registry.Keeps
  Guard := CheckHolds
  Pre := Pre
  refl n w := Registry.Keeps.refl n w
  trans h h' := h.trans h'

instance (n : NodeId) (w : World) (c : Command) : Decidable (contract.Guard n w c) :=
  inferInstanceAs (Decidable (CheckHolds n w c))

section Commands

variable {w : World} {n : NodeId} {k : Key}

/-- A key that names a live owner has not expired: its expiry is the end of that lease. -/
lemma record_of_live (hi : Inv w) {b : NodeId} (hn : names w k b) (hl : registry.Live w b k) :
    ∃ x, w.record k = some x ∧ x.node_id = b := by
  obtain ⟨x, e, hx, rfl⟩ := hn
  obtain ⟨l, hl, hlive⟩ := hl
  obtain ⟨l', hl', rfl⟩ := hi.recorded k x e hx
  obtain rfl := Option.some.inj (hl.symm.trans hl')
  refine ⟨x, ?_, rfl⟩
  have hlt : w.now < l.since + l.ttl := by
    change w.now - l.since < l.ttl at hlive
    omega
  simp [World.record, hx, hlt]

/-- No live owner but `n` itself is named by a key that is `n`'s own or gone. -/
lemma not_live_of_own (hi : Inv w) (hd : OwnOrGone w n k) {b : NodeId} (hb : b ≠ n)
    (hn : names w k b) : ¬ registry.Live w b k := by
  intro hl
  obtain ⟨x, hx, hxb⟩ := record_of_live hi hn hl
  exact hb (hxb.symm.trans (hd x hx))

lemma set_lastSet_of_ne {x : LockRecord} {px : ℤ} {b : NodeId} {k' : Key} (h : b ≠ n ∨ k' ≠ k) :
    (w.set n k x px).lastSet b k' = w.lastSet b k' := by
  by_cases hb : b = n
  · subst b
    simp [World.set, Function.update_of_ne (h.resolve_left (by simp))]
  · simp [World.set, Function.update_of_ne hb]

lemma set_names_of_ne {x : LockRecord} {px : ℤ} {b : NodeId} {k' : Key} (h : k' ≠ k) :
    names (w.set n k x px) k' b ↔ names w k' b := by
  simp [names, World.set, Function.update_of_ne h]

lemma set_names {x : LockRecord} {px : ℤ} (hx : x.node_id = n) : names (w.set n k x px) k n :=
  ⟨x, w.now + px, by simp [World.set], hx⟩

lemma set_yields (hi : Inv w) (hd : OwnOrGone w n k) {x : LockRecord} {px : ℤ} (hx : x.node_id = n) :
    contract.Yields n w (w.set n k x px) := by
  have hkeep : ∀ b, b ≠ n → registry.Keeps b w (w.set n k x px) := by
    intro b hb
    refine ⟨le_rfl, fun _ => set_lastSet_of_ne (x := x) (Or.inl hb), fun _ => rfl, ?_⟩
    intro k' hl hn
    by_cases hk : k' = k
    · subst k'
      obtain ⟨l, hl, hlive⟩ := hl
      exact (not_live_of_own hi hd hb hn ⟨l, (set_lastSet_of_ne (x := x) (Or.inl hb)).symm.trans hl, hlive⟩).elim
    · exact (set_names_of_ne hk).mpr hn
  refine ⟨⟨?_, hi.backed.step hkeep ?_, hi.deletes⟩, hkeep⟩
  · intro k' y e hy
    by_cases hk : k' = k
    · subst k'
      simp only [World.set, Function.update_self, Option.some.injEq, Prod.mk.injEq] at hy
      obtain ⟨rfl, rfl⟩ := hy
      exact ⟨⟨w.now, px⟩, by simp [World.set, hx], rfl⟩
    · simp only [World.set, ne_eq, hk, not_false_eq_true, Function.update_of_ne] at hy
      obtain ⟨l, hl, he⟩ := hi.recorded k' y e hy
      exact ⟨l, (set_lastSet_of_ne (Or.inr hk)).trans hl, he⟩
  · intro k' hh
    by_cases hk : k' = k
    · subst k'
      exact set_names hx
    · obtain ⟨hheld, l, hl, hlive⟩ := hh
      exact (set_names_of_ne hk).mpr
        (hi.backed n k' ⟨hheld, l, (set_lastSet_of_ne (x := x) (Or.inr hk)).symm.trans hl, hlive⟩)

lemma del_yields (hi : Inv w) (hd : OwnOrGone w n k) (hout : Out n k w) :
    contract.Yields n w (w.del n k) := by
  have hnames : ∀ b k', k' ≠ k → names w k' b → names (w.del n k) k' b := by
    rintro b k' hk ⟨x, e, hx, hb⟩
    exact ⟨x, e, by simpa [World.del, Function.update_of_ne hk] using hx, hb⟩
  have hkeep : ∀ b, b ≠ n → registry.Keeps b w (w.del n k) := by
    intro b hb
    refine ⟨le_rfl, fun _ => rfl, fun _ => rfl, ?_⟩
    intro k' hl hn
    by_cases hk : k' = k
    · subst k'
      exact (not_live_of_own hi hd hb hn hl).elim
    · exact hnames b k' hk hn
  refine ⟨⟨?_, hi.backed.step hkeep ?_, ?_⟩, hkeep⟩
  · intro k' y e hy
    by_cases hk : k' = k
    · subst k'
      simp [World.del] at hy
    · exact hi.recorded k' y e (by simpa [World.del, Function.update_of_ne hk] using hy)
  · intro k' hh
    by_cases hk : k' = k
    · subst k'
      exact absurd hh.1 (by simpa [registry, World.del, Out] using hout)
    · exact hnames n k' hk (hi.backed n k' hh)
  · intro p hp
    simp only [World.del, List.mem_append, Option.mem_toList, Option.map_eq_some_iff] at hp
    rcases hp with hp | ⟨x, hx, rfl⟩
    · exact hi.deletes p hp
    · exact hd x hx

lemma setHeld_yields (hi : Inv w) {b : Bool} (hb : b = true → Mine n k w) :
    contract.Yields n w (w.setHeld n k b) := by
  have hkeep : ∀ c, c ≠ n → registry.Keeps c w (w.setHeld n k b) := fun c hc =>
    ⟨le_rfl, fun _ => rfl, fun _ => by simp [registry, World.setHeld, Function.update_of_ne hc],
      fun _ _ h => h⟩
  refine ⟨⟨hi.recorded, hi.backed.step hkeep ?_, hi.deletes⟩, hkeep⟩
  intro k' hh
  by_cases hk : k' = k
  · subst k'
    exact hb (by simpa [registry, World.setHeld] using hh.1) hh.2
  · exact hi.backed n k' ⟨by simpa [registry, World.setHeld, Function.update_of_ne hk] using hh.1, hh.2⟩

lemma tick_yields (hi : Inv w) (d : ℕ) : Inv (tick d w) ∧ ∀ b, registry.Keeps b w (tick d w) := by
  have hk : ∀ b, registry.Keeps b w (tick d w) := fun b =>
    ⟨by change w.now ≤ w.now + d; omega, fun _ => rfl, fun _ => rfl, fun _ _ h => h⟩
  exact ⟨⟨hi.recorded, hi.backed.keep hk, hi.deletes⟩, hk⟩

end Commands

variable {ttl : NodeId → ℤ} {n : NodeId} {k : Key} {r : Resource} {J : World → Prop} {β : Type}

abbrev Spec (ttl : NodeId → ℤ) (n : NodeId) (J : World → Prop) (Q : Except Exc β → World → Prop)
    (q : Code β) (s : World) : Prop :=
  contract.wp (redisShield ttl) n J Q q s

def Stable (n : NodeId) (T : World → Prop) : Prop := ∀ s t, registry.Keeps n s t → T s → T t

lemma out_stable : Stable n (Out n k) := fun _ _ h hs => (h.held k).trans hs

lemma mine_stable : Stable n (Mine n k) := fun _ _ h hs hl => h.names k hl (hs (h.live hl))

lemma true_stable : Stable n fun _ => True := fun _ _ _ h => h

def Quiet : Command → Prop
  | .utcMs | .get _ | .onLockAcquired _ => True
  | _ => False

lemma exec_quiet {c : Command} (hc : Quiet c) {link : Link} {w w' : World} {y : Reply c}
    (h : exec n link w c = some (w', y)) : w' = w := by
  cases c <;> try exact hc.elim
  all_goals
    simp only [exec] at h
    repeat' (split at h)
    all_goals exact (Prod.mk.inj (Option.some.inj h)).1.symm

lemma quiet_call {c : Command} (hc : Quiet c) {T : World → Prop} (hT : Stable n T)
    {Q : Except Exc β → World → Prop} {f : Reply c → Code β} {s : World} (hs : T s)
    (h : ∀ t y, Inv t → T t → Spec ttl n J Q (f y) t) : Spec ttl n J Q (redis c >>= f) s := by
  intro t ht hit _ link w y hw
  obtain rfl := exec_quiet hc hw
  exact ⟨Contract.Yields.refl hit, h w y hit (hT s w ht hs)⟩

variable {Q : Except Exc β → World → Prop}

lemma orThrow_spec {α : Type} {x : Except Exc α} {f : α → Code β} {s : World}
    (herr : ∀ e, Q (.error e) s) (hok : ∀ v, Spec ttl n J Q (f v) s) :
    Spec ttl n J Q (orThrow x >>= f) s := by
  cases x with
  | error e => exact herr e
  | ok v => exact hok v

lemma getKey_spec {T : World → Prop} (hT : Stable n T) {f : Option LockRecord → Code β} {s : World}
    (hs : T s) (herr : ∀ e t, Inv t → T t → Q (.error e) t)
    (hok : ∀ t x, Inv t → T t → Spec ttl n J Q (f x) t) :
    Spec ttl n J Q (get k >>= fun x => orThrow x >>= f) s := by
  refine quiet_call (c := .get k) trivial hT hs ?_
  intro t y hit ht
  exact orThrow_spec (fun e => herr e t hit ht) (fun x => hok t x hit ht)

lemma setNx_spec {x : LockRecord} {px : ℤ} (hx : x.node_id = n) {f : Except Exc Bool → Code β} {s : World}
    (hnext : ∀ t y, Inv t → (y = .ok true → Mine n k t) → Spec ttl n J Q (f y) t) :
    Spec ttl n J Q (setNx k x px >>= f) s := by
  intro t _ hit _ link w y hw
  change exec n link t (.setNx k x px) = some (w, y) at hw
  simp only [exec] at hw
  split at hw
  · cases hw
    exact ⟨Contract.Yields.refl hit, hnext t _ hit (by simp)⟩
  · split at hw
    · rename_i hk
      cases hw
      have hy : contract.Yields n t (t.set n k x px) :=
        set_yields hit (by simp [OwnOrGone, hk]) hx
      exact ⟨hy, hnext _ _ hy.1 fun _ _ => set_names hx⟩
    · cases hw
      refine ⟨Contract.Yields.refl hit, hnext t _ hit ?_⟩
      rw [answer]
      split <;> simp

lemma setXx_spec {x : LockRecord} {px : ℤ} (hx : x.node_id = n) {f : Except Exc Bool → Code β} {s : World}
    (hnext : ∀ t y, Inv t → Spec ttl n J Q (f y) t) : Spec ttl n J Q (setXx k x px >>= f) s := by
  intro t _ hit hg link w y hw
  change exec n link t (.setXx k x px) = some (w, y) at hw
  simp only [exec] at hw
  split at hw
  · cases hw
    exact ⟨Contract.Yields.refl hit, hnext t _ hit⟩
  · split at hw <;> cases hw
    · exact ⟨Contract.Yields.refl hit, hnext t _ hit⟩
    · have hy : contract.Yields n t (t.set n k x px) := set_yields hit hg hx
      exact ⟨hy, hnext _ _ hy.1⟩

lemma del_spec {Q : Except Exc Unit → World → Prop} {s : World} (hs : Out n k s)
    (hQ : ∀ y t, Inv t → Q y t) : Spec ttl n J Q (del k >>= fun x => orThrow x) s := by
  intro t ht hit hg link w y hw
  have hend : ∀ (z : Except Exc Unit) u, Inv u → Spec ttl n J Q (orThrow z) u := by
    rintro (e | v) u hiu <;> exact hQ _ u hiu
  change exec n link t (.del k) = some (w, y) at hw
  simp only [exec] at hw
  split at hw <;> cases hw
  · exact ⟨Contract.Yields.refl hit, hend (.error .redis) t hit⟩
  · have hy := del_yields hit hg (out_stable s t ht hs)
    exact ⟨hy, hend (answer link ()) _ hy.1⟩

lemma acquireOnce_spec {t : ℤ} {s : World} (hJ : ∀ t, J t) :
    Spec ttl n J (Granted (fun _ => True) (Mine n (redisKey r))) (acquireOnce n r t) s := by
  refine quiet_call (c := .utcMs) trivial true_stable trivial ?_
  intro u now _ _
  refine setNx_spec (n := n) ?_ ?_
  · rfl
  rintro v (e | _ | _) _ hmine
  · exact granted_error trivial
  · refine getKey_spec true_stable trivial (fun _ _ _ _ => granted_error trivial) ?_
    rintro w (_ | existing) _ _
    · exact fun t _ _ => hJ t
    · exact granted_error trivial
  · exact granted_of_and ⟨trivial, hmine rfl⟩

lemma acquire_spec {t : ℤ} {deadline : Option ℤ} {s : World} (hJ : ∀ t, J t) (hi : Inv s) :
    Spec ttl n J (fun x w => True ∧ ∀ v, x = .ok (some v) → Mine n (redisKey r) w)
      (acquire n r t deadline) s := by
  refine acquireRound_spec hi (acquireOnce_spec hJ) ?_ ?_
  · intro u _ _ hmine
    exact quiet_call (c := .onLockAcquired r) (f := .ret) trivial mine_stable hmine
      (fun _ _ _ h => ⟨trivial, h⟩)
  · intro u _ _
    exact quiet_call (c := .utcMs) (f := .ret) trivial true_stable trivial (fun _ _ _ h => h)

lemma heartbeat_spec {t : ℤ} {s : World} {Q : Except Exc LockRecord → World → Prop}
    (hQ : ∀ y t, Inv t → Q y t) : Spec ttl n J Q (heartbeat n r t) s := by
  refine getKey_spec true_stable trivial (fun e t hit _ => hQ _ t hit) ?_
  rintro u (_ | record) hiu _
  · exact hQ _ u hiu
  · dsimp only
    split
    · refine quiet_call (c := .utcMs) trivial true_stable trivial ?_
      intro v now _ _
      refine setXx_spec (n := n) ?_ ?_
      · rfl
      rintro w (e | _) hiw <;> exact hQ _ w hiw
    · exact hQ _ u hiu

lemma release_spec {s : World} (hs : Out n (redisKey r) s) {Q : Except Exc Unit → World → Prop}
    (hQ : ∀ y t, Inv t → Q y t) : Spec ttl n J Q (release n r false) s := by
  refine getKey_spec out_stable hs (fun e t hit _ => hQ _ t hit) ?_
  rintro u (_ | record) hiu hu
  · exact hQ _ u hiu
  · dsimp only
    split
    · exact del_spec hu hQ
    · exact hQ _ u hiu

lemma body_safe {p : Procedure} {s : World} (hi : Inv s) (hp : Pre n p s) :
    contract.Safe (redisShield ttl) n p (body ttl n p) s := by
  cases p with
  | acquire r t deadline =>
    refine Contract.wp_mono hi (acquire_spec (fun _ => trivial) hi) ?_
    intro x u _ hx v hv hiv
    rcases x with e | _ | record
    · exact Contract.Yields.refl hiv
    · exact Contract.Yields.refl hiv
    · exact setHeld_yields hiv fun _ => mine_stable u v hv (hx.2 record rfl)
  | heartbeat r t =>
    refine Contract.wp_bind (heartbeat_spec ?_)
    rintro (_ | _) u _ v _ hiv <;> exact Contract.Yields.refl hiv
  | release r =>
    refine Contract.wp_bind (release_spec hp ?_)
    rintro (_ | _) u _ v _ hiv <;> exact Contract.Yields.refl hiv

lemma redisShield_meets (ttl : NodeId → ℤ) : contract.Meets (redisShield ttl) where
  enter n p s w hi hw := by
    obtain rfl := Option.some.inj hw
    cases p with
    | acquire r t deadline => exact ⟨Contract.Yields.refl hi, trivial⟩
    | heartbeat r t => exact ⟨Contract.Yields.refl hi, trivial⟩
    | release r =>
      exact ⟨setHeld_yields hi (by simp), by simp [contract, Pre, Out, enter, World.setHeld]⟩
  body n p s hi hp := body_safe hi hp
  crash n s w hi hw := by
    obtain rfl := Option.some.inj hw
    exact Contract.Yields.refl hi
  environment d s w hi hw := by
    obtain rfl := Option.some.inj hw
    exact tick_yields hi d

def emptyServer (now : ℤ) : World where
  now := now
  cell _ := none
  lastSet _ _ := none
  held _ _ := false
  deleted := []

/-- If every SET XX and every DEL happens while the key holds the node's own record or none,
no two nodes ever hold one key and no release deletes the record of another node. -/
theorem redis_exclusive_of_checks_hold (ttl : NodeId → ℤ) (now : ℤ)
    {ls : List (Label NodeId Procedure Link ℕ)}
    {t : Pool Server NodeId World Procedure Exc (Option LockRecord)}
    (hc : Along (redisShield ttl).step contract.Respects (Pool.idle (emptyServer now)) ls)
    (hr : run (redisShield ttl).step (Pool.idle (emptyServer now)) ls = some t) :
    MutualExclusion t.shared ∧ DeletesOwn t.shared := by
  have hi : Inv (emptyServer now) := ⟨by simp [emptyServer], fun n k hh => by
    simp [Registry.Holder, registry, emptyServer] at hh, by simp [DeletesOwn, emptyServer]⟩
  have ht : Inv t.shared := contract.sound (redisShield_meets ttl) hi hc hr
  exact ⟨Registry.exclusive_of_backed ht.backed, ht.deletes⟩

section Runs

def acquiring (n : NodeId) (k : ℕ) : List (Label NodeId Procedure Link ℕ) :=
  .invoke n (.acquire "nginx.conf" none none) :: List.replicate k (.advance n .up)

def releasing (n : NodeId) (k : ℕ) : List (Label NodeId Procedure Link ℕ) :=
  .invoke n (.release "nginx.conf") :: List.replicate k (.advance n .up)

def handOver : List (Label NodeId Procedure Link ℕ) :=
  acquiring "node-a" 4 ++ releasing "node-a" 3 ++ acquiring "node-b" 4

theorem hand_over_exclusive :
    ∃ t, run (redisShield fun _ => 100).step (Pool.idle (emptyServer 0)) handOver = some t ∧
      registry.Holder t.shared "node-b" (redisKey "nginx.conf") ∧ t.shared.deleted.length = 1 ∧
      MutualExclusion t.shared ∧ DeletesOwn t.shared := by
  obtain ⟨t, ht, hh⟩ := exists_of_run_any (redisShield fun _ => 100).step
    (Pool.idle (emptyServer 0)) handOver
    (fun t => decide (registry.Holder t.shared "node-b" (redisKey "nginx.conf") ∧
      t.shared.deleted.length = 1)) (by decide +kernel)
  obtain ⟨hb, hd⟩ := of_decide_eq_true hh
  exact ⟨t, ht, hb, hd, redis_exclusive_of_checks_hold _ _ (by decide +kernel) ht⟩

/-- A release pauses between its GET and its DEL until its lease has run out and another
node has taken the key; the DEL then frees the key for a third. -/
def lateRelease : List (Label NodeId Procedure Link ℕ) :=
  acquiring "node-a" 4 ++ releasing "node-a" 1 ++ [.environment 100] ++ acquiring "node-b" 4 ++
    List.replicate 2 (.advance "node-a" .up) ++ acquiring "node-c" 4

theorem late_release_not_exclusive :
    ¬ ∀ ls t, run (redisShield fun _ => 100).step (Pool.idle (emptyServer 0)) ls = some t →
      MutualExclusion t.shared ∧ DeletesOwn t.shared := by
  intro h
  obtain ⟨t, ht, hh⟩ := exists_of_run_any (redisShield fun _ => 100).step
    (Pool.idle (emptyServer 0)) lateRelease
    (fun t => decide (registry.Holder t.shared "node-b" (redisKey "nginx.conf") ∧
      registry.Holder t.shared "node-c" (redisKey "nginx.conf"))) (by decide +kernel)
  obtain ⟨hb, hc⟩ := of_decide_eq_true hh
  exact absurd ((h _ t ht).1 _ _ _ hb hc) (by decide)

end Runs

end OpsSentry.ConfigShield.Redis
