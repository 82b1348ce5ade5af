import OpsSentry.ConfigShield.FileLeases

/-! Mutual exclusion of the file backend, in every run in which a node acts on a lock
file only while the verdict it reached about it still holds. -/

namespace OpsSentry.ConfigShield

open Foundation.Leases Foundation.Programs Foundation.Runs

variable {ttl : NodeId → ℤ} {n : NodeId} {r : Resource} {J : World → Prop} {α β : Type}

/-- An assertion of node `n` that the steps of the others cannot break. -/
def Stable (n : NodeId) (T : World → Prop) : Prop :=
  ∀ s t, Inv s → Undisturbed n s t → Inv t → T s → T t

def Out (n : NodeId) (r : Resource) (w : World) : Prop := w.held n r = false

def Mine (n : NodeId) (r : Resource) (w : World) : Prop := registry.Live w n r → names w r n

lemma out_stable : Stable n (Out n r) :=
  fun _ _ _ h _ hs => (h.keeps.held r).trans hs

lemma mine_stable : Stable n (Mine n r) :=
  fun _ _ _ h _ hs hl => h.keeps.names r hl (hs (h.keeps.live hl))

lemma own_stable {p : Path} {i : ℕ} {x : Option LockRecord} (hp : Private n p x) :
    Stable n (fun w => Own w n p i x) :=
  fun _ _ _ h _ hs => h.own p i x hp hs

lemma Stable.and {T U : World → Prop} (hT : Stable n T) (hU : Stable n U) :
    Stable n (fun w => T w ∧ U w) :=
  fun s t hs h ht hTU => ⟨hT s t hs h ht hTU.1, hU s t hs h ht hTU.2⟩

abbrev Spec (ttl : NodeId → ℤ) (n : NodeId) (J : World → Prop) (Q : Except Exc β → World → Prop)
    (q : Code β) (s : World) : Prop :=
  contract.wp (fileShield ttl) n J Q q s

def Quiet : Command → Prop
  | .utcMs | .exists _ | .readText _ | .fsync _ | .onLockAcquired _ => True
  | _ => False

lemma exec_quiet {c : Command} (hc : Quiet c) {o : Bool} {w w' : World} {y : Reply c}
    (h : exec n o w c = some (w', y)) : w' = w := by
  cases c <;> try exact hc.elim
  all_goals
    simp only [exec] at h
    repeat' (split at h)
    all_goals exact (Prod.mk.inj (Option.some.inj h)).1.symm

lemma quiet_spec {T : World → Prop} {Q : Except Exc β → World → Prop} {q : Code β} {s : World}
    (hq : q.Issues Quiet) (hT : Stable n T) (hJ : ∀ t, T t → J t) (hi : Inv s) (hs : T s)
    (hQ : ∀ x t, Inv t → T t → Q x t) : Spec ttl n J Q q s := by
  refine Contract.wp_of_issues (C := contract) hT ?_ (fun t _ h => hJ t h) hQ hq hi hs
  intro c o t w y hc hit ht _ hw
  obtain rfl := exec_quiet hc hw
  exact ⟨Contract.Yields.refl hit, ht⟩

lemma quiet_call {c : Command} (hc : Quiet c) {T : World → Prop} (hT : Stable n T)
    {Q : Except Exc β → World → Prop} {f : Reply c → Code β} {s : World} (hi : Inv s) (hs : T s)
    (h : ∀ t y, Inv t → T t → Spec ttl n J Q (f y) t) : Spec ttl n J Q (disk c >>= f) s := by
  intro t ht hit _ o w y hw
  obtain rfl := exec_quiet hc hw
  exact ⟨Contract.Yields.refl hit, h w y hit (hT s w hi ht hit hs)⟩

@[simp] lemma disk_bind (c : Command) (f : Reply c → Code β) :
    disk c >>= f = Prog.call (I := Disk) c f := rfl

@[simp] lemma orRaise_ok (v : α) : orRaise (.ok v) = (Prog.ret v : Code α) := rfl
@[simp] lemma orRaise_error (e : OSErr) : orRaise (.error e) = (Prog.raise (.os e) : Code α) := rfl

lemma orRaise_issues {P : Command → Prop} (x : Except OSErr α) : (orRaise x : Code α).Issues P := by
  cases x <;> trivial

lemma tryFinally_issues {P : Command → Prop} {p : Code α} {cleanup : Code Unit} (hp : p.Issues P)
    (hc : cleanup.Issues P) : (tryFinally p cleanup).Issues P := by
  refine Prog.Issues.bind (Prog.Issues.handle hp fun e => Prog.Issues.bind hc fun _ => ?_) fun v =>
    Prog.Issues.bind hc fun _ => ?_
  · trivial
  · trivial

/-- What an attempt of `acquire` issues once it has read the clock. -/
def Attempts : Command → Prop
  | .openExcl p => ∃ r, p = .lock r
  | .rename _ dst => ∃ r n now, dst = .stale r n now
  | .exists _ | .readText _ | .write _ _ | .fsync _ | .unlink _ => True
  | _ => False

section Attempts

variable {n : NodeId}

lemma unlinkIfExists_attempts (p : Path) : (unlinkIfExists p).Issues Attempts := by
  refine ⟨trivial, fun b => ?_⟩
  cases b with
  | false => trivial
  | true => exact ⟨trivial, fun x => orRaise_issues x⟩

lemma readRecord_attempts (p : Path) : (readRecord p).Issues Attempts := by
  refine ⟨trivial, fun b => ?_⟩
  cases b with
  | false => trivial
  | true =>
    refine ⟨trivial, fun x => ?_⟩
    rcases x with e | _ | y <;> trivial

lemma writeAndSync_attempts (fd : ℕ) (x : LockRecord) : (writeAndSync fd x).Issues Attempts :=
  ⟨trivial, fun y => (orRaise_issues y).bind fun _ => ⟨trivial, fun z => orRaise_issues z⟩⟩

lemma takeOver_attempts (r : Resource) (x : LockRecord) (p : Path) : (takeOver n r x p).Issues Attempts := by
  refine ⟨⟨r, rfl⟩, fun y => ?_⟩
  rcases y with (_ | _ | _ | _) | fd
  · exact (unlinkIfExists_attempts _).bind fun _ => (readRecord_attempts _).bind fun _ => trivial
  · trivial
  · trivial
  · trivial
  · refine (tryFinally_issues ?_ (unlinkIfExists_attempts _)).bind fun _ => (readRecord_attempts _).bind fun y => ?_
    · exact (writeAndSync_attempts fd x).handle fun _ => (unlinkIfExists_attempts _).bind fun _ => trivial
    · cases y with
      | none => trivial
      | some y =>
        dsimp only
        split <;> trivial

lemma reclaim_attempts (r : Resource) (x : LockRecord) (now : ℤ) : Prog.Issues Attempts (do
    let stale_path ← orThrow (withName r n now)
    match ← rename (.lock r) stale_path with
    | .error .fileNotFound => .again
    | .error e => throw (.os e)
    | .ok () => takeOver n r x stale_path : Code LockRecord) := by
  rw [withName_bind]
  split
  · refine ⟨⟨r, n, now, rfl⟩, fun y => ?_⟩
    rcases y with (_ | _ | _ | _) | _
    · trivial
    · trivial
    · trivial
    · trivial
    · exact takeOver_attempts r x _
  · trivial

lemma acquireAt_attempts (r : Resource) (t now : ℤ) : (acquireAt n r t now).Issues Attempts := by
  refine ⟨⟨r, rfl⟩, fun y => ?_⟩
  rcases y with (_ | _ | _ | _) | fd
  · refine (readRecord_attempts _).bind fun y => ?_
    cases y with
    | none => trivial
    | some y =>
      dsimp only
      split
      · exact reclaim_attempts r _ now
      · trivial
  · trivial
  · trivial
  · trivial
  · exact (writeAndSync_attempts fd _).bind fun _ => trivial

end Attempts

lemma readRecord_issues (p : Path) : (readRecord p).Issues Quiet := by
  refine ⟨trivial, fun b => ?_⟩
  cases b with
  | false => trivial
  | true =>
    refine ⟨trivial, fun x => ?_⟩
    rcases x with e | _ | y <;> trivial

lemma unlinkIfExists_spec {T : World → Prop} {Q : Except Exc Unit → World → Prop} {p : Path} {s : World}
    (hunlink : ∀ t, Inv t → T t → CheckHolds n t (.unlink p) →
      contract.Yields n t (t.remove p) ∧ T (t.remove p))
    (hT : Stable n T) (hJ : ∀ t, T t → J t) (hi : Inv s) (hs : T s)
    (hQ : ∀ x t, Inv t → T t → Q x t) : Spec ttl n J Q (unlinkIfExists p) s := by
  refine Contract.wp_of_issues (C := contract)
    (Z := fun c : Command => c = .exists p ∨ c = .unlink p) hT ?_ (fun t _ h => hJ t h) hQ ?_ hi hs
  · rintro c o t w y (rfl | rfl) hit ht hg hw
    · obtain rfl := exec_quiet (n := n) (o := o) (show Quiet (.exists p) from trivial) hw
      exact ⟨Contract.Yields.refl hit, ht⟩
    · change exec n o t (.unlink p) = some (w, y) at hw
      simp only [exec] at hw
      split at hw
      · cases hw
        exact ⟨Contract.Yields.refl hit, ht⟩
      · split at hw <;> cases hw
        · exact ⟨Contract.Yields.refl hit, ht⟩
        · exact hunlink t hit ht hg
  · refine ⟨Or.inl rfl, fun b => ?_⟩
    cases b with
    | false => trivial
    | true => exact ⟨Or.inr rfl, fun x => orRaise_issues x⟩

lemma unlinkStale_spec {T : World → Prop} {Q : Except Exc Unit → World → Prop} {now : ℤ} {s : World}
    (hkeep : ∀ t, T t → T (t.remove (.stale r n now)))
    (hT : Stable n T) (hJ : ∀ t, T t → J t) (hi : Inv s) (hs : T s)
    (hQ : ∀ x t, Inv t → T t → Q x t) :
    Spec ttl n J Q (unlinkIfExists (.stale r n now)) s :=
  unlinkIfExists_spec (fun t hit ht _ =>
    ⟨unlinkScratch_yields hit (Or.inr ⟨r, now, rfl⟩), hkeep t ht⟩) hT hJ hi hs hQ

lemma unlinkLock_spec {Q : Except Exc Unit → World → Prop} {s : World}
    (hJ : ∀ t, Out n r t → J t) (hi : Inv s) (hs : Out n r s)
    (hQ : ∀ x t, Inv t → Out n r t → Q x t) : Spec ttl n J Q (unlinkIfExists (.lock r)) s :=
  unlinkIfExists_spec (fun _ hit ht hg => ⟨unlinkLock_yields hit hg ht, ht⟩) out_stable hJ hi hs hQ

lemma tryFinally_spec {Q : Except Exc β → World → Prop} {q : Code β} {cleanup : Code Unit} {s : World}
    (hi : Inv s) (h : Spec ttl n J (fun x t => Spec ttl n J
      (fun y u => Q (y.bind fun _ => x) u) cleanup t) q s) :
    Spec ttl n J Q (tryFinally q cleanup) s := by
  refine Contract.wp_bind (Contract.wp_handle (Contract.wp_mono hi h ?_))
  rintro (e | v) t hit ht
  · refine Contract.wp_bind (Contract.wp_mono hit ht ?_)
    rintro (e' | _) u _ hu <;> exact hu
  · refine Contract.wp_bind (Contract.wp_mono hit ht ?_)
    rintro (e' | _) u _ hu <;> exact hu

lemma openLock_spec {f : Except OSErr ℕ → Code β} {Q : Except Exc β → World → Prop} {s : World}
    (hi : Inv s) (hs : Out n r s)
    (hok : ∀ t fd, Inv t → Out n r t → Own t n (.lock r) fd none → Spec ttl n J Q (f (.ok fd)) t)
    (herr : ∀ t e, Inv t → Out n r t → Spec ttl n J Q (f (.error e)) t) :
    Spec ttl n J Q (openExcl (.lock r) >>= f) s := by
  intro t ht hit _ faulty w y hw
  have hout := out_stable s t hi ht hit hs
  change exec n faulty t (.openExcl (.lock r)) = some (w, y) at hw
  simp only [exec] at hw
  split at hw
  · cases hw
    exact ⟨Contract.Yields.refl hit, herr t _ hit hout⟩
  · split at hw
    · rename_i hd
      cases hw
      exact ⟨create_yields hit hd, hok _ _ (create_yields (n := n) hit hd).1 hout (create_own _)⟩
    · cases hw
      exact ⟨Contract.Yields.refl hit, herr t _ hit hout⟩

lemma readLock_spec {f : Option LockRecord → Code β} {Q : Except Exc β → World → Prop} {s : World}
    {T : World → Prop} (hT : Stable n T) (hTJ : ∀ t, T t → J t) (hi : Inv s) (hs : T s)
    (herr : ∀ t e, Inv t → T t → Q (.error e) t)
    (hok : ∀ t x, Inv t → T t → Spec ttl n J Q (f x) t) :
    Spec ttl n J Q (readRecord (.lock r) >>= f) s := by
  refine Contract.wp_bind (quiet_spec (readRecord_issues _) hT hTJ hi hs ?_)
  rintro (e | x) t hit ht
  · exact herr t e hit ht
  · exact hok t x hit ht

lemma rename_spec {now : ℤ} {f : Except OSErr Unit → Code β} {Q : Except Exc β → World → Prop}
    {s : World} (hi : Inv s) (hs : Out n r s)
    (hnext : ∀ t x, Inv t → Out n r t → Spec ttl n J Q (f x) t) :
    Spec ttl n J Q (rename (.lock r) (.stale r n now) >>= f) s := by
  intro t ht hit hg faulty w y hw
  have hout := out_stable s t hi ht hit hs
  change exec n faulty t (.rename (.lock r) (.stale r n now)) = some (w, y) at hw
  simp only [exec] at hw
  split at hw
  · cases hw
    exact ⟨Contract.Yields.refl hit, hnext t _ hit hout⟩
  · split at hw
    · cases hw
      exact ⟨Contract.Yields.refl hit, hnext t _ hit hout⟩
    · rename_i i hd
      split at hw <;> cases hw
      · have hy : contract.Yields n t (t.move (.lock r) (.stale r n now) i) := rename_yields hit hd hg hout
        exact ⟨hy, hnext _ _ hy.1 hout⟩
      · exact ⟨Contract.Yields.refl hit, hnext t _ hit hout⟩

section Acquire

variable (hJ : ∀ t, Out n r t → J t)
include hJ

lemma writeAndSync_spec {fd : ℕ} {x : LockRecord} {s : World} (hx : x.node_id = n) (hi : Inv s)
    (hs : Out n r s) (ho : Own s n (.lock r) fd none) :
    Spec ttl n J (Granted (Out n r) (Mine n r)) (writeAndSync fd x) s := by
  intro t ht hit _ faulty w y hw
  have hown := own_stable (Or.inl ⟨r, rfl, rfl⟩) s t hi ht hit ho
  have hout := out_stable s t hi ht hit hs
  cases faulty with
  | true =>
    cases hw
    rw [setText_none hown.2.2]
    exact ⟨Contract.Yields.refl hit, granted_error hout⟩
  | false =>
    cases hw
    have hy := writeLock_yields hit hown hx
    have hmine : Mine n r (t.writeLock n fd x) := fun _ => writeLock_names hown hx
    have hout' : Out n r (t.writeLock n fd x) := by
      simpa [Out, World.writeLock, hown.2.1, World.stamp, World.setText] using hout
    exact ⟨hy, quiet_spec (T := fun w => Out n r w ∧ Mine n r w) ⟨trivial, fun x => orRaise_issues x⟩
      (out_stable.and mine_stable) (fun t h => hJ t h.1) hy.1 ⟨hout', hmine⟩
      (fun _ _ _ h => granted_of_and h)⟩

lemma fillLock_spec {fd : ℕ} {x : LockRecord} {now : ℤ} {s : World} (hx : x.node_id = n) (hi : Inv s)
    (hs : Out n r s) (ho : Own s n (.lock r) fd none) :
    Spec ttl n J (Granted (Out n r) (Mine n r))
      (tryFinally
        (tryCatch (writeAndSync fd x) fun e => do unlinkIfExists (.lock r); throw e)
        (unlinkIfExists (.stale r n now))) s := by
  refine tryFinally_spec hi (Contract.wp_handle
    (Contract.wp_mono hi (writeAndSync_spec hJ hx hi hs ho) ?_))
  rintro (e | v) t hit ht
  · refine Contract.wp_bind (unlinkLock_spec hJ hit ht.1 ?_)
    rintro (e' | _) u hiu hu
    · exact unlinkStale_spec (fun _ h => h) out_stable hJ hiu hu (by
        rintro (_ | _) v _ hv <;> exact granted_error hv)
    · exact unlinkStale_spec (fun _ h => h) out_stable hJ hiu hu (by
        rintro (_ | _) v _ hv <;> exact granted_error hv)
  · refine unlinkStale_spec (T := fun w => Out n r w ∧ Mine n r w) ?_ (out_stable.and mine_stable)
      (fun t h => hJ t h.1) hit ⟨ht.1, ht.2 v rfl⟩ (fun _ _ _ h => granted_of_and h)
    rintro u ⟨hu, hm⟩
    exact ⟨hu, fun hl => (unlinkScratch_frame (Or.inr ⟨r, now, rfl⟩)).names_of id (hm hl)⟩

lemma takeOver_spec {x : LockRecord} {now : ℤ} {s : World} (hx : x.node_id = n) (hi : Inv s)
    (hs : Out n r s) : Spec ttl n J (Granted (Out n r) (Mine n r)) (takeOver n r x (.stale r n now)) s := by
  refine openLock_spec hi hs ?_ ?_
  · intro t fd hit hout hown
    refine Contract.wp_bind (Contract.wp_mono hit (fillLock_spec hJ hx hit hout hown) ?_)
    rintro (e | v) u hiu hu
    · exact granted_error hu.1
    · refine readLock_spec (T := fun w => Out n r w ∧ Mine n r w) (out_stable.and mine_stable)
        (fun t h => hJ t h.1) hiu ⟨hu.1, hu.2 v rfl⟩ (fun _ _ _ h => granted_error h.1) ?_
      rintro t' (_ | y) _ ht'
      · exact granted_error ht'.1
      · dsimp only
        split
        · exact granted_of_and ht'
        · exact granted_error ht'.1
  · rintro t (_ | _ | _ | _) hit hout
    · refine Contract.wp_bind (unlinkStale_spec (fun _ h => h) out_stable hJ hit hout ?_)
      rintro (e | _) u hiu hu
      · exact granted_error hu
      · exact readLock_spec out_stable hJ hiu hu (fun _ _ _ h => granted_error h)
          (fun _ _ _ h => granted_error h)
    · exact granted_error hout
    · exact granted_error hout
    · exact granted_error hout

lemma again_spec {Q : Except Exc β → World → Prop} {s : World} (hi : Inv s) (hs : Out n r s) :
    Spec ttl n J Q .again s :=
  fun t ht hit => hJ t (out_stable s t hi ht hit hs)

lemma reclaim_spec {x : LockRecord} {now : ℤ} {s : World} (hx : x.node_id = n) (hi : Inv s)
    (hs : Out n r s) :
    Spec ttl n J (Granted (Out n r) (Mine n r)) (do
      let stale_path ← orThrow (withName r n now)
      match ← rename (.lock r) stale_path with
      | .error .fileNotFound => .again
      | .error e => throw (.os e)
      | .ok () => takeOver n r x stale_path) s := by
  rw [withName_bind]
  split
  · refine rename_spec hi hs ?_
    rintro t ((_ | _ | _ | _) | _) hit ht
    · exact granted_error ht
    · exact again_spec hJ hit ht
    · exact granted_error ht
    · exact granted_error ht
    · exact takeOver_spec hJ hx hit ht
  · exact granted_error hs

lemma acquireOnce_spec {t : ℤ} {s : World} (hi : Inv s) (hs : Out n r s) :
    Spec ttl n J (Granted (Out n r) (Mine n r)) (acquireOnce n r t) s := by
  refine quiet_call (c := .utcMs) trivial out_stable hi hs ?_
  intro u now hiu hout
  refine openLock_spec hiu hout ?_ ?_
  · intro v fd hiv hov hown
    refine Contract.wp_bind (Contract.wp_mono hiv (writeAndSync_spec hJ rfl hiv hov hown) ?_)
    rintro (e | _) v' _ hv
    · exact granted_error hv.1
    · exact granted_of_and ⟨hv.1, hv.2 () rfl⟩
  · rintro v (_ | _ | _ | _) hiv hov
    · refine readLock_spec out_stable hJ hiv hov (fun _ _ _ h => granted_error h) ?_
      rintro v' (_ | existing) hiv' hov'
      · exact again_spec hJ hiv' hov'
      · dsimp only
        split
        · exact reclaim_spec hJ rfl hiv' hov'
        · exact granted_error hov'
    · exact granted_error hov
    · exact granted_error hov
    · exact granted_error hov

lemma acquire_spec {t : ℤ} {deadline : Option ℤ} {s : World} (hi : Inv s) (hs : Out n r s) :
    Spec ttl n J (fun x w => Out n r w ∧ ∀ v, x = .ok (some v) → Mine n r w)
      (acquire n r t deadline) s := by
  refine acquireRound_spec hi (acquireOnce_spec hJ hi hs) ?_ ?_
  · intro u hiu hout hmine
    exact quiet_spec ⟨trivial, fun _ => trivial⟩ (out_stable.and mine_stable) (fun t h => hJ t h.1) hiu
      ⟨hout, hmine⟩ (fun _ _ _ h => h)
  · intro u hiu hout
    exact quiet_spec ⟨trivial, fun _ => trivial⟩ out_stable hJ hiu hout (fun _ _ _ h => h)

end Acquire

section Heartbeat

variable {Q : Except Exc β → World → Prop}

lemma mkstemp_spec {f : Except OSErr (Path × ℕ) → Code β} {s : World}
    (hok : ∀ t k fd, Inv t → Own t n (.temp n k) fd none → Spec ttl n J Q (f (.ok (.temp n k, fd))) t)
    (herr : ∀ t e, Inv t → Spec ttl n J Q (f (.error e)) t) :
    Spec ttl n J Q (mkstemp >>= f) s := by
  intro t _ hit _ faulty w y hw
  change exec n faulty t .mkstemp = some (w, y) at hw
  simp only [exec] at hw
  split at hw
  · cases hw
    exact ⟨Contract.Yields.refl hit, herr t _ hit⟩
  · split at hw
    · rename_i hd
      cases hw
      exact ⟨create_yields hit hd, hok _ _ _ (create_yields (n := n) hit hd).1 (create_own _)⟩
    · simp at hw

lemma writeTemp_spec {k fd : ℕ} {x : LockRecord} {s : World} (hJ : ∀ t, J t) (hi : Inv s)
    (ho : Own s n (.temp n k) fd none) :
    Spec ttl n J (fun y t => y = .ok () → Own t n (.temp n k) fd (some x)) (writeAndSync fd x) s := by
  have hprivate : ∀ y, Private n (.temp n k) y := fun y => Or.inr ⟨k, rfl⟩
  intro t ht hit _ faulty w y hw
  have hown := own_stable (hprivate none) s t hi ht hit ho
  cases faulty with
  | true =>
    cases hw
    rw [setText_none hown.2.2]
    exact ⟨Contract.Yields.refl hit, fun h : (Except.error _ : Except Exc Unit) = .ok () => nomatch h⟩
  | false =>
    cases hw
    rw [writeLock_temp hown]
    have hy := writeTemp_yields hit hown x
    have hown' : Own (t.setText fd (some x)) n (.temp n k) fd (some x) :=
      ⟨hown.1, hown.2.1, by simp [World.setText]⟩
    exact ⟨hy, quiet_spec ⟨trivial, fun x => orRaise_issues x⟩ (own_stable (hprivate _))
      (fun t _ => hJ t) hy.1 hown' (fun _ _ _ h _ => h)⟩

lemma replace_spec {k fd : ℕ} {x : LockRecord} {s : World} (hi : Inv s) (hx : x.node_id = n)
    (ho : Own s n (.temp n k) fd (some x)) {f : Except OSErr Unit → Code β}
    (hnext : ∀ t y, Inv t → Spec ttl n J Q (f y) t) :
    Spec ttl n J Q (replace (.temp n k) (.lock r) >>= f) s := by
  intro t ht hit hg faulty w y hw
  have hown := own_stable (Or.inr ⟨k, rfl⟩) s t hi ht hit ho
  change exec n faulty t (.replace (.temp n k) (.lock r)) = some (w, y) at hw
  simp only [exec, hown.1] at hw
  split at hw
  · cases hw
    exact ⟨Contract.Yields.refl hit, hnext t _ hit⟩
  · cases hw
    have hy := replace_yields hit hown hx hg
    exact ⟨hy, hnext _ _ hy.1⟩

lemma unlinkTemp_spec {Q : Except Exc Unit → World → Prop} {k : ℕ} {s : World} (hJ : ∀ t, J t)
    (hQ : ∀ y t, Inv t → Q y t) (hi : Inv s) : Spec ttl n J Q (unlinkIfExists (.temp n k)) s :=
  unlinkIfExists_spec (T := fun _ => True)
    (fun _ hit _ _ => ⟨unlinkScratch_yields hit (Or.inl ⟨k, rfl⟩), trivial⟩)
    (fun _ _ _ _ _ h => h) (fun t _ => hJ t) hi trivial (fun y t hit _ => hQ y t hit)

lemma writeRecord_spec {x : LockRecord} {s : World} (hx : x.node_id = n) (hJ : ∀ t, J t)
    {Q : Except Exc Unit → World → Prop} (hQ : ∀ y t, Inv t → Q y t) :
    Spec ttl n J Q (writeRecord (.lock r) x) s := by
  refine mkstemp_spec ?_ (fun t e hit => hQ _ t hit)
  intro t k fd hit hown
  refine tryFinally_spec hit (Contract.wp_bind (Contract.wp_mono hit (writeTemp_spec hJ hit hown) ?_))
  have hend : ∀ y t, Inv t → Spec ttl n J (fun z u => Q (z.bind fun _ => y) u)
      (unlinkIfExists (.temp n k)) t :=
    fun y t hit => unlinkTemp_spec hJ (fun z u hiu => hQ _ u hiu) hit
  rintro (_ | v) u hiu hu
  · exact hend _ u hiu
  · refine replace_spec hiu hx (hu rfl) ?_
    rintro v' (_ | _) hiv <;> exact hend _ _ hiv

lemma readAny_spec {f : Option LockRecord → Code β} {Q : Except Exc β → World → Prop} {s : World}
    (hJ : ∀ t, J t) (hi : Inv s) (hQ : ∀ y t, Inv t → Q y t)
    (hok : ∀ t x, Inv t → Spec ttl n J Q (f x) t) :
    Spec ttl n J Q (readRecord (.lock r) >>= f) s :=
  readLock_spec (T := fun _ => True) (fun _ _ _ _ _ h => h) (fun t _ => hJ t) hi trivial
    (fun t _ hit _ => hQ _ t hit) (fun t x hit _ => hok t x hit)

lemma lockedByOther_issues (x : LockRecord) : (lockedByOther n x).Issues Quiet := by
  rw [lockedByOther]
  split
  · trivial
  · exact ⟨trivial, fun _ => trivial⟩

lemma refresh_spec {t : ℤ} {x : LockRecord} {s : World} (hJ : ∀ t, J t) (hi : Inv s)
    {Q : Except Exc LockRecord → World → Prop} (hQ : ∀ y t, Inv t → Q y t) :
    Spec ttl n J Q (refresh n r t x) s := by
  refine quiet_call (c := .utcMs) (T := fun _ => True) trivial (fun _ _ _ _ _ h => h) hi trivial ?_
  intro u now _ _
  refine Contract.wp_bind (writeRecord_spec (n := n) ?_ hJ ?_)
  · rfl
  · rintro (_ | _) w hiw <;> exact hQ _ w hiw

lemma heartbeat_spec {t : ℤ} {s : World} (hJ : ∀ t, J t) (hi : Inv s)
    {Q : Except Exc LockRecord → World → Prop} (hQ : ∀ y t, Inv t → Q y t) :
    Spec ttl n J Q (heartbeat n r t) s := by
  refine readAny_spec hJ hi hQ ?_
  rintro u (_ | record) hiu
  · exact hQ _ u hiu
  · refine Contract.wp_bind (quiet_spec (T := fun _ => True) (lockedByOther_issues record)
      (fun _ _ _ _ _ h => h) (fun t _ => hJ t) hiu trivial ?_)
    rintro (_ | _ | _) v hiv _
    · exact hQ _ v hiv
    · exact refresh_spec hJ hiv hQ
    · exact hQ _ v hiv

end Heartbeat

lemma release_spec {force : Bool} {s : World} (hJ : ∀ t, Out n r t → J t) (hi : Inv s)
    (hs : Out n r s) {Q : Except Exc Unit → World → Prop} (hQ : ∀ y t, Inv t → Q y t) :
    Spec ttl n J Q (release n r force) s := by
  refine readLock_spec out_stable hJ hi hs (fun t _ hit _ => hQ _ t hit) ?_
  rintro u (_ | record) hiu hu
  · exact hQ _ u hiu
  · have hq : (if force then pure false else lockedByOther n record : Code Bool).Issues Quiet := by
      cases force
      · exact lockedByOther_issues record
      · trivial
    refine Contract.wp_bind (quiet_spec hq out_stable hJ hiu hu ?_)
    rintro (_ | _ | _) v hiv hv
    · exact hQ _ v hiv
    · exact unlinkLock_spec hJ hiv hv (fun y t hit _ => hQ y t hit)
    · exact hQ _ v hiv

lemma leave_yields {p : Procedure} {x : Except Exc (Option LockRecord)} {w : World} (hi : Inv w)
    (h : ∀ r t d v, p = .acquire r t d → x = .ok (some v) → Mine n r w) :
    contract.Yields n w (leave n p x w) := by
  simp only [leave]
  split
  · rename_i r t d v
    exact setHeld_yields hi fun _ => h r t d v rfl rfl
  · exact Contract.Yields.refl hi

lemma body_safe {p : Procedure} {s : World} (hi : Inv s) (hp : Pre n p s) :
    contract.Safe (fileShield ttl) n p (body ttl n p) s := by
  cases p with
  | acquire r t deadline =>
    refine Contract.wp_mono hi (acquire_spec (fun _ h => h) hi hp) ?_
    intro x u hiu hx v hv hiv
    refine leave_yields hiv ?_
    rintro r' t' d v' ⟨⟩ rfl
    exact mine_stable u v hiu hv hiv (hx.2 v' rfl)
  | heartbeat r t =>
    refine Contract.wp_bind (heartbeat_spec (fun _ => trivial) hi ?_)
    rintro (_ | _) u _ v _ hiv <;> exact Contract.Yields.refl hiv
  | release r =>
    refine Contract.wp_bind (release_spec (fun _ h => h) hi hp ?_)
    rintro (_ | _) u _ v _ hiv <;> exact Contract.Yields.refl hiv

lemma fileShield_meets (ttl : NodeId → ℤ) : contract.Meets (fileShield ttl) where
  enter n p s w hi hw := by
    obtain rfl := Option.some.inj hw
    cases p with
    | acquire r t deadline =>
      exact ⟨setHeld_yields hi (by simp), by simp [contract, Pre, enter, World.setHeld]⟩
    | heartbeat r t => exact ⟨Contract.Yields.refl hi, trivial⟩
    | release r => exact ⟨setHeld_yields hi (by simp), by simp [contract, Pre, enter, World.setHeld]⟩
  body n p s hi hp := body_safe hi hp
  crash n s w hi hw := by
    obtain rfl := Option.some.inj hw
    exact Contract.Yields.refl hi
  environment d s w hi hw := by
    obtain rfl := Option.some.inj hw
    exact tick_yields hi d

/-- A lock directory before any of the nodes has acquired anything, with whatever files
earlier runs have left in it. -/
structure Initial (w : World) : Prop where
  wf : Wf w
  idle : ∀ n r, w.held n r = false

/-- If every rename, replace and unlink of a lock file happens while the file is the node's own
or names a node whose last write is older than its TTL, no two nodes ever hold one resource. -/
theorem exclusive_of_checks_hold (ttl : NodeId → ℤ) {w : World} (hw : Initial w)
    {ls : List (Label NodeId Procedure Bool ℕ)} {t : Pool Disk NodeId World Procedure Exc (Option LockRecord)}
    (hc : Along (fileShield ttl).step contract.Respects (Pool.idle w) ls)
    (hr : run (fileShield ttl).step (Pool.idle w) ls = some t) : MutualExclusion t.shared := by
  have hi : Inv w := ⟨hw.wf, fun n r hh => by simp [Registry.Holder, registry, hw.idle] at hh⟩
  have ht : Inv t.shared := contract.sound (fileShield_meets ttl) hi hc hr
  exact Registry.exclusive_of_backed ht.backed

section Runs

def emptyDir : World where
  now := 0
  dir _ := none
  text _ := none
  opener _ := ("", .lock "")
  next := 0
  lastWrite _ _ := none
  held _ _ := false

lemma initial_emptyDir : Initial emptyDir :=
  ⟨⟨by simp [emptyDir], by simp [emptyDir]⟩, by simp [emptyDir]⟩

/-- Node `n` starts an acquire and makes the first `k` calls of it. -/
def acquiring (n : NodeId) (k : ℕ) : List (Label NodeId Procedure Bool ℕ) :=
  .invoke n (.acquire "nginx.conf" none none) :: List.replicate k (.advance n false)

def moves (n : NodeId) (k : ℕ) : List (Label NodeId Procedure Bool ℕ) :=
  List.replicate k (.advance n false)

def staleReclaim : List (Label NodeId Procedure Bool ℕ) :=
  acquiring "node-c" 6 ++ [.crash "node-c", .environment 101] ++ acquiring "node-a" 14

theorem stale_reclaim_exclusive :
    ∃ t, run (fileShield fun _ => 100).step (Pool.idle emptyDir) staleReclaim = some t ∧
      registry.Holder t.shared "node-a" "nginx.conf" ∧ MutualExclusion t.shared := by
  obtain ⟨t, ht, hh⟩ := exists_of_run_any (fileShield fun _ => 100).step
    (Pool.idle emptyDir) staleReclaim
    (fun t => decide (registry.Holder t.shared "node-a" "nginx.conf")) (by decide +kernel)
  exact ⟨t, ht, of_decide_eq_true hh,
    exclusive_of_checks_hold _ initial_emptyDir (by decide +kernel) ht⟩

/-- Two nodes read the same stale record. The slower one renames away the lock that the
faster one has just taken. -/
def lateReclaim : List (Label NodeId Procedure Bool ℕ) :=
  acquiring "node-c" 6 ++ [.crash "node-c", .environment 101] ++
    acquiring "node-a" 4 ++ acquiring "node-b" 4 ++ moves "node-a" 10 ++ moves "node-b" 10

theorem late_reclaim_not_exclusive :
    ¬ ∀ ls t, run (fileShield fun _ => 100).step (Pool.idle emptyDir) ls = some t →
      MutualExclusion t.shared := by
  intro h
  obtain ⟨t, ht, hh⟩ := exists_of_run_any (fileShield fun _ => 100).step
    (Pool.idle emptyDir) lateReclaim
    (fun t => decide (registry.Holder t.shared "node-a" "nginx.conf" ∧
      registry.Holder t.shared "node-b" "nginx.conf")) (by decide +kernel)
  obtain ⟨ha, hb⟩ := of_decide_eq_true hh
  exact absurd (h _ t ht _ _ _ ha hb) (by decide)

end Runs

end OpsSentry.ConfigShield
