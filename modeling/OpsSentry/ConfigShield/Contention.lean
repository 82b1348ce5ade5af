import OpsSentry.ConfigShield.FileExclusion
import OpsSentry.Foundation.Answers

/-! How the attempts of `acquire` on files end when nodes run into each other, with no fault and
no crash. -/

namespace OpsSentry.ConfigShield.Contention

open Foundation.Programs Foundation.Runs

section Calls

/-- The calls of an attempt of `acquire`, its call of itself after a lost race, its look at the
deadline, and the calls of the other procedures. -/
inductive Call
  | attempt (c : Command)
  | recurse
  | check (deadline : Option ℤ)
  | other (c : Command)

/-- A call of itself answers whether it fits on the stack. -/
def Answer : Call → Type
  | .attempt c | .other c => Reply c
  | .recurse => Bool
  | .check _ => ℤ

abbrev Calls : Interface := ⟨Call, Answer⟩

/-- A pass of the loop of `acquire` that has ended, and when it began its last attempt; `.ok none` is
a pass that sleeps and goes round again. -/
structure Pass where
  deadline : Option ℤ
  attempted_at : ℤ
  result : Except Exc (Option LockRecord)

/-- `attempted_at n` is the time at which the latest attempt of node `n` has begun, and `nested n`
how many attempts it is called from. -/
structure Site where
  disk : World
  attempted_at : NodeId → ℤ
  nested : NodeId → ℕ
  passes : List Pass

def Site.start (disk : World) : Site := ⟨disk, fun _ => 0, fun _ => 0, []⟩

def began (n : NodeId) (s : Site) : Command → NodeId → ℤ
  | .utcMs => Function.update s.attempted_at n s.disk.now
  | _ => s.attempted_at

/-- The stack of node `n` takes `frames n` attempts that are called from another one. -/
def exec (frames : NodeId → ℕ) (n : NodeId) (s : Site) : (c : Call) → Option (Site × Answer c)
  | .attempt c =>
    (ConfigShield.exec n false s.disk c).map fun w => ({ s with disk := w.1, attempted_at := began n s c }, w.2)
  | .other c => (ConfigShield.exec n false s.disk c).map fun w => ({ s with disk := w.1 }, w.2)
  | .recurse =>
    some ({ s with nested := Function.update s.nested n (s.nested n + 1) }, decide (s.nested n < frames n))
  | .check _ => some (s, s.disk.now)

def attempting : Embedding Disk Calls := ⟨.attempt, fun _ r => r⟩
def otherwise : Embedding Disk Calls := ⟨.other, fun _ r => r⟩

/-- `return self._acquire_once(...)` with the recursion limit. -/
def bounded {α : Type} : Prog Calls Exc α → Prog Calls Exc α
  | .ret a => .ret a
  | .raise e => .raise e
  | .again => .call .recurse fun fits : Bool => if fits then .again else .raise .recursion
  | .call c k => .call c fun r => bounded (k r)

def body (ttl : NodeId → ℤ) (self : NodeId) : Procedure → Prog Calls Exc (Option LockRecord)
  | .acquire r t deadline =>
    acquireRound (Prog.perform (I := Calls) (.check deadline))
      (bounded ((acquireOnce self r (effectiveTtl (ttl self) t)).lift attempting id))
      ((onLockAcquired r).lift attempting id) deadline
  | .heartbeat r t => (some <$> heartbeat self r (effectiveTtl (ttl self) t)).lift otherwise id
  | .release r => (do release self r false; pure none : Code (Option LockRecord)).lift otherwise id

def leave (n : NodeId) (p : Procedure) (x : Except Exc (Option LockRecord)) (s : Site) : Site :=
  match p with
  | .acquire _ _ deadline => { s with passes := s.passes ++ [⟨deadline, s.attempted_at n, x⟩] }
  | _ => s

/-- The shields of the nodes with no crash and no fault. -/
def shields (ttl : NodeId → ℤ) (frames : NodeId → ℕ) :
    Service Calls NodeId Site Procedure Unit ℕ Exc (Option LockRecord) where
  body := body ttl
  exec n _ := exec frames n
  enter n _ s := some { s with nested := Function.update s.nested n 0 }
  leave := leave
  crash _ _ := none
  environment d s := some { s with disk := tick d s.disk }

/-- Without a deadline a pass ends the call; one that raises reports contention, and has made its last
attempt no sooner than the deadline. -/
def Reports (p : Pass) : Prop :=
  match p.result with
  | .ok (some _) => True
  | .ok none => p.deadline ≠ none
  | .error e => (∃ message, e = .lockAcquisition message) ∧ ∀ d, p.deadline = some d → d ≤ p.attempted_at

/-- What an attempt reads is a complete record, and with one that it finds stale its node id makes a
file name; what it unlinks is there; an attempt that is called from another one fits on the stack; an
attempt that begins before the deadline is over before it. -/
def orderly (frames : NodeId → ℕ) (n : NodeId) (s : Site) : Call → Bool
  | .attempt (.readText p) =>
    match (s.disk.dir p).bind s.disk.text with
    | none => false
    | some x => decide (isStale x (s.attempted_at n) = true → Usable n (s.attempted_at n))
  | .attempt (.unlink p) => (s.disk.dir p).isSome
  | .recurse => decide (s.nested n < frames n)
  | .check (some d) => decide (d ≤ s.disk.now → d ≤ s.attempted_at n)
  | _ => true

end Calls

section Erased

variable {α β : Type}

/-- The look at the deadline as the call of the clock that it is, on a stack without a limit. -/
def erase : Prog Calls Exc α → Code α
  | .ret a => .ret a
  | .raise e => .raise e
  | .again => .again
  | .call (.attempt c) k => .call c fun r => erase (k r)
  | .call (.other c) k => .call c fun r => erase (k r)
  | .call .recurse k => erase (k true)
  | .call (.check _) k => .call .utcMs fun now => erase (k now)

lemma erase_bind (p : Prog Calls Exc α) (f : α → Prog Calls Exc β) :
    erase (p >>= f) = erase p >>= fun a => erase (f a) := by
  induction p with
  | ret a => rfl
  | raise e => rfl
  | again => rfl
  | call c k ih =>
    cases c with
    | attempt c | other c => exact congrArg (Prog.call (I := Disk) c) (funext ih)
    | recurse => exact ih true
    | check d => exact congrArg (Prog.call (I := Disk) .utcMs) (funext ih)

lemma erase_catch (p : Prog Calls Exc α) (g : Exc → Prog Calls Exc α) :
    erase (tryCatch p g) = tryCatch (erase p) fun e => erase (g e) := by
  induction p with
  | ret a => rfl
  | raise e => rfl
  | again => rfl
  | call c k ih =>
    cases c with
    | attempt c | other c => exact congrArg (Prog.call (I := Disk) c) (funext ih)
    | recurse => exact ih true
    | check d => exact congrArg (Prog.call (I := Disk) .utcMs) (funext ih)

lemma erase_bounded (p : Prog Calls Exc α) : erase (bounded p) = erase p := by
  induction p with
  | ret a => rfl
  | raise e => rfl
  | again => rfl
  | call c k ih =>
    cases c with
    | attempt c | other c => exact congrArg (Prog.call (I := Disk) c) (funext ih)
    | recurse => exact ih true
    | check d => exact congrArg (Prog.call (I := Disk) .utcMs) (funext ih)

lemma erase_attempting (p : Code α) : erase (p.lift attempting id) = p := by
  induction p with
  | ret a => rfl
  | raise e => rfl
  | again => rfl
  | call c k ih => exact congrArg (Prog.call (I := Disk) c) (funext ih)

lemma erase_otherwise (p : Code α) : erase (p.lift otherwise id) = p := by
  induction p with
  | ret a => rfl
  | raise e => rfl
  | again => rfl
  | call c k ih => exact congrArg (Prog.call (I := Disk) c) (funext ih)

lemma erase_raiseOrSleep (deadline : Option ℤ) (e : Exc) :
    erase (raiseOrSleep (Prog.perform (I := Calls) (.check deadline)) deadline e) =
      raiseOrSleep utcMs deadline e := by
  simp only [raiseOrSleep]
  split
  · cases deadline with
    | none => rfl
    | some d => exact congrArg (Prog.call (I := Disk) .utcMs) (funext fun now : ℤ => apply_ite erase _ _ _)
  · rfl

lemma erase_orThrow (x : Except Exc α) : erase (orThrow x) = orThrow x := by
  cases x <;> rfl

/-- The procedures are those of the shield. -/
lemma erase_body (ttl : NodeId → ℤ) (n : NodeId) (p : Procedure) :
    erase (body ttl n p) = ConfigShield.body ttl n p := by
  cases p with
  | acquire r t deadline =>
    simp only [body, acquireRound, erase_catch, erase_bind, erase_bounded, erase_attempting, erase_raiseOrSleep]
    simp only [erase_orThrow]
    rfl
  | heartbeat r t => exact erase_otherwise _
  | release r => exact erase_otherwise _

end Erased

section Ends

/-- What the calls of an orderly attempt of node `n` that has begun at `now` answer. -/
def Clean (n : NodeId) (now : ℤ) : (c : Command) → Reply c → Prop
  | .readText _, y => ∃ x, y = .ok (some x) ∧ (isStale x now = true → Usable n now)
  | .openExcl _, y => y = .error .fileExists ∨ ∃ fd, y = .ok fd
  | .rename _ dst, y => dst.Fits → y = .error .fileNotFound ∨ y = .ok ()
  | .write _ _, y | .fsync _, y | .unlink _, y => y = .ok ()
  | .onLockAcquired _, y => y = .ok ()
  | _, _ => True

def Returns {α : Type} (x : Except Exc α) : Prop := ∃ a, x = .ok a

def Contends {α : Type} (x : Except Exc α) : Prop := ∀ e, x = .error e → ∃ message, e = .lockAcquisition message

variable {n : NodeId} {now : ℤ}

lemma unlinkIfExists_ends (p : Path) : (unlinkIfExists p).EndsIn (Clean n now) Returns := by
  intro there _
  cases there with
  | false => exact ⟨(), rfl⟩
  | true =>
    rintro y rfl
    exact ⟨(), rfl⟩

lemma readRecord_ends (p : Path) : (readRecord p).EndsIn (Clean n now) fun x =>
    ∃ y : Option LockRecord, x = .ok y ∧ ∀ z ∈ y, isStale z now = true → Usable n now := by
  intro there _
  cases there with
  | false => exact ⟨none, rfl, nofun⟩
  | true =>
    rintro y ⟨x, rfl, hx⟩
    refine ⟨some x, rfl, fun z hz => ?_⟩
    cases hz
    exact hx

lemma writeAndSync_ends (fd : ℕ) (x : LockRecord) : (writeAndSync fd x).EndsIn (Clean n now) Returns := by
  rintro y rfl
  rintro y rfl
  exact ⟨(), rfl⟩

lemma contends_ok {α : Type} (a : α) : Contends (.ok a) := nofun

lemma contends_error {α : Type} (message : String) :
    Contends (.error (.lockAcquisition message) : Except Exc α) := by
  rintro e ⟨⟩
  exact ⟨message, rfl⟩

lemma takeOver_ends (r : Resource) (x : LockRecord) (p : Path) :
    (takeOver n r x p).EndsIn (Clean n now) Contends := by
  rintro y (rfl | ⟨fd, rfl⟩)
  · change (unlinkIfExists p >>= fun _ => readRecord (.lock r) >>= _).EndsIn (Clean n now) Contends
    refine Prog.EndsIn.bind ((unlinkIfExists_ends p).mono ?_)
    rintro _ ⟨_, rfl⟩
    refine Prog.EndsIn.bind ((readRecord_ends _).mono ?_)
    rintro _ ⟨winner, rfl, -⟩
    exact contends_error _
  · have hwrite : (tryFinally (tryCatch (writeAndSync fd x) fun e => do unlinkIfExists (.lock r); throw e)
        (unlinkIfExists p)).EndsIn (Clean n now) Returns := by
      refine Prog.EndsIn.bind (Prog.EndsIn.handle (Prog.EndsIn.handle ((writeAndSync_ends fd x).mono ?_)))
      rintro _ ⟨_, rfl⟩
      refine Prog.EndsIn.bind ((unlinkIfExists_ends p).mono ?_)
      rintro _ ⟨_, rfl⟩
      exact ⟨(), rfl⟩
    change (tryFinally _ _ >>= fun _ => readRecord (.lock r) >>= _).EndsIn (Clean n now) Contends
    refine Prog.EndsIn.bind (hwrite.mono ?_)
    rintro _ ⟨_, rfl⟩
    refine Prog.EndsIn.bind ((readRecord_ends _).mono ?_)
    rintro _ ⟨verified, rfl, -⟩
    cases verified with
    | none => exact contends_error _
    | some verified =>
      dsimp only
      split
      · exact contends_ok _
      · exact contends_error _

lemma acquireAt_ends (r : Resource) (t : ℤ) : (acquireAt n r t now).EndsIn (Clean n now) Contends := by
  rintro y (rfl | ⟨fd, rfl⟩)
  · change (readRecord (.lock r) >>= _).EndsIn (Clean n now) Contends
    refine Prog.EndsIn.bind ((readRecord_ends _).mono ?_)
    rintro _ ⟨existing, rfl, husable⟩
    cases existing with
    | none => trivial
    | some existing =>
      dsimp only
      split
      · rename_i hstale
        obtain ⟨hname, hfits⟩ := husable existing rfl hstale
        rw [withName_bind, if_pos hname]
        intro y hy
        rcases hy hfits with rfl | rfl
        · trivial
        · exact takeOver_ends r _ _
      · exact contends_error _
  · change (writeAndSync fd _ >>= _).EndsIn (Clean n now) Contends
    refine Prog.EndsIn.bind ((writeAndSync_ends fd _).mono ?_)
    rintro _ ⟨_, rfl⟩
    exact contends_ok _

lemma onLockAcquired_ends (r : Resource) : (onLockAcquired r).EndsIn (Clean n now) fun x => x = .ok (.ok ()) := by
  rintro y rfl
  rfl

end Ends

section Contract

variable {ttl : NodeId → ℤ} {frames : NodeId → ℕ} {n : NodeId} {s t : Site}

def reporting (frames : NodeId → ℕ) : Contract Calls NodeId Site Procedure where
  Inv s := ∀ p ∈ s.passes, Reports p
  Rely n s t := t.attempted_at n = s.attempted_at n
  Guard n s c := orderly frames n s c = true
  Pre _ _ _ := True
  refl _ _ := rfl
  trans h h' := Eq.trans h' h

instance (n : NodeId) (s : Site) (c : Call) : Decidable ((reporting frames).Guard n s c) :=
  inferInstanceAs (Decidable (orderly frames n s c = true))

lemma clean_of_orderly {c : Command} {w : Site} {y : Reply c} (hc : orderly frames n t (.attempt c) = true)
    (h : exec frames n t (.attempt c) = some (w, y)) : Clean n (t.attempted_at n) c y := by
  obtain ⟨⟨disk, y'⟩, hdisk, hw⟩ := Option.map_eq_some_iff.mp h
  cases hw
  cases c with
  | readText p =>
    simp only [orderly] at hc
    split at hc
    · cases hc
    · rename_i x hx
      obtain ⟨i, hi, hx⟩ := Option.bind_eq_some_iff.mp hx
      simp only [ConfigShield.exec, hi] at hdisk
      cases hdisk
      exact ⟨x, congrArg Except.ok hx, of_decide_eq_true hc⟩
  | openExcl p =>
    cases hp : t.disk.dir p with
    | none =>
      simp only [ConfigShield.exec, hp] at hdisk
      cases hdisk
      exact Or.inr ⟨_, rfl⟩
    | some i =>
      simp only [ConfigShield.exec, hp] at hdisk
      cases hdisk
      exact Or.inl rfl
  | rename p p' =>
    intro hfits
    cases hp : t.disk.dir p with
    | none =>
      simp only [ConfigShield.exec, hp] at hdisk
      cases hdisk
      exact Or.inl rfl
    | some i =>
      simp only [ConfigShield.exec, hp, if_pos hfits] at hdisk
      cases hdisk
      exact Or.inr rfl
  | unlink p =>
    obtain ⟨i, hi⟩ := Option.isSome_iff_exists.mp hc
    simp only [ConfigShield.exec, hi] at hdisk
    cases hdisk
    rfl
  | write fd x | fsync fd | onLockAcquired r =>
    cases hdisk
    rfl
  | utcMs | «exists» p | mkstemp | replace p p' => trivial

lemma began_of_ne {c : Command} (hc : c ≠ .utcMs) : began n s c = s.attempted_at := by
  cases c with
  | utcMs => exact absurd rfl hc
  | _ => rfl

lemma exec_yields {c : Call} {w : Site} {y : Answer c} (hi : (reporting frames).Inv s)
    (h : exec frames n s c = some (w, y)) : (reporting frames).Yields n s w := by
  cases c with
  | attempt c =>
    obtain ⟨x, -, hx⟩ := Option.map_eq_some_iff.mp h
    cases hx
    refine ⟨hi, fun b hb => ?_⟩
    cases c with
    | utcMs => exact Function.update_of_ne hb _ _
    | _ => rfl
  | other c =>
    obtain ⟨x, -, hx⟩ := Option.map_eq_some_iff.mp h
    cases hx
    exact ⟨hi, fun _ _ => rfl⟩
  | recurse =>
    cases h
    exact ⟨hi, fun _ _ => rfl⟩
  | check deadline =>
    cases h
    exact Contract.Yields.refl hi

lemma leave_yields {p : Procedure} {x : Except Exc (Option LockRecord)} (hi : (reporting frames).Inv s)
    (hp : ∀ r o d, p = .acquire r o d → Reports ⟨d, s.attempted_at n, x⟩) :
    (reporting frames).Yields n s (leave n p x s) := by
  cases p with
  | acquire r o d =>
    refine ⟨fun q hq => ?_, fun _ _ => rfl⟩
    rcases List.mem_append.mp hq with hq | hq
    · exact hi q hq
    · rw [List.mem_singleton.mp hq]
      exact hp r o d rfl
  | _ => exact Contract.Yields.refl hi

def answers (n : NodeId) (now : ℤ) : (c : Call) → Answer c → Prop
  | .attempt c, y => Clean n now c y
  | .recurse, y => y = true
  | _, _ => True

lemma bounded_ends {α : Type} {now : ℤ} {Q : Except Exc α → Prop} {p : Prog Calls Exc α}
    (h : p.EndsIn (answers n now) Q) : (bounded p).EndsIn (answers n now) Q := by
  induction p with
  | ret a => exact h
  | raise e => exact h
  | again =>
    rintro _ rfl
    trivial
  | call c k ih => exact fun r hr => ih r (h r hr)

/-- The calls of an attempt that has read the clock. -/
def Attempted : Call → Prop
  | .attempt c => c ≠ .utcMs
  | .recurse => True
  | _ => False

lemma bounded_issues {α : Type} {p : Prog Calls Exc α} (h : p.Issues Attempted) : (bounded p).Issues Attempted := by
  induction p with
  | ret a => trivial
  | raise e => trivial
  | again =>
    refine ⟨trivial, fun fits => ?_⟩
    cases fits <;> trivial
  | call c k ih => exact ⟨h.1, fun r => ih r (h.2 r)⟩

lemma attempting_wp {α : Type} {p : Code α} {now : ℤ} {Q : Except Exc α → Prop} (hi : (reporting frames).Inv s)
    (hs : s.attempted_at n = now) (hissues : p.Issues (I := Disk) (· ≠ .utcMs)) (hp : p.EndsIn (Clean n now) Q) :
    (reporting frames).wp (shields ttl frames) n (fun _ => True) (fun x _ => Q x)
      (bounded (p.lift attempting id)) s := by
  refine Contract.wp_of_endsIn (R := answers n now) (Z := Attempted) (T := fun t => t.attempted_at n = now)
    (fun s t _ ht _ hs => Eq.trans ht hs) ?_ (fun _ _ _ => trivial) (fun _ _ _ _ h => h)
    (bounded_issues (Prog.Issues.lift hissues)) (bounded_ends (Prog.EndsIn.lift ?_)) hi hs
  · intro c _ t w y hc hit ht hg h
    cases c with
    | attempt c =>
      refine ⟨exec_yields (c := .attempt c) hit h, ?_, ht ▸ clean_of_orderly hg h⟩
      obtain ⟨x, -, hx⟩ := Option.map_eq_some_iff.mp h
      cases hx
      exact (congrFun (began_of_ne hc) n).trans ht
    | recurse =>
      refine ⟨exec_yields (c := .recurse) hit h, ?_⟩
      cases h
      exact ⟨ht, hg⟩
    | check _ | other _ => exact hc.elim
  · refine (hp.answers ?_).mono ?_
    · rintro c _ ⟨y, rfl, hy⟩
      exact hy
    · rintro (e | a) hx <;> exact hx

lemma acquireOnce_wp {r : Resource} {o : ℤ} :
    (reporting frames).wp (shields ttl frames) n (fun _ => True) (fun x _ => Contends x)
      (bounded ((acquireOnce n r o).lift attempting id)) s := by
  intro t _ hit _ _ w now h
  have hy := exec_yields (c := .attempt .utcMs) hit h
  cases h
  refine ⟨hy, attempting_wp hy.1 (Function.update_self ..) ?_ (acquireAt_ends r o)⟩
  refine (acquireAt_attempts r o _).mono ?_
  rintro _ hc rfl
  cases hc

lemma onLockAcquired_wp {r : Resource} (hi : (reporting frames).Inv s) :
    (reporting frames).wp (shields ttl frames) n (fun _ => True) (fun x _ => x = .ok (.ok ()))
      ((onLockAcquired r).lift attempting id) s :=
  attempting_wp (p := onLockAcquired r) hi rfl ⟨nofun, fun _ => trivial⟩ (onLockAcquired_ends r)

lemma otherwise_safe {p : Procedure} {q : Code (Option LockRecord)} (hi : (reporting frames).Inv s)
    (hp : ∀ r o d, p ≠ .acquire r o d) :
    (reporting frames).Safe (shields ttl frames) n p (q.lift otherwise id) s :=
  Contract.safe_of_issues (Z := fun _ => True) (fun _ _ _ _ _ _ hit _ h => exec_yields hit h)
    (fun _ _ hit => leave_yields hit fun r o d h => absurd h (hp r o d)) (fun _ _ => trivial)
    (Prog.issues_of_forall (fun _ => trivial) _) hi

lemma raise_safe {r : Resource} {o deadline : Option ℤ} {message : String}
    (h : ∀ d, deadline = some d → d ≤ s.attempted_at n) :
    (reporting frames).Finishes (shields ttl frames) n (.acquire r o deadline) (.error (.lockAcquisition message)) s := by
  intro t ht hit
  refine leave_yields hit fun _ _ d hd => ⟨⟨message, rfl⟩, fun d' hd' => ?_⟩
  cases hd
  rw [ht]
  exact h d' hd'

lemma acquire_safe (r : Resource) (o deadline : Option ℤ) (hi : (reporting frames).Inv s) :
    (reporting frames).Safe (shields ttl frames) n (.acquire r o deadline) (body ttl n (.acquire r o deadline)) s := by
  have hfail : ∀ message t, (reporting frames).Inv t → (reporting frames).wp (shields ttl frames) n (fun _ => True)
      ((reporting frames).Finishes (shields ttl frames) n (.acquire r o deadline))
      (raiseOrSleep (Prog.perform (I := Calls) (.check deadline)) deadline (.lockAcquisition message)) t := by
    intro message t hit
    cases deadline with
    | none => exact raise_safe nofun
    | some d =>
      rintro u hu hiu hg _ w y ⟨⟩
      refine ⟨Contract.Yields.refl hiu, ?_⟩
      change (reporting frames).wp _ _ _ _ (if d ≤ u.disk.now then Prog.raise _ else Prog.ret none) u
      split
      · rename_i hlate
        refine raise_safe fun d' hd' => ?_
        cases hd'
        exact of_decide_eq_true hg hlate
      · intro t ht hit
        refine leave_yields hit fun _ _ d' hd' => ?_
        cases hd'
        exact nofun
  refine Contract.wp_handle (Contract.wp_bind (Contract.wp_mono hi acquireOnce_wp ?_))
  rintro (e | record) t hit hends
  · obtain ⟨message, rfl⟩ := hends e rfl
    exact hfail message t hit
  · refine Contract.wp_bind (Contract.wp_mono hit (onLockAcquired_wp hit) ?_)
    rintro _ u hiu rfl
    exact fun t ht hit => leave_yields hit fun _ _ _ _ => trivial

lemma shields_meet (ttl : NodeId → ℤ) (frames : NodeId → ℕ) : (reporting frames).Meets (shields ttl frames) where
  enter n p s w hi h := by
    cases h
    exact ⟨⟨hi, fun _ _ => rfl⟩, trivial⟩
  body n p s hi _ := by
    cases p with
    | acquire r o deadline => exact acquire_safe r o deadline hi
    | heartbeat r o => exact otherwise_safe hi nofun
    | release r => exact otherwise_safe hi nofun
  crash n s w hi h := by cases h
  environment d s w hi h := by
    cases h
    exact ⟨hi, fun _ => rfl⟩

end Contract

section Sample

/-- `n` starts an attempt and moves `k` times. -/
def tries (n : NodeId) (k : ℕ) : List (Label NodeId Procedure Unit ℕ) :=
  .invoke n (.acquire "nginx.conf" none none) :: List.replicate k (.advance n ())

def sampleShields : Service Calls NodeId Site Procedure Unit ℕ Exc (Option LockRecord) :=
  shields (fun _ => 100) fun _ => 900

def unreported (p : Pass) : Bool :=
  match p.result with
  | .error .jsonDecode => true
  | _ => false

end Sample

end OpsSentry.ConfigShield.Contention
