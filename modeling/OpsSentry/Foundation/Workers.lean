import OpsSentry.Foundation.Programs

/-! A thread that goes through one procedure of a service again and again until an event is set: `start` makes
one unless the last one is alive, `stop` sets the event and waits for the thread, but not for ever. -/

namespace OpsSentry.Foundation.Workers

open Programs Runs

/-- A thread is made but not started, before `is_set`, in the procedure, in `wait`, or it has ended. -/
inductive Thread (I : Interface) (ε α : Type)
  | made
  | check
  | turn (q : Prog I ε α)
  | wait
  | ended

/-- What the one caller of `start` and `stop` does next. -/
inductive Control
  | idle
  | clear
  | make
  | launch
  | join
deriving DecidableEq

/-- The pool has all other actors; the newest thread, which the service knows, comes first. -/
structure State (I : Interface) (A S P ε α : Type) where
  pool : Pool I A S P ε α
  stopped : Bool
  threads : List (Thread I ε α)
  control : Control

inductive Label (A P O E : Type)
  | other (l : Programs.Label A P O E)
  | start
  | stop
  | proceed
  | joined
  | timeout
  | run (i : ℕ) (o : O)
  | restart

variable {I : Interface} {A S P O E ε α : Type}

def Thread.alive : Thread I ε α → Bool
  | check | turn _ | wait => true
  | made | ended => false

def Thread.hasEnded : Thread I ε α → Bool
  | ended => true
  | _ => false

def actor : Programs.Label A P O E → Option A
  | .invoke a _ | .advance a _ | .crash a => some a
  | .environment _ => none

def initial (s : S) : State I A S P ε α := ⟨Pool.idle s, false, [], .idle⟩

namespace State

variable (s : State I A S P ε α)

/-- `self._thread.is_alive()`. -/
def isAlive : Bool := s.threads.head?.any Thread.alive

def startCall : Option (State I A S P ε α) :=
  match s.control with
  | .idle => some (if s.isAlive then s else { s with control := .clear })
  | _ => none

def stopCall : Option (State I A S P ε α) :=
  match s.control with
  | .idle => some { s with stopped := true, control := if s.threads.isEmpty then .idle else .join }
  | _ => none

def launched : List (Thread I ε α) → List (Thread I ε α)
  | _ :: threads => .check :: threads
  | [] => []

def proceed : Option (State I A S P ε α) :=
  match s.control with
  | .clear => some { s with stopped := false, control := .make }
  | .make => some { s with threads := .made :: s.threads, control := .launch }
  | .launch => some { s with threads := launched s.threads, control := .idle }
  | .idle | .join => none

def joined : Option (State I A S P ε α) :=
  match s.control with
  | .join => if s.threads.head?.any Thread.hasEnded then some { s with control := .idle } else none
  | _ => none

def timeout : Option (State I A S P ε α) :=
  match s.control with
  | .join => some { s with control := .idle }
  | _ => none

end State

section Steps

variable (V : Service I A S P O E ε α) (a : A) (p : P)

def follow : Option (P × Prog I ε α) → Thread I ε α
  | some (_, q) => .turn q
  | none => .wait

/-- One step of a thread. -/
def move (stopped : Bool) (o : O) (s : S) : Thread I ε α → Option (S × Thread I ε α)
  | .check => if stopped then some (s, .ended) else (V.enter a p s).map fun w => (w, .turn (V.body a p))
  | .turn q => (V.resume a o s p q).map fun w => (w.1, follow w.2)
  | .wait => some (s, if stopped then .ended else .check)
  | .made | .ended => none

def step [DecidableEq A] (s : State I A S P ε α) : Label A P O E → Option (State I A S P ε α)
  | .other l => if actor l = some a then none else (V.step s.pool l).map fun pool => { s with pool }
  | .start => s.startCall
  | .stop => s.stopCall
  | .proceed => s.proceed
  | .joined => s.joined
  | .timeout => s.timeout
  | .run i o => s.threads[i]?.bind fun x => (move V a p s.stopped o s.pool.shared x).map fun w =>
      { s with pool := { s.pool with shared := w.1 }, threads := s.threads.set i w.2 }
  | .restart => (V.crash a s.pool.shared).map fun w => ⟨{ s.pool with shared := w }, false, [], .idle⟩

def current : Option (Thread I ε α) → Option (P × Prog I ε α)
  | some (.turn q) => some (p, q)
  | _ => none

/-- The service with one actor in the place of all threads. -/
def project [DecidableEq A] (s : State I A S P ε α) : Pool I A S P ε α :=
  ⟨s.pool.shared, Function.update s.pool.active a (current p s.threads.head?)⟩

/-- What the one actor does when a thread makes a step. -/
def moved (stopped : Bool) (o : O) : Option (Thread I ε α) → List (Programs.Label A P O E)
  | some .check => if stopped then [] else [.invoke a p]
  | some (.turn _) => [.advance a o]
  | _ => []

def emitted [DecidableEq A] (s : State I A S P ε α) : Label A P O E → List (Programs.Label A P O E)
  | .other l => if actor l = some a then [] else [l]
  | .run i o => moved a p s.stopped o s.threads[i]?
  | .restart => [.crash a]
  | _ => []

end Steps

/-- No thread is half made outside of `start`, and none lives while one is made. -/
def Fits : Control → Option (Thread I ε α) → Prop
  | .idle, x | .join, x => x ≠ some .made
  | .clear, x | .make, x => x = none ∨ x = some .ended
  | .launch, x => x = some .made

structure Sound (a : A) (s : State I A S P ε α) : Prop where
  apart : s.pool.active a = none
  past : ∀ x ∈ s.threads.tail, x = .ended
  fits : Fits s.control s.threads.head?

variable {V : Service I A S P O E ε α} {a : A} {p : P} {s t : State I A S P ε α}

section Invariant

lemma initial_sound (w : S) : Sound a (initial w : State I A S P ε α) :=
  ⟨rfl, List.forall_mem_nil _, fun h => (by cases h)⟩

lemma Sound.newest (hs : Sound a s) {i : ℕ} {x : Thread I ε α} (hx : s.threads[i]? = some x) (hover : x ≠ .ended) :
    i = 0 ∧ s.threads.head? = some x := by
  cases i with
  | zero => exact ⟨rfl, List.head?_eq_getElem? ▸ hx⟩
  | succ i =>
    rw [← List.getElem?_tail] at hx
    exact (hover (hs.past x (List.mem_of_getElem? hx))).elim

/-- At most one thread is alive, the one that the service knows. -/
lemma Sound.one_alive (hs : Sound a s) {i : ℕ} {x : Thread I ε α} (hx : s.threads[i]? = some x)
    (halive : x.alive = true) : i = 0 := by
  refine (hs.newest hx ?_).1
  rintro rfl
  cases halive

lemma move_not_made {stopped : Bool} {o : O} {w : S} {x : Thread I ε α} {v : S × Thread I ε α}
    (h : move V a p stopped o w x = some v) : v.2 ≠ .made := by
  cases x with
  | made => cases h
  | ended => cases h
  | check =>
    rw [move] at h
    split at h
    · cases h
      exact fun heq => (by cases heq)
    · obtain ⟨u, -, rfl⟩ := Option.map_eq_some_iff.mp h
      exact fun heq => (by cases heq)
  | turn q =>
    obtain ⟨⟨u, y⟩, -, rfl⟩ := Option.map_eq_some_iff.mp h
    cases y <;> exact fun heq => (by cases heq)
  | wait =>
    cases h
    cases stopped <;> exact fun heq => (by cases heq)

lemma sound_start (hs : Sound a s) (h : s.startCall = some t) : Sound a t := by
  rw [State.startCall] at h
  split at h
  · rename_i hidle
    cases h
    split
    · exact hs
    · rename_i halive
      refine ⟨hs.apart, hs.past, ?_⟩
      have hfits := hs.fits
      rw [hidle] at hfits
      change s.threads.head? = none ∨ s.threads.head? = some .ended
      rw [State.isAlive] at halive
      cases hhead : s.threads.head? with
      | none => exact .inl rfl
      | some x =>
        rw [hhead] at hfits halive
        cases x with
        | ended => exact .inr rfl
        | made => exact (hfits rfl).elim
        | check => exact (halive rfl).elim
        | turn q => exact (halive rfl).elim
        | wait => exact (halive rfl).elim
  · cases h

lemma sound_stop (hs : Sound a s) (h : s.stopCall = some t) : Sound a t := by
  rw [State.stopCall] at h
  split at h
  · rename_i hidle
    cases h
    refine ⟨hs.apart, hs.past, ?_⟩
    have hfits := hs.fits
    rw [hidle] at hfits
    change Fits (if s.threads.isEmpty then .idle else .join) s.threads.head?
    split <;> exact hfits
  · cases h

/-- While `start` goes on, all threads there have ended. -/
lemma Sound.all_over (hs : Sound a s) (h : s.threads.head? = none ∨ s.threads.head? = some .ended) :
    ∀ x ∈ s.threads, x = .ended := by
  intro x hx
  cases hthreads : s.threads with
  | nil =>
    rw [hthreads] at hx
    cases hx
  | cons y rest =>
    have hpast := hs.past
    rw [hthreads] at hx hpast h
    rcases List.mem_cons.mp hx with rfl | hx
    · rcases h with h | h
      · cases h
      · exact Option.some.inj h
    · exact hpast x hx

lemma sound_proceed (hs : Sound a s) (h : s.proceed = some t) : Sound a t := by
  have hfits := hs.fits
  rw [State.proceed] at h
  split at h
  · rename_i hclear
    cases h
    rw [hclear] at hfits
    exact ⟨hs.apart, hs.past, hfits⟩
  · rename_i hmake
    cases h
    rw [hmake] at hfits
    exact ⟨hs.apart, hs.all_over hfits, rfl⟩
  · rename_i hlaunch
    cases h
    rw [hlaunch] at hfits
    obtain ⟨rest, hrest⟩ := List.head?_eq_some_iff.mp hfits
    have hpast := hs.past
    rw [hrest] at hpast
    refine ⟨hs.apart, ?_, ?_⟩
    · rw [hrest]
      exact hpast
    · rw [hrest]
      exact fun heq => (by cases heq)
  · cases h
  · cases h

lemma sound_joined (hs : Sound a s) (h : s.joined = some t) : Sound a t := by
  have hfits := hs.fits
  rw [State.joined] at h
  split at h
  · rename_i hjoin
    rw [hjoin] at hfits
    split at h
    · cases h
      exact ⟨hs.apart, hs.past, hfits⟩
    · cases h
  · cases h

lemma sound_timeout (hs : Sound a s) (h : s.timeout = some t) : Sound a t := by
  have hfits := hs.fits
  rw [State.timeout] at h
  split at h
  · rename_i hjoin
    cases h
    rw [hjoin] at hfits
    exact ⟨hs.apart, hs.past, hfits⟩
  · cases h

lemma resume_same {o : O} {w : S} {q : Prog I ε α} {v : S × Option (P × Prog I ε α)}
    (h : V.resume a o w p q = some v) : current p (some (follow v.2)) = v.2 := by
  cases q with
  | ret x =>
    cases h
    rfl
  | raise e =>
    cases h
    rfl
  | again =>
    cases h
    rfl
  | call c k =>
    obtain ⟨u, -, rfl⟩ := Option.map_eq_some_iff.mp h
    rfl

end Invariant

section Refinement

variable [DecidableEq A] {l : Label A P O E}

/-- A step of another actor takes no notice of what stands in the place of this one. -/
lemma step_beside {q r : Pool I A S P ε α} {l : Programs.Label A P O E} (hl : actor l ≠ some a)
    (h : V.step q l = some r) (x : Option (P × Prog I ε α)) :
    V.step ⟨q.shared, Function.update q.active a x⟩ l = some ⟨r.shared, Function.update r.active a x⟩ ∧
      r.active a = q.active a := by
  cases l with
  | invoke b p' =>
    have hb : b ≠ a := fun heq => hl (congrArg some heq)
    cases hq : q.active b with
    | some y => simp [Service.step, hq] at h
    | none =>
      simp only [Service.step, hq, Option.map_eq_some_iff] at h
      obtain ⟨w, hw, rfl⟩ := h
      refine ⟨?_, Function.update_of_ne hb.symm _ _⟩
      simp [Service.step, Function.update_of_ne hb, hq, hw, Function.update_comm hb]
  | advance b o =>
    have hb : b ≠ a := fun heq => hl (congrArg some heq)
    cases hq : q.active b with
    | none => simp [Service.step, hq] at h
    | some y =>
      simp only [Service.step, hq, Option.map_eq_some_iff] at h
      obtain ⟨w, hw, rfl⟩ := h
      refine ⟨?_, Function.update_of_ne hb.symm _ _⟩
      simp [Service.step, Function.update_of_ne hb, hq, hw, Function.update_comm hb]
  | crash b =>
    have hb : b ≠ a := fun heq => hl (congrArg some heq)
    obtain ⟨w, hw, rfl⟩ := Option.map_eq_some_iff.mp h
    refine ⟨?_, Function.update_of_ne hb.symm _ _⟩
    simp [Service.step, hw, Function.update_comm hb]
  | environment e =>
    obtain ⟨w, hw, rfl⟩ := Option.map_eq_some_iff.mp h
    exact ⟨by simp [Service.step, hw], rfl⟩

/-- A step of a thread is one of the newest, and of the one actor. -/
lemma run_cases {i : ℕ} {o : O} (hs : Sound a s) (h : step V a p s (.run i o : Label A P O E) = some t) :
    ∃ x rest w, s.threads = x :: rest ∧ i = 0 ∧ x ≠ .made ∧ x ≠ .ended ∧
      move V a p s.stopped o s.pool.shared x = some w ∧
      t = { s with pool := { s.pool with shared := w.1 }, threads := w.2 :: rest } := by
  obtain ⟨x, hx, hmove⟩ := Option.bind_eq_some_iff.mp h
  obtain ⟨w, hw, rfl⟩ := Option.map_eq_some_iff.mp hmove
  have hmade : x ≠ .made := by
    rintro rfl
    cases hw
  have hover : x ≠ .ended := by
    rintro rfl
    cases hw
  obtain ⟨rfl, hhead⟩ := hs.newest hx hover
  obtain ⟨rest, hrest⟩ := List.head?_eq_some_iff.mp hhead
  refine ⟨x, rest, w, hrest, rfl, hmade, hover, hw, ?_⟩
  rw [hrest]
  rfl

lemma sound_step (hs : Sound a s) (h : step V a p s l = some t) : Sound a t := by
  cases l with
  | other l =>
    obtain ⟨hl, hstep⟩ := Option.ite_none_left_eq_some.mp h
    obtain ⟨pool, hpool, rfl⟩ := Option.map_eq_some_iff.mp hstep
    exact ⟨(step_beside hl hpool none).2.trans hs.apart, hs.past, hs.fits⟩
  | start => exact sound_start hs h
  | stop => exact sound_stop hs h
  | proceed => exact sound_proceed hs h
  | joined => exact sound_joined hs h
  | timeout => exact sound_timeout hs h
  | run i o =>
    obtain ⟨x, rest, w, hthreads, rfl, hmade, hover, hw, rfl⟩ := run_cases hs h
    have hfits := hs.fits
    have hpast := hs.past
    rw [hthreads] at hfits hpast
    refine ⟨hs.apart, hpast, ?_⟩
    change Fits s.control (some w.2)
    cases hc : s.control with
    | idle => exact fun heq => move_not_made hw (Option.some.inj heq)
    | join => exact fun heq => move_not_made hw (Option.some.inj heq)
    | launch =>
      rw [hc] at hfits
      exact (hmade (Option.some.inj hfits)).elim
    | clear =>
      rw [hc] at hfits
      exact (hover (Option.some.inj (hfits.resolve_left fun h => (by cases h)))).elim
    | make =>
      rw [hc] at hfits
      exact (hover (Option.some.inj (hfits.resolve_left fun h => (by cases h)))).elim
  | restart =>
    obtain ⟨w, -, rfl⟩ := Option.map_eq_some_iff.mp h
    exact ⟨hs.apart, List.forall_mem_nil _, fun heq => (by cases heq)⟩

lemma project_initial (w : S) : project a p (initial w : State I A S P ε α) = Pool.idle w := by
  rw [project, initial, Pool.idle, Pool.mk.injEq]
  exact ⟨rfl, Function.update_eq_self a _⟩

lemma project_eq (hhead : current p s.threads.head? = current p t.threads.head?) (hpool : t.pool = s.pool) :
    project a p s = project a p t := by
  rw [project, project, hhead, hpool]

lemma project_proceed (hs : Sound a s) (h : s.proceed = some t) : project a p s = project a p t := by
  have hfits := hs.fits
  rw [State.proceed] at h
  split at h
  · cases h
    rfl
  · rename_i hmake
    cases h
    rw [hmake] at hfits
    refine project_eq ?_ rfl
    rcases hfits with hfits | hfits <;> rw [hfits] <;> rfl
  · rename_i hlaunch
    cases h
    rw [hlaunch] at hfits
    obtain ⟨rest, hrest⟩ := List.head?_eq_some_iff.mp hfits
    refine project_eq ?_ rfl
    rw [hrest]
    rfl
  · cases h
  · cases h

/-- A step of a thread, as one of the one actor. -/
lemma project_run {o : O} {x : Thread I ε α} {rest : List (Thread I ε α)} {w : S × Thread I ε α}
    (hthreads : s.threads = x :: rest) (hw : move V a p s.stopped o s.pool.shared x = some w) :
    run V.step (project a p s) (moved a p s.stopped o (some x) : List (Programs.Label A P O E)) =
      some (project a p { s with pool := { s.pool with shared := w.1 }, threads := w.2 :: rest }) := by
  have hhead : s.threads.head? = some x := by rw [hthreads, List.head?_cons]
  cases x with
  | made => cases hw
  | ended => cases hw
  | wait =>
    cases hw
    refine congrArg some (project_eq ?_ rfl)
    rw [hhead]
    cases s.stopped <;> rfl
  | check =>
    rw [move] at hw
    rw [moved]
    split at hw
    · rename_i hstopped
      cases hw
      rw [if_pos hstopped]
      refine congrArg some (project_eq ?_ rfl)
      rw [hhead]
      rfl
    · rename_i hstopped
      obtain ⟨u, hu, rfl⟩ := Option.map_eq_some_iff.mp hw
      rw [if_neg hstopped]
      refine run_cons.mpr ⟨_, ?_, rfl⟩
      simp [Service.step, project, hhead, current, hu]
  | turn q =>
    obtain ⟨v, hv, rfl⟩ := Option.map_eq_some_iff.mp hw
    refine run_cons.mpr ⟨_, ?_, rfl⟩
    have hsame := resume_same hv
    simp [Service.step, project, hhead, current, hv] at hsame ⊢
    exact congrArg _ hsame.symm

/-- Each step of the threads is one of the one actor, or none. -/
lemma step_project (hs : Sound a s) (h : step V a p s l = some t) :
    run V.step (project a p s) (emitted a p s l) = some (project a p t) := by
  cases l with
  | other l =>
    obtain ⟨hl, hstep⟩ := Option.ite_none_left_eq_some.mp h
    obtain ⟨pool, hpool, rfl⟩ := Option.map_eq_some_iff.mp hstep
    rw [emitted, if_neg hl]
    exact run_cons.mpr ⟨_, (step_beside hl hpool _).1, rfl⟩
  | start =>
    rw [step, State.startCall] at h
    split at h
    · cases h
      split <;> rfl
    · cases h
  | stop =>
    rw [step, State.stopCall] at h
    split at h
    · cases h
      rfl
    · cases h
  | proceed => exact congrArg some (project_proceed hs h)
  | joined =>
    rw [step, State.joined] at h
    split at h
    · split at h
      · cases h
        rfl
      · cases h
    · cases h
  | timeout =>
    rw [step, State.timeout] at h
    split at h
    · cases h
      rfl
    · cases h
  | run i o =>
    obtain ⟨x, rest, w, hthreads, rfl, -, -, hw, rfl⟩ := run_cases hs h
    have hx : s.threads[0]? = some x := by rw [hthreads, List.getElem?_cons_zero]
    rw [emitted, hx]
    exact project_run hthreads hw
  | restart =>
    obtain ⟨w, hw, rfl⟩ := Option.map_eq_some_iff.mp h
    refine run_cons.mpr ⟨_, ?_, rfl⟩
    simp [Service.step, project, hw, current]

end Refinement

section Run

lemma moved_cases (stopped : Bool) (o : O) (x : Option (Thread I ε α)) :
    (moved a p stopped o x : List (Programs.Label A P O E)) = [] ∨
      ∃ l, (moved a p stopped o x : List (Programs.Label A P O E)) = [l] := by
  cases x with
  | none => exact .inl rfl
  | some x =>
    cases x with
    | check => cases stopped <;> simp [moved]
    | turn q => exact .inr ⟨_, rfl⟩
    | _ => exact .inl rfl

variable [DecidableEq A] {ls : List (Label A P O E)}

lemma emitted_cases (s : State I A S P ε α) (l : Label A P O E) :
    emitted a p s l = [] ∨ ∃ l', emitted a p s l = [l'] := by
  cases l with
  | other l =>
    rw [emitted]
    split
    · exact .inl rfl
    · exact .inr ⟨l, rfl⟩
  | run i o => exact moved_cases _ _ _
  | restart => exact .inr ⟨_, rfl⟩
  | _ => exact .inl rfl

lemma sound_run (hs : Sound a s) (hr : run (step V a p) s ls = some t) : Sound a t := by
  induction ls generalizing s with
  | nil =>
    cases hr
    exact hs
  | cons l ls ih =>
    obtain ⟨u, hu, hr⟩ := run_cons.mp hr
    exact ih (sound_step hs hu) hr

/-- What the threads do in a run is a run of the one actor, with the conditions that its steps met. -/
theorem run_refines {G : Pool I A S P ε α → Programs.Label A P O E → Prop} (hs : Sound a s)
    (hg : Along (step V a p) (fun s l => ∀ l' ∈ emitted a p s l, G (project a p s) l') s ls)
    (hr : run (step V a p) s ls = some t) :
    ∃ ls', run V.step (project a p s) ls' = some (project a p t) ∧ Along V.step G (project a p s) ls' := by
  induction ls generalizing s with
  | nil =>
    cases hr
    exact ⟨[], rfl, trivial⟩
  | cons l ls ih =>
    obtain ⟨u, hu, hr⟩ := run_cons.mp hr
    obtain ⟨ls', hls, halong⟩ := ih (sound_step hs hu) (hg.tail hu) hr
    have hproject := step_project hs hu
    refine ⟨emitted a p s l ++ ls', run_append.mpr ⟨_, hproject, hls⟩, along_append ?_ hproject halong⟩
    have hhead := hg.head
    rcases emitted_cases s l with hnone | ⟨l', hone⟩
    · rw [hnone]
      trivial
    · rw [hone] at hhead ⊢
      exact ⟨hhead l' (List.mem_singleton_self l'), fun _ _ => trivial⟩

end Run

section Calls

/-- A thread is alive that goes on. -/
def Serving (s : State I A S P ε α) : Prop := s.stopped = false ∧ s.isAlive = true

/-- No call begins, and the process stays. -/
def quiet : Label A P O E → Bool
  | .start | .stop | .restart => false
  | _ => true

lemma move_alive {o : O} {w : S} {x : Thread I ε α} {v : S × Thread I ε α} (h : move V a p false o w x = some v) :
    v.2.alive = true := by
  cases x with
  | made => cases h
  | ended => cases h
  | check =>
    obtain ⟨u, -, rfl⟩ := Option.map_eq_some_iff.mp h
    rfl
  | turn q =>
    obtain ⟨⟨u, y⟩, -, rfl⟩ := Option.map_eq_some_iff.mp h
    cases y <;> rfl
  | wait =>
    cases h
    rfl

/-- `start` is on its way, or it has returned and its thread serves. -/
def Starting (s : State I A S P ε α) : Prop :=
  s.control = .clear ∨ (s.control = .make ∨ s.control = .launch) ∧ s.stopped = false ∨ s.control = .idle ∧ Serving s

lemma starting_proceed (hs : Sound a s) (hstart : Starting s) (h : s.proceed = some t) : Starting t := by
  have hfits := hs.fits
  rcases hstart with hc | ⟨hc | hc, hstopped⟩ | ⟨hc, -⟩
  · simp only [State.proceed, hc] at h
    cases h
    exact .inr (.inl ⟨.inl rfl, rfl⟩)
  · simp only [State.proceed, hc] at h
    cases h
    exact .inr (.inl ⟨.inr rfl, hstopped⟩)
  · simp only [State.proceed, hc] at h
    cases h
    rw [hc] at hfits
    obtain ⟨rest, hrest⟩ := List.head?_eq_some_iff.mp hfits
    refine .inr (.inr ⟨rfl, hstopped, ?_⟩)
    rw [State.isAlive, hrest]
    rfl
  · simp only [State.proceed, hc] at h
    cases h

/-- The event is set, and no `start` is on its way that would clear it. -/
def Stopping (s : State I A S P ε α) : Prop := s.stopped = true ∧ (s.control = .idle ∨ s.control = .join)

lemma Stopping.not_serving (h : Stopping s) : ¬ Serving s := by
  intro hserving
  have hset := h.1
  rw [hserving.1] at hset
  cases hset

/-- Neither `start` nor a new process clears the event. -/
def lasting : Label A P O E → Bool
  | .start | .restart => false
  | _ => true

lemma lasting_of_quiet {l : Label A P O E} (h : quiet l = true) : lasting l = true := by
  cases l <;> first | rfl | cases h

variable [DecidableEq A] {l : Label A P O E} {ls : List (Label A P O E)}

lemma starting_step (hs : Sound a s) (hstart : Starting s) (hl : quiet l = true) (h : step V a p s l = some t) :
    Starting t := by
  cases l with
  | start => cases hl
  | stop => cases hl
  | restart => cases hl
  | other l =>
    obtain ⟨-, hstep⟩ := Option.ite_none_left_eq_some.mp h
    obtain ⟨pool, -, rfl⟩ := Option.map_eq_some_iff.mp hstep
    exact hstart
  | proceed => exact starting_proceed hs hstart h
  | joined =>
    rw [step, State.joined] at h
    rcases hstart with hc | ⟨hc | hc, -⟩ | ⟨hc, -⟩ <;> rw [hc] at h <;> cases h
  | timeout =>
    rw [step, State.timeout] at h
    rcases hstart with hc | ⟨hc | hc, -⟩ | ⟨hc, -⟩ <;> rw [hc] at h <;> cases h
  | run i o =>
    obtain ⟨x, rest, w, hthreads, -, hmade, hover, hw, rfl⟩ := run_cases hs h
    have hfits := hs.fits
    rw [hthreads, List.head?_cons] at hfits
    rcases hstart with hc | ⟨hc | hc, -⟩ | ⟨hc, hstopped, -⟩
    · rw [hc] at hfits
      exact (hover (Option.some.inj (hfits.resolve_left fun h => (by cases h)))).elim
    · rw [hc] at hfits
      exact (hover (Option.some.inj (hfits.resolve_left fun h => (by cases h)))).elim
    · rw [hc] at hfits
      exact (hmade (Option.some.inj hfits)).elim
    · rw [hstopped] at hw
      exact .inr (.inr ⟨hc, hstopped, move_alive hw⟩)

lemma starting_run (hs : Sound a s) (hstart : Starting s) (hls : ∀ l ∈ ls, quiet l = true)
    (hr : run (step V a p) s ls = some t) : Starting t := by
  induction ls generalizing s with
  | nil =>
    cases hr
    exact hstart
  | cons l ls ih =>
    rw [List.forall_mem_cons] at hls
    obtain ⟨u, hu, hr⟩ := run_cons.mp hr
    exact ih (sound_step hs hu) (starting_step hs hstart hls.1 hu) hls.2 hr

lemma stopping_step (hs : Sound a s) (hstop : Stopping s) (hl : lasting l = true) (h : step V a p s l = some t) :
    Stopping t := by
  obtain ⟨hstopped, hcontrol⟩ := hstop
  cases l with
  | start => cases hl
  | restart => cases hl
  | other l =>
    obtain ⟨-, hstep⟩ := Option.ite_none_left_eq_some.mp h
    obtain ⟨pool, -, rfl⟩ := Option.map_eq_some_iff.mp hstep
    exact ⟨hstopped, hcontrol⟩
  | stop =>
    rw [step, State.stopCall] at h
    split at h
    · cases h
      refine ⟨rfl, ?_⟩
      change (if s.threads.isEmpty then Control.idle else .join) = .idle ∨ _
      split
      · exact .inl rfl
      · exact .inr rfl
    · cases h
  | proceed =>
    rw [step, State.proceed] at h
    rcases hcontrol with hc | hc <;> rw [hc] at h <;> cases h
  | joined =>
    rw [step, State.joined] at h
    split at h
    · split at h
      · cases h
        exact ⟨hstopped, .inl rfl⟩
      · cases h
    · cases h
  | timeout =>
    rw [step, State.timeout] at h
    split at h
    · cases h
      exact ⟨hstopped, .inl rfl⟩
    · cases h
  | run i o =>
    obtain ⟨x, rest, w, -, -, -, -, -, rfl⟩ := run_cases hs h
    exact ⟨hstopped, hcontrol⟩

lemma stopping_run (hs : Sound a s) (hstop : Stopping s) (hls : ∀ l ∈ ls, lasting l = true)
    (hr : run (step V a p) s ls = some t) : Stopping t := by
  induction ls generalizing s with
  | nil =>
    cases hr
    exact hstop
  | cons l ls ih =>
    rw [List.forall_mem_cons] at hls
    obtain ⟨u, hu, hr⟩ := run_cons.mp hr
    exact ih (sound_step hs hu) (stopping_step hs hstop hls.1 hu) hls.2 hr

lemma stopping_emits (hstop : Stopping s) (hl : lasting l = true) : .invoke a p ∉ emitted a p s l := by
  obtain ⟨hstopped, -⟩ := hstop
  cases l with
  | other l =>
    rw [emitted]
    split
    · exact List.not_mem_nil
    · rename_i hactor
      intro hmem
      rw [← List.mem_singleton.mp hmem] at hactor
      exact hactor rfl
  | run i o =>
    rw [emitted, hstopped]
    cases s.threads[i]? with
    | none => exact List.not_mem_nil
    | some x => cases x <;> simp [moved]
  | restart => cases hl
  | _ => exact List.not_mem_nil

/-- Once the event is set no thread begins the procedure again, whoever goes on and however often `stop` is
called, until the next `start`. -/
theorem stopping_begins_none (hs : Sound a s) (hstop : Stopping s) (hls : ∀ l ∈ ls, lasting l = true) :
    Along (step V a p) (fun s l => .invoke a p ∉ emitted a p s l) s ls := by
  induction ls generalizing s with
  | nil => trivial
  | cons l ls ih =>
    rw [List.forall_mem_cons] at hls
    exact ⟨stopping_emits hstop hls.1, fun t ht => ih (sound_step hs ht) (stopping_step hs hstop hls.1 ht) hls.2⟩

/-- When `start` has returned a thread serves, except where it found a thread alive that was to stop: then the
event is still set. -/
theorem start_returned (hs : Sound a s) (hidle : s.control = .idle) (hls : ∀ l ∈ ls, quiet l = true)
    (hr : run (step V a p) s (.start :: ls) = some t) (ht : t.control = .idle) :
    Serving t ∧ ¬ (s.stopped = true ∧ s.isAlive = true) ∨ Stopping t ∧ s.stopped = true ∧ s.isAlive = true := by
  obtain ⟨u, hu, hrest⟩ := run_cons.mp hr
  have hcall : u = if s.isAlive then s else { s with control := .clear } := by
    rw [step, State.startCall, hidle] at hu
    exact (Option.some.inj hu).symm
  have hserves : Starting u → Serving t := by
    intro hstart
    rcases starting_run (sound_step hs hu) hstart hls hrest with hc | ⟨hc | hc, -⟩ | ⟨-, hserving⟩
    · rw [ht] at hc
      cases hc
    · rw [ht] at hc
      cases hc
    · rw [ht] at hc
      cases hc
    · exact hserving
  by_cases halive : s.isAlive = true
  · rw [if_pos halive] at hcall
    rw [hcall] at hserves hrest
    cases hstopped : s.stopped with
    | false => exact .inl ⟨hserves (.inr (.inr ⟨hidle, hstopped, halive⟩)), fun h => (by cases h.1)⟩
    | true =>
      have hstop := stopping_run hs ⟨hstopped, .inl hidle⟩ (fun l hl => lasting_of_quiet (hls l hl)) hrest
      exact .inr ⟨hstop, rfl, halive⟩
  · rw [if_neg halive] at hcall
    rw [hcall] at hserves
    exact .inl ⟨hserves (.inl rfl), fun h => halive h.2⟩

end Calls

end OpsSentry.Foundation.Workers
