import OpsSentry.Foundation.Runs

/-! Sequential programs that issue atomic commands to a shared store, the pool
of actors that interleaves them, and a rely/guarantee rule for its invariants. -/

namespace OpsSentry.Foundation.Programs

open Runs

structure Interface where
  Command : Type
  Reply : Command → Type

/-- `again` restarts the procedure that the program belongs to: a tail call of
itself with the same arguments. -/
inductive Prog (I : Interface) (ε α : Type) : Type
  | ret (a : α)
  | raise (e : ε)
  | again
  | call (c : I.Command) (k : I.Reply c → Prog I ε α)

namespace Prog

variable {I : Interface} {ε α β : Type}

def bind : Prog I ε α → (α → Prog I ε β) → Prog I ε β
  | ret a, f => f a
  | raise e, _ => raise e
  | again, _ => again
  | call c k, f => call c fun r => bind (k r) f

def handle : Prog I ε α → (ε → Prog I ε α) → Prog I ε α
  | ret a, _ => ret a
  | raise e, h => h e
  | again, _ => again
  | call c k, h => call c fun r => handle (k r) h

instance : Monad (Prog I ε) where
  pure := ret
  bind := bind

instance : MonadExceptOf ε (Prog I ε) where
  throw := raise
  tryCatch := handle

def perform (c : I.Command) : Prog I ε (I.Reply c) := call c ret

@[simp] lemma ret_bind (a : α) (f : α → Prog I ε β) : (ret a : Prog I ε α) >>= f = f a := rfl
@[simp] lemma pure_eq (a : α) : (pure a : Prog I ε α) = ret a := rfl
@[simp] lemma raise_bind (e : ε) (f : α → Prog I ε β) : (raise e : Prog I ε α) >>= f = raise e := rfl
@[simp] lemma again_bind (f : α → Prog I ε β) : (again : Prog I ε α) >>= f = again := rfl
@[simp] lemma call_bind (c : I.Command) (k : I.Reply c → Prog I ε α) (f : α → Prog I ε β) :
    call c k >>= f = call c fun r => k r >>= f := rfl
@[simp] lemma perform_bind (c : I.Command) (f : I.Reply c → Prog I ε β) :
    (perform c : Prog I ε (I.Reply c)) >>= f = call c f := rfl
@[simp] lemma throw_eq (e : ε) : (throw e : Prog I ε α) = raise e := rfl
@[simp] lemma catch_ret (a : α) (h : ε → Prog I ε α) : tryCatch (ret a : Prog I ε α) h = ret a := rfl
@[simp] lemma catch_raise (e : ε) (h : ε → Prog I ε α) : tryCatch (raise e : Prog I ε α) h = h e := rfl
@[simp] lemma catch_again (h : ε → Prog I ε α) : tryCatch (again : Prog I ε α) h = again := rfl
@[simp] lemma catch_call (c : I.Command) (k : I.Reply c → Prog I ε α) (h : ε → Prog I ε α) :
    tryCatch (call c k) h = call c fun r => tryCatch (k r) h := rfl

/-- Every command the program can issue, whatever the replies, satisfies `P`. -/
def Issues (P : I.Command → Prop) : Prog I ε α → Prop
  | call c k => P c ∧ ∀ r, Issues P (k r)
  | _ => True

lemma Issues.bind {P : I.Command → Prop} {p : Prog I ε α} {f : α → Prog I ε β}
    (hp : Issues P p) (hf : ∀ a, Issues P (f a)) : Issues P (p >>= f) := by
  induction p with
  | ret a => exact hf a
  | raise e => trivial
  | again => trivial
  | call c k ih => exact ⟨hp.1, fun r => ih r (hp.2 r)⟩

lemma Issues.handle {P : I.Command → Prop} {p : Prog I ε α} {h : ε → Prog I ε α}
    (hp : Issues P p) (hh : ∀ e, Issues P (h e)) : Issues P (tryCatch p h) := by
  induction p with
  | ret a => trivial
  | raise e => exact hh e
  | again => trivial
  | call c k ih => exact ⟨hp.1, fun r => ih r (hp.2 r)⟩

lemma Issues.mono {P Q : I.Command → Prop} (h : ∀ c, P c → Q c) {p : Prog I ε α} (hp : Issues P p) : Issues Q p := by
  induction p with
  | ret a => trivial
  | raise e => trivial
  | again => trivial
  | call c k ih => exact ⟨h c hp.1, fun r => ih r (hp.2 r)⟩

/-- With some replies, the program issues a command that satisfies `P`. -/
def Reaches (P : I.Command → Prop) : Prog I ε α → Prop
  | call c k => P c ∨ ∃ r, Reaches P (k r)
  | _ => False

lemma Reaches.after {P : I.Command → Prop} {c : I.Command} {k : I.Reply c → Prog I ε α} (r : I.Reply c)
    (h : Reaches P (k r)) : Reaches P (call c k) := Or.inr ⟨r, h⟩

lemma not_reaches_of_issues {P : I.Command → Prop} {p : Prog I ε α} (h : p.Issues fun c => ¬ P c) :
    ¬ p.Reaches P := by
  induction p with
  | ret a => exact id
  | raise e => exact id
  | again => exact id
  | call c k ih =>
    rintro (hc | ⟨r, hr⟩)
    · exact h.1 hc
    · exact ih r (h.2 r) hr

end Prog

def orThrow {I : Interface} {ε α : Type} : Except ε α → Prog I ε α
  | .ok v => .ret v
  | .error e => .raise e

lemma bind_eq_ok {ε α β : Type} {x : Except ε α} {f : α → Except ε β} {b : β} (h : x >>= f = .ok b) :
    ∃ a, x = .ok a ∧ f a = .ok b := by
  cases x with
  | error e => cases h
  | ok a => exact ⟨a, rfl, h⟩

lemma map_eq_ok {ε α β : Type} {x : Except ε α} {f : α → β} {b : β} : f <$> x = .ok b ↔ ∃ a, x = .ok a ∧ f a = b := by
  cases x <;> simp [Functor.map, Except.map]

lemma orThrow_issues {I : Interface} {ε α : Type} {P : I.Command → Prop} (x : Except ε α) :
    (orThrow x : Prog I ε α).Issues P := by
  cases x <;> trivial

structure Embedding (I J : Interface) where
  command : I.Command → J.Command
  reply : ∀ c, J.Reply (command c) → I.Reply c

namespace Prog

variable {I J : Interface} {ε ε' α β : Type}

def lift (m : Embedding I J) (f : ε → ε') : Prog I ε α → Prog J ε' α
  | ret a => ret a
  | raise e => raise (f e)
  | again => again
  | call c k => call (m.command c) fun r => lift m f (k (m.reply c r))

lemma Issues.lift {m : Embedding I J} {f : ε → ε'} {P : J.Command → Prop} {p : Prog I ε α}
    (h : p.Issues fun c => P (m.command c)) : (p.lift m f).Issues P := by
  induction p with
  | ret a => trivial
  | raise e => trivial
  | again => trivial
  | call c k ih => exact ⟨h.1, fun r => ih (m.reply c r) (h.2 (m.reply c r))⟩

lemma issues_of_forall {P : I.Command → Prop} (h : ∀ c, P c) (p : Prog I ε α) : p.Issues P := by
  induction p with
  | ret a => trivial
  | raise e => trivial
  | again => trivial
  | call c k ih => exact ⟨h c, ih⟩

/-- The program on its own from store `s`, `exec i` being its `i`-th command; `none` where a
command is not possible or the procedure would restart. -/
def alone {S : Type} (exec : ℕ → S → (c : I.Command) → Option (S × I.Reply c)) (i : ℕ) :
    Prog I ε α → S → Option (S × Except ε α)
  | ret a, s => some (s, .ok a)
  | raise e, s => some (s, .error e)
  | again, _ => none
  | call c k, s => (exec i s c).bind fun w => alone exec (i + 1) (k w.2) w.1

lemma alone_map {S : Type} {exec : ℕ → S → (c : I.Command) → Option (S × I.Reply c)} {i : ℕ}
    {p : Prog I ε α}
    {s t : S} {x : Except ε α} {f : α → β} (h : p.alone exec i s = some (t, x)) :
    (f <$> p).alone exec i s = some (t, x.map f) := by
  induction p generalizing i s with
  | ret a =>
    cases h
    rfl
  | raise e =>
    cases h
    rfl
  | again => cases h
  | call c k ih =>
    obtain ⟨w, hw, hk⟩ := Option.bind_eq_some_iff.mp h
    exact Option.bind_eq_some_iff.mpr ⟨w, hw, ih w.2 hk⟩

/-- The program on its own to its end, or to where the procedure would restart, `.ok none`. -/
def untilAgain {S : Type} (exec : ℕ → S → (c : I.Command) → Option (S × I.Reply c)) (i : ℕ) :
    Prog I ε α → S → Option (S × Except ε (Option α))
  | ret a, s => some (s, .ok (some a))
  | raise e, s => some (s, .error e)
  | again, s => some (s, .ok none)
  | call c k, s => (exec i s c).bind fun w => untilAgain exec (i + 1) (k w.2) w.1

lemma untilAgain_of_alone {S : Type} {exec : ℕ → S → (c : I.Command) → Option (S × I.Reply c)} {i : ℕ}
    {p : Prog I ε α}
    {s t : S} {x : Except ε α} (h : p.alone exec i s = some (t, x)) :
    p.untilAgain exec i s = some (t, x.map some) := by
  induction p generalizing i s with
  | ret a =>
    cases h
    rfl
  | raise e =>
    cases h
    rfl
  | again => cases h
  | call c k ih =>
    obtain ⟨w, hw, hk⟩ := Option.bind_eq_some_iff.mp h
    exact Option.bind_eq_some_iff.mpr ⟨w, hw, ih w.2 hk⟩

/-- A handler that answers at once. -/
lemma alone_catch {S : Type} {exec : ℕ → S → (c : I.Command) → Option (S × I.Reply c)} {i : ℕ}
    {p : Prog I ε α}
    {s t : S} {x : Except ε α} (b : ε → α) (h : p.alone exec i s = some (t, x)) :
    (tryCatch p fun e => pure (b e)).alone exec i s = some (t, x.tryCatch fun e => .ok (b e)) := by
  induction p generalizing i s with
  | ret a =>
    cases h
    rfl
  | raise e =>
    cases h
    rfl
  | again => cases h
  | call c k ih =>
    obtain ⟨w, hw, hk⟩ := Option.bind_eq_some_iff.mp h
    exact Option.bind_eq_some_iff.mpr ⟨w, hw, ih w.2 hk⟩

end Prog

/-- The store and the procedures of a system of actors. `exec` is one atomic
command (`none`: not possible now), `enter` and `leave` are what the start and
the end of a procedure do to the store, `crash` what the loss of an actor does. -/
structure Service (I : Interface) (A S P O E ε α : Type) where
  body : A → P → Prog I ε α
  exec : A → O → S → (c : I.Command) → Option (S × I.Reply c)
  enter : A → P → S → Option S
  leave : A → P → Except ε α → S → S
  crash : A → S → Option S
  environment : E → S → Option S

structure Pool (I : Interface) (A S P ε α : Type) where
  shared : S
  active : A → Option (P × Prog I ε α)

inductive Label (A P O E : Type)
  | invoke (a : A) (p : P)
  | advance (a : A) (o : O)
  | crash (a : A)
  | environment (e : E)

variable {I : Interface} {A S P O E ε α : Type}

def Pool.idle (s : S) : Pool I A S P ε α := ⟨s, fun _ => none⟩

namespace Service

def resume (V : Service I A S P O E ε α) (a : A) (o : O) (s : S) (p : P) :
    Prog I ε α → Option (S × Option (P × Prog I ε α))
  | .ret v => some (V.leave a p (.ok v) s, none)
  | .raise e => some (V.leave a p (.error e) s, none)
  | .again => some (s, some (p, V.body a p))
  | .call c k => (V.exec a o s c).map fun w => (w.1, some (p, k w.2))

def step [DecidableEq A] (V : Service I A S P O E ε α) (s : Pool I A S P ε α) :
    Label A P O E → Option (Pool I A S P ε α)
  | .invoke a p =>
    match s.active a with
    | some _ => none
    | none => (V.enter a p s.shared).map fun w =>
        ⟨w, Function.update s.active a (some (p, V.body a p))⟩
  | .advance a o =>
    match s.active a with
    | none => none
    | some (p, q) => (V.resume a o s.shared p q).map fun w => ⟨w.1, Function.update s.active a w.2⟩
  | .crash a => (V.crash a s.shared).map fun w => ⟨w, Function.update s.active a none⟩
  | .environment e => (V.environment e s.shared).map fun w => { s with shared := w }

/-- Actor `a` moves `k` times, the environment once before each move. -/
def paced (a : A) (o : O) (e : ℕ → E) (i : ℕ) : ℕ → List (Label A P O E)
  | 0 => []
  | k + 1 => .environment (e i) :: .advance a o :: paced a o e (i + 1) k

def pacedExec (V : Service I A S P O E ε α) (a : A) (o : O) (e : ℕ → E) (i : ℕ) (s : S)
    (c : I.Command) : Option (S × I.Reply c) :=
  (V.environment (e i) s).bind fun t => V.exec a o t c

variable [DecidableEq A] {V : Service I A S P O E ε α} {a : A} {o : O} {e : ℕ → E} {p : P}
  {x : Except ε α}

lemma exists_run_of_alone (henv : ∀ i s, ∃ t, V.environment (e i) s = some t) {q : Prog I ε α}
    {i : ℕ} {s : Pool I A S P ε α} {t : S} (ha : s.active a = some (p, q))
    (h : q.alone (V.pacedExec a o e) i s.shared = some (t, x)) :
    ∃ j k t', V.environment (e j) t = some t' ∧ run V.step s (paced a o e i k) =
      some ⟨V.leave a p x t', Function.update s.active a none⟩ := by
  induction q generalizing i s with
  | ret v =>
    cases h
    obtain ⟨t', ht'⟩ := henv i s.shared
    exact ⟨i, 1, t', ht', by simp [paced, run, step, ha, resume, ht']⟩
  | raise e =>
    cases h
    obtain ⟨t', ht'⟩ := henv i s.shared
    exact ⟨i, 1, t', ht', by simp [paced, run, step, ha, resume, ht']⟩
  | again => cases h
  | call c f ih =>
    obtain ⟨⟨u, y⟩, hu, ht⟩ := Option.bind_eq_some_iff.mp h
    obtain ⟨s', hs', hu⟩ := Option.bind_eq_some_iff.mp hu
    obtain ⟨j, k, t', ht', hr⟩ := ih y (s := ⟨u, Function.update s.active a (some (p, f y))⟩)
      (Function.update_self ..) ht
    refine ⟨j, k + 1, t', ht', ?_⟩
    simpa [paced, run, step, ha, resume, hs', hu] using hr

lemma eq_of_run_idle {s u : Pool I A S P ε α} {i k : ℕ} (ha : s.active a = none)
    (hr : run V.step s (paced a o e i k) = some u) : u = s := by
  cases k with
  | zero => exact (Option.some.inj hr).symm
  | succ k =>
    obtain ⟨v, hv, hr⟩ := run_cons.mp hr
    obtain ⟨w, hw, -⟩ := run_cons.mp hr
    obtain ⟨t, -, rfl⟩ := Option.map_eq_some_iff.mp hv
    simp [step, ha] at hw

lemma resume_of_run {q : Prog I ε α} {s u : Pool I A S P ε α} {i k : ℕ} (ha : s.active a = some (p, q))
    (hr : run V.step s (paced a o e i k) = some u) (hu : u.active a = none) :
    ∃ j t w, V.environment (e i) s.shared = some t ∧ V.resume a o t p q = some w ∧
      run V.step ⟨w.1, Function.update s.active a w.2⟩ (paced a o e (i + 1) j) = some u := by
  cases k with
  | zero =>
    obtain rfl := Option.some.inj hr
    rw [ha] at hu
    cases hu
  | succ k =>
    obtain ⟨v, hv, hr⟩ := run_cons.mp hr
    obtain ⟨v', hv', hr⟩ := run_cons.mp hr
    obtain ⟨t, ht, rfl⟩ := Option.map_eq_some_iff.mp hv
    simp only [step, ha, Option.map_eq_some_iff] at hv'
    obtain ⟨w, hw, rfl⟩ := hv'
    exact ⟨k, t, w, ht, hw, hr⟩

/-- An actor that moves alone until its procedure has ended ends it as `alone` says. -/
lemma eq_of_run_alone {q : Prog I ε α} {s u : Pool I A S P ε α} {t : S} {i k : ℕ}
    (ha : s.active a = some (p, q)) (h : q.alone (V.pacedExec a o e) i s.shared = some (t, x))
    (hr : run V.step s (paced a o e i k) = some u) (hu : u.active a = none) :
    ∃ j t', V.environment (e j) t = some t' ∧
      u = ⟨V.leave a p x t', Function.update s.active a none⟩ := by
  induction q generalizing i s k with
  | ret v =>
    obtain ⟨j, t', w, ht', hw, hj⟩ := resume_of_run ha hr hu
    cases hw
    cases h
    exact ⟨i, t', ht', eq_of_run_idle (Function.update_self ..) hj⟩
  | raise e =>
    obtain ⟨j, t', w, ht', hw, hj⟩ := resume_of_run ha hr hu
    cases hw
    cases h
    exact ⟨i, t', ht', eq_of_run_idle (Function.update_self ..) hj⟩
  | again => cases h
  | call c f ih =>
    obtain ⟨j, t', w, ht', hw, hj⟩ := resume_of_run ha hr hu
    obtain ⟨⟨t'', y⟩, hy, rfl⟩ := Option.map_eq_some_iff.mp hw
    simp only [Prog.alone, pacedExec, ht', Option.bind_some, hy] at h
    obtain ⟨l, z, hl, hz⟩ := ih y (s := ⟨t'', _⟩) (Function.update_self ..) h hj
    exact ⟨l, z, hl, by simpa using hz⟩

end Service

/-- `Rely a` is what actor `a` may assume about the steps of all others; `Guard`
is a condition on the store when a command is executed; `Pre` is what holds
whenever a procedure starts or restarts. -/
structure Contract (I : Interface) (A S P : Type) where
  Inv : S → Prop
  Rely : A → S → S → Prop
  Guard : A → S → I.Command → Prop
  Pre : A → P → S → Prop
  refl : ∀ a s, Rely a s s
  trans : ∀ {a s t u}, Rely a s t → Rely a t u → Rely a s u

namespace Contract

variable (C : Contract I A S P) (V : Service I A S P O E ε α) {β γ : Type}

def Yields (a : A) (s t : S) : Prop := C.Inv t ∧ ∀ b, b ≠ a → C.Rely b s t

/-- From store `s`, under any interference the rely allows, the program keeps the
invariant and what the others rely on, ends in `Q`, and meets `J` when it restarts. -/
def wp (a : A) (J : S → Prop) (Q : Except ε β → S → Prop) : Prog I ε β → S → Prop
  | .ret v, s => Q (.ok v) s
  | .raise e, s => Q (.error e) s
  | .again, s => ∀ t, C.Rely a s t → C.Inv t → J t
  | .call c k, s => ∀ t, C.Rely a s t → C.Inv t → C.Guard a t c → ∀ o w r,
      V.exec a o t c = some (w, r) → C.Yields a t w ∧ wp a J Q (k r) w

def Finishes (a : A) (p : P) (x : Except ε α) (s : S) : Prop :=
  ∀ t, C.Rely a s t → C.Inv t → C.Yields a t (V.leave a p x t)

def Safe (a : A) (p : P) (q : Prog I ε α) (s : S) : Prop :=
  C.wp V a (C.Pre a p) (C.Finishes V a p) q s

structure Meets : Prop where
  enter : ∀ a p s w, C.Inv s → V.enter a p s = some w → C.Yields a s w ∧ C.Pre a p w
  body : ∀ a p s, C.Inv s → C.Pre a p s → C.Safe V a p (V.body a p) s
  crash : ∀ a s w, C.Inv s → V.crash a s = some w → C.Yields a s w
  environment : ∀ e s w, C.Inv s → V.environment e s = some w → C.Inv w ∧ ∀ b, C.Rely b s w

def Respects (s : Pool I A S P ε α) : Label A P O E → Prop
  | .advance a _ => ∀ p c k, s.active a = some (p, .call c k) → C.Guard a s.shared c
  | _ => True

instance [∀ a s c, Decidable (C.Guard a s c)] (s : Pool I A S P ε α) (l : Label A P O E) :
    Decidable (C.Respects s l) :=
  match l with
  | .invoke _ _ | .crash _ | .environment _ => isTrue trivial
  | .advance a _ =>
    match ha : s.active a with
    | some (p, .call c k) => decidable_of_iff (C.Guard a s.shared c)
        ⟨by rintro h _ _ _ hx; rw [ha] at hx; cases hx; exact h, fun h => h p c k ha⟩
    | none | some (_, .ret _) | some (_, .raise _) | some (_, .again) =>
      isTrue (by intro p c k hx; rw [ha] at hx; cases hx)

structure Good (s : Pool I A S P ε α) : Prop where
  inv : C.Inv s.shared
  safe : ∀ a p q, s.active a = some (p, q) → C.Safe V a p q s.shared

variable {C V}

lemma wp_mono {a : A} {J : S → Prop} {Q R : Except ε β → S → Prop} {q : Prog I ε β} {s : S}
    (hi : C.Inv s) (h : C.wp V a J Q q s) (hqr : ∀ x t, C.Inv t → Q x t → R x t) :
    C.wp V a J R q s := by
  induction q generalizing s with
  | ret v => exact hqr _ _ hi h
  | raise e => exact hqr _ _ hi h
  | again => exact h
  | call c k ih =>
    intro t ht hit hg o w r hw
    obtain ⟨hy, hk⟩ := h t ht hit hg o w r hw
    exact ⟨hy, ih r hy.1 hk⟩

lemma wp_bind {a : A} {J : S → Prop} {Q : Except ε γ → S → Prop} {q : Prog I ε β}
    {f : β → Prog I ε γ} {s : S}
    (h : C.wp V a J (fun x t => match x with
      | .ok v => C.wp V a J Q (f v) t
      | .error e => Q (.error e) t) q s) : C.wp V a J Q (q >>= f) s := by
  induction q generalizing s with
  | ret v => exact h
  | raise e => exact h
  | again => exact h
  | call c k ih =>
    intro t ht hi hg o w r hw
    exact ⟨(h t ht hi hg o w r hw).1, ih r (h t ht hi hg o w r hw).2⟩

lemma wp_handle {a : A} {J : S → Prop} {Q : Except ε β → S → Prop} {q : Prog I ε β}
    {g : ε → Prog I ε β} {s : S}
    (h : C.wp V a J (fun x t => match x with
      | .ok v => Q (.ok v) t
      | .error e => C.wp V a J Q (g e) t) q s) : C.wp V a J Q (tryCatch q g) s := by
  induction q generalizing s with
  | ret v => exact h
  | raise e => exact h
  | again => exact h
  | call c k ih =>
    intro t ht hi hg o w r hw
    exact ⟨(h t ht hi hg o w r hw).1, ih r (h t ht hi hg o w r hw).2⟩

lemma Safe.weaken {a : A} {p : P} {q : Prog I ε α} {s t : S} (h : C.Safe V a p q s)
    (hr : C.Rely a s t) : C.Safe V a p q t := by
  cases q with
  | ret v => exact fun u hu => h u (C.trans hr hu)
  | raise e => exact fun u hu => h u (C.trans hr hu)
  | again => exact fun u hu => h u (C.trans hr hu)
  | call c k => exact fun u hu => h u (C.trans hr hu)

lemma Good.idle {s : S} (h : C.Inv s) : C.Good V (Pool.idle s) :=
  ⟨h, by intro a p q ha; simp [Pool.idle] at ha⟩

lemma Yields.refl {a : A} {s : S} (h : C.Inv s) : C.Yields a s s := ⟨h, fun b _ => C.refl b s⟩

/-- An assertion that interference and all commands of a program keep holds at its end. -/
lemma wp_of_issues {Z : I.Command → Prop} {a : A} {J T : S → Prop} {Q : Except ε β → S → Prop}
    (hrely : ∀ s t, C.Inv s → C.Rely a s t → C.Inv t → T s → T t)
    (hcall : ∀ c o t w r, Z c → C.Inv t → T t → C.Guard a t c → V.exec a o t c = some (w, r) →
      C.Yields a t w ∧ T w)
    (hagain : ∀ t, C.Inv t → T t → J t) (hend : ∀ x t, C.Inv t → T t → Q x t)
    {q : Prog I ε β} (hq : q.Issues Z) {s : S} (hi : C.Inv s) (hs : T s) : C.wp V a J Q q s := by
  induction q generalizing s with
  | ret v => exact hend _ _ hi hs
  | raise e => exact hend _ _ hi hs
  | again => exact fun t ht hit => hagain t hit (hrely s t hi ht hit hs)
  | call c k ih =>
    intro t ht hit hg o w r hw
    obtain ⟨hy, hT⟩ := hcall c o t w r hq.1 hit (hrely s t hi ht hit hs) hg hw
    exact ⟨hy, ih r (hq.2 r) hy.1 hT⟩

lemma safe_of_issues {Z : I.Command → Prop} {a : A} {p : P}
    (hcall : ∀ c o t w r, Z c → C.Inv t → C.Guard a t c → V.exec a o t c = some (w, r) → C.Yields a t w)
    (hleave : ∀ x t, C.Inv t → C.Yields a t (V.leave a p x t)) (hagain : ∀ t, C.Inv t → C.Pre a p t)
    {q : Prog I ε α} (hq : q.Issues Z) {s : S} (hi : C.Inv s) : C.Safe V a p q s :=
  wp_of_issues (T := fun _ => True) (fun _ _ _ _ _ h => h)
    (fun c o t w r hc hit _ hg hw => ⟨hcall c o t w r hc hit hg hw, trivial⟩)
    (fun t hit _ => hagain t hit) (fun x _ _ _ t _ hit => hleave x t hit) hq hi trivial

variable [DecidableEq A]

lemma Good.move {s : Pool I A S P ε α} (hg : C.Good V s) {a : A} {w : S}
    {q : Option (P × Prog I ε α)} (hy : C.Yields a s.shared w)
    (hq : ∀ p r, q = some (p, r) → C.Safe V a p r w) :
    C.Good V ⟨w, Function.update s.active a q⟩ := by
  refine ⟨hy.1, ?_⟩
  intro b p r hb
  by_cases he : b = a
  · subst b
    exact hq p r (by simpa using hb)
  · replace hb : s.active b = some (p, r) := by simpa [Function.update_of_ne he] using hb
    exact (hg.safe b p r hb).weaken (hy.2 b he)

lemma good_resume (hm : C.Meets V) {s : Pool I A S P ε α} (hg : C.Good V s) {a : A} {o : O} {p : P}
    {q : Prog I ε α} (ha : s.active a = some (p, q))
    (hc : C.Respects s (.advance a o : Label A P O E)) {w : S × Option (P × Prog I ε α)}
    (hw : V.resume a o s.shared p q = some w) :
    C.Good V ⟨w.1, Function.update s.active a w.2⟩ := by
  have hs := hg.safe a p q ha
  cases q with
  | ret v =>
    obtain rfl := Option.some.inj hw
    exact hg.move (hs _ (C.refl _ _) hg.inv) (by simp)
  | raise e =>
    obtain rfl := Option.some.inj hw
    exact hg.move (hs _ (C.refl _ _) hg.inv) (by simp)
  | again =>
    obtain rfl := Option.some.inj hw
    refine hg.move (Yields.refl hg.inv) ?_
    rintro p' r ⟨⟩
    exact hm.body a p _ hg.inv (hs _ (C.refl _ _) hg.inv)
  | call c k =>
    obtain ⟨⟨t, r⟩, ht, rfl⟩ := Option.map_eq_some_iff.mp hw
    obtain ⟨hy, hk⟩ := hs _ (C.refl _ _) hg.inv (hc p c k ha) o t r ht
    refine hg.move hy ?_
    rintro p' r' ⟨⟩
    exact hk

lemma good_step (hm : C.Meets V) {s t : Pool I A S P ε α} {l : Label A P O E} (hg : C.Good V s)
    (hc : C.Respects s l) (h : V.step s l = some t) : C.Good V t := by
  cases l with
  | invoke a p =>
    cases ha : s.active a with
    | some x => simp [Service.step, ha] at h
    | none =>
      simp only [Service.step, ha, Option.map_eq_some_iff] at h
      obtain ⟨w, hw, rfl⟩ := h
      obtain ⟨hy, hp⟩ := hm.enter a p _ w hg.inv hw
      refine hg.move hy ?_
      rintro p' r ⟨⟩
      exact hm.body a p w hy.1 hp
  | advance a o =>
    cases ha : s.active a with
    | none => simp [Service.step, ha] at h
    | some x =>
      simp only [Service.step, ha, Option.map_eq_some_iff] at h
      obtain ⟨w, hw, rfl⟩ := h
      exact good_resume hm hg ha hc hw
  | crash a =>
    simp only [Service.step, Option.map_eq_some_iff] at h
    obtain ⟨w, hw, rfl⟩ := h
    exact hg.move (hm.crash a _ w hg.inv hw) (by simp)
  | environment e =>
    simp only [Service.step, Option.map_eq_some_iff] at h
    obtain ⟨w, hw, rfl⟩ := h
    obtain ⟨hi, hr⟩ := hm.environment e _ w hg.inv hw
    exact ⟨hi, fun a p q ha => (hg.safe a p q ha).weaken (hr a)⟩

/-- The rely/guarantee rule: in a run whose commands meet the guard, the
invariant holds of every store reached. -/
theorem sound (hm : C.Meets V) {s : S} {t : Pool I A S P ε α} {ls : List (Label A P O E)}
    (hs : C.Inv s) (hc : Along V.step C.Respects (Pool.idle s) ls)
    (hr : run V.step (Pool.idle s) ls = some t) : C.Inv t.shared :=
  (run_invariant (fun hg ha h => good_step hm hg ha h) (Good.idle hs) hc hr).inv

/-- Where no command has a condition to meet, the invariant holds in every run. -/
theorem sound_of_unguarded (hm : C.Meets V) (hg : ∀ a s c, C.Guard a s c) {s : S} {t : Pool I A S P ε α}
    {ls : List (Label A P O E)} (hs : C.Inv s) (hr : run V.step (Pool.idle s) ls = some t) :
    C.Inv t.shared := by
  have hrespects : ∀ (s : Pool I A S P ε α) (l : Label A P O E), C.Respects s l := by
    intro s l
    cases l with
    | advance a o => exact fun p c k _ => hg a s.shared c
    | _ => trivial
  exact sound hm hs (along_of_forall hrespects _ _) hr

/-- What every command that the procedures issue keeps holds in every run. -/
theorem invariant_of_issues {Inv : S → Prop} {Z : A → I.Command → Prop}
    (hbody : ∀ a p, (V.body a p).Issues (Z a))
    (hexec : ∀ a o s c w r, Z a c → Inv s → V.exec a o s c = some (w, r) → Inv w)
    (henter : ∀ a p s w, Inv s → V.enter a p s = some w → Inv w) (hleave : ∀ a p x s, Inv s → Inv (V.leave a p x s))
    (hcrash : ∀ a s w, Inv s → V.crash a s = some w → Inv w)
    (henvironment : ∀ e s w, Inv s → V.environment e s = some w → Inv w) {s : S} {t : Pool I A S P ε α}
    {ls : List (Label A P O E)} (hs : Inv s) (hr : run V.step (Pool.idle s) ls = some t) : Inv t.shared := by
  let C : Contract I A S P :=
    { Inv, Rely := fun _ _ _ => True, Guard := fun _ _ _ => True, Pre := fun _ _ _ => True,
      refl := fun _ _ => trivial, trans := fun _ _ => trivial }
  have hm : C.Meets V := {
    enter := fun a p s w hi hw => ⟨⟨henter a p s w hi hw, fun _ _ => trivial⟩, trivial⟩
    body := fun a p s hi _ => safe_of_issues (fun c o t w r hc hit _ hw => ⟨hexec a o t c w r hc hit hw, fun _ _ => trivial⟩)
      (fun x t hit => ⟨hleave a p x t hit, fun _ _ => trivial⟩) (fun _ _ => trivial) (hbody a p) hi
    crash := fun a s w hi hw => ⟨hcrash a s w hi hw, fun _ _ => trivial⟩
    environment := fun e s w hi hw => ⟨henvironment e s w hi hw, fun _ => trivial⟩ }
  exact sound_of_unguarded hm (fun _ _ _ => trivial) hs hr

end Contract

end OpsSentry.Foundation.Programs
