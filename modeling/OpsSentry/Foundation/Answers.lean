import OpsSentry.Foundation.Programs

/-! What a program can end with, given what its commands may answer, and what its commands keep. -/

namespace OpsSentry.Foundation.Programs

namespace Prog

variable {I J : Interface} {ε ε' α β : Type}

/-- With answers that satisfy `R` the program ends in `Q` or restarts. -/
def EndsIn (R : (c : I.Command) → I.Reply c → Prop) (Q : Except ε α → Prop) : Prog I ε α → Prop
  | ret a => Q (.ok a)
  | raise e => Q (.error e)
  | again => True
  | call c k => ∀ r, R c r → EndsIn R Q (k r)

variable {R : (c : I.Command) → I.Reply c → Prop}

lemma EndsIn.mono {Q Q' : Except ε α → Prop} {p : Prog I ε α} (h : p.EndsIn R Q) (hq : ∀ x, Q x → Q' x) :
    p.EndsIn R Q' := by
  induction p with
  | ret a => exact hq _ h
  | raise e => exact hq _ h
  | again => trivial
  | call c k ih => exact fun r hr => ih r (h r hr)

lemma EndsIn.answers {R' : (c : I.Command) → I.Reply c → Prop} {Q : Except ε α → Prop} {p : Prog I ε α}
    (h : p.EndsIn R Q) (hr : ∀ c r, R' c r → R c r) : p.EndsIn R' Q := by
  induction p with
  | ret a => exact h
  | raise e => exact h
  | again => trivial
  | call c k ih => exact fun r hr' => ih r (h r (hr c r hr'))

lemma EndsIn.bind {Q : Except ε β → Prop} {p : Prog I ε α} {f : α → Prog I ε β}
    (h : p.EndsIn R fun x => match x with
      | .ok a => (f a).EndsIn R Q
      | .error e => Q (.error e)) : (p >>= f).EndsIn R Q := by
  induction p with
  | ret a => exact h
  | raise e => exact h
  | again => trivial
  | call c k ih => exact fun r hr => ih r (h r hr)

lemma EndsIn.handle {Q : Except ε α → Prop} {p : Prog I ε α} {g : ε → Prog I ε α}
    (h : p.EndsIn R fun x => match x with
      | .ok a => Q (.ok a)
      | .error e => (g e).EndsIn R Q) : (tryCatch p g).EndsIn R Q := by
  induction p with
  | ret a => exact h
  | raise e => exact h
  | again => trivial
  | call c k ih => exact fun r hr => ih r (h r hr)

lemma EndsIn.lift {m : Embedding I J} {f : ε → ε'} {R : (c : J.Command) → J.Reply c → Prop}
    {Q : Except ε' α → Prop} {p : Prog I ε α}
    (h : p.EndsIn (fun c r => ∃ y, m.reply c y = r ∧ R (m.command c) y) fun x => Q (x.mapError f)) :
    (p.lift m f).EndsIn R Q := by
  induction p with
  | ret a => exact h
  | raise e => exact h
  | again => trivial
  | call c k ih => exact fun y hy => ih _ (h _ ⟨y, rfl, hy⟩)

/-- With some answers that satisfy `R` the program ends in `x`. -/
def CanEnd (R : (c : I.Command) → I.Reply c → Prop) (x : Except ε α) : Prog I ε α → Prop
  | ret a => x = .ok a
  | raise e => x = .error e
  | again => False
  | call c k => ∃ r, R c r ∧ CanEnd R x (k r)

lemma EndsIn.of_canEnd {Q : Except ε α → Prop} {p : Prog I ε α} {x : Except ε α} (h : p.EndsIn R Q)
    (hx : p.CanEnd R x) : Q x := by
  induction p with
  | ret a => exact hx ▸ h
  | raise e => exact hx ▸ h
  | again => exact hx.elim
  | call c k ih =>
    obtain ⟨r, hr, hx⟩ := hx
    exact ih r (h r hr) hx

lemma CanEnd.bind {p : Prog I ε α} {f : α → Prog I ε β} {a : α} {x : Except ε β} (hp : p.CanEnd R (.ok a))
    (hf : (f a).CanEnd R x) : (p >>= f).CanEnd R x := by
  induction p with
  | ret b =>
    cases hp
    exact hf
  | raise e => cases hp
  | again => exact hp.elim
  | call c k ih =>
    obtain ⟨r, hr, hk⟩ := hp
    exact ⟨r, hr, ih r hk⟩

lemma CanEnd.handle {p : Prog I ε α} {g : ε → Prog I ε α} {a : α} (hp : p.CanEnd R (.ok a)) :
    (tryCatch p g).CanEnd R (.ok a) := by
  induction p with
  | ret b => exact hp
  | raise e => cases hp
  | again => exact hp.elim
  | call c k ih =>
    obtain ⟨r, hr, hk⟩ := hp
    exact ⟨r, hr, ih r hk⟩

lemma CanEnd.lift {m : Embedding I J} {f : ε → ε'} {R' : (c : J.Command) → J.Reply c → Prop}
    {p : Prog I ε α} {a : α}
    (hr : ∀ c r, R c r → ∃ y, m.reply c y = r ∧ R' (m.command c) y) (hp : p.CanEnd R (.ok a)) :
    (p.lift m f).CanEnd R' (.ok a) := by
  induction p with
  | ret b =>
    cases hp
    rfl
  | raise e => cases hp
  | again => exact hp.elim
  | call c k ih =>
    obtain ⟨r, h, hk⟩ := hp
    obtain ⟨y, rfl, hy⟩ := hr c r h
    exact ⟨y, hy, ih _ hk⟩

/-- With some answers that satisfy `R` the program issues the commands `cs` and ends in `x`. -/
def Issued (R : (c : I.Command) → I.Reply c → Prop) (x : Except ε α) : Prog I ε α → List I.Command → Prop
  | ret a, cs => cs = [] ∧ x = .ok a
  | raise e, cs => cs = [] ∧ x = .error e
  | again, _ => False
  | call c k, cs => ∃ r rest, R c r ∧ cs = c :: rest ∧ Issued R x (k r) rest

lemma issued_orThrow {a : Except ε α} {f : α → Prog I ε β} {x : Except ε β} {cs : List I.Command}
    (h : (orThrow a >>= f).Issued R x cs) : (∃ v, a = .ok v ∧ (f v).Issued R x cs) ∨ ∃ e, a = .error e ∧ cs = [] ∧ x = .error e := by
  cases a with
  | ok v => exact .inl ⟨v, rfl, h⟩
  | error e => exact .inr ⟨e, rfl, h⟩

lemma lift_bind {m : Embedding I J} {f : ε → ε'} (p : Prog I ε α) (g : α → Prog I ε β) :
    (p >>= g).lift m f = p.lift m f >>= fun a => (g a).lift m f := by
  induction p with
  | ret a => rfl
  | raise e => rfl
  | again => rfl
  | call c k ih => exact congrArg (call (m.command c)) (funext fun r => ih (m.reply c r))

/-- An assertion that all commands of a program keep holds at its end. -/
lemma alone_keeps {S : Type} {exec : ℕ → S → (c : I.Command) → Option (S × I.Reply c)}
    {T : S → Prop} {Z : I.Command → Prop} (hexec : ∀ i s c w r, Z c → T s → exec i s c = some (w, r) → T w)
    {p : Prog I ε α} (hp : p.Issues Z) {i : ℕ} {s t : S} {x : Except ε α} (hs : T s)
    (h : p.alone exec i s = some (t, x)) : T t := by
  induction p generalizing i s with
  | ret a =>
    cases h
    exact hs
  | raise e =>
    cases h
    exact hs
  | again => cases h
  | call c k ih =>
    obtain ⟨w, hw, hk⟩ := Option.bind_eq_some_iff.mp h
    exact ih w.2 (hp.2 w.2) (hexec i s c w.1 w.2 hp.1 hs hw) hk

end Prog

namespace Contract

variable {I : Interface} {A S P O E ε α β : Type} {C : Contract I A S P} {V : Service I A S P O E ε α}

/-- `wp_of_issues` with what the guard and the assertion say of the answers. -/
lemma wp_of_endsIn {Z : I.Command → Prop} {R : (c : I.Command) → I.Reply c → Prop} {a : A} {J T : S → Prop}
    {Q : Except ε β → Prop} {Q' : Except ε β → S → Prop}
    (hrely : ∀ s t, C.Inv s → C.Rely a s t → C.Inv t → T s → T t)
    (hcall : ∀ c o t w r, Z c → C.Inv t → T t → C.Guard a t c → V.exec a o t c = some (w, r) →
      C.Yields a t w ∧ T w ∧ R c r)
    (hagain : ∀ t, C.Inv t → T t → J t) (hend : ∀ x t, C.Inv t → T t → Q x → Q' x t)
    {q : Prog I ε β} (hq : q.Issues Z) (hends : q.EndsIn R Q) {s : S} (hi : C.Inv s) (hs : T s) :
    C.wp V a J Q' q s := by
  induction q generalizing s with
  | ret v => exact hend _ _ hi hs hends
  | raise e => exact hend _ _ hi hs hends
  | again => exact fun t ht hit => hagain t hit (hrely s t hi ht hit hs)
  | call c k ih =>
    intro t ht hit hg o w r hw
    obtain ⟨hy, hT, hr⟩ := hcall c o t w r hq.1 hit (hrely s t hi ht hit hs) hg hw
    exact ⟨hy, ih r (hq.2 r) (hends r hr) hy.1 hT⟩

end Contract

end OpsSentry.Foundation.Programs
