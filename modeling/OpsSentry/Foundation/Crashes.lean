import OpsSentry.Foundation.Programs

/-! Programs that may stop for good between two commands: what holds of the store wherever
they stop, and how they end if they do not. -/

namespace OpsSentry.Foundation.Crashes

open Programs

variable {I : Interface} {S ε α β : Type} (exec : ℕ → S → (c : I.Command) → Option (S × I.Reply c))

/-- The store when the program has stopped after `n` commands, the next being the `i`-th. -/
def cut : ℕ → ℕ → Prog I ε α → S → S
  | n + 1, i, .call c k, s =>
    match exec i s c with
    | some w => cut n (i + 1) (k w.2) w.1
    | none => s
  | _, _, _, s => s

/-- The program always ends, with `Q`, and `C` holds wherever it stops. -/
def Ends (C : S → Prop) (Q : Except ε α → S → Prop) : Prog I ε α → S → Prop
  | .ret a, s => C s ∧ Q (.ok a) s
  | .raise e, s => C s ∧ Q (.error e) s
  | .again, _ => False
  | .call c k, s => C s ∧ ∀ i, ∃ w, exec i s c = some w ∧ Ends C Q (k w.2) w.1

variable {exec} {C : S → Prop} {Q R : Except ε α → S → Prop} {p : Prog I ε α} {s : S}

lemma Ends.here (h : Ends exec C Q p s) : C s := by
  cases p with
  | ret a => exact h.1
  | raise e => exact h.1
  | again => exact h.elim
  | call c k => exact h.1

lemma Ends.cut (h : Ends exec C Q p s) (n i : ℕ) : C (cut exec n i p s) := by
  induction n generalizing p i s with
  | zero => exact h.here
  | succ n ih =>
    cases p with
    | call c k =>
      obtain ⟨w, hw, hk⟩ := h.2 i
      simpa only [Crashes.cut, hw] using ih hk (i + 1)
    | _ => exact h.here

lemma Ends.alone (h : Ends exec C Q p s) (i : ℕ) :
    ∃ t x, p.alone exec i s = some (t, x) ∧ C t ∧ Q x t := by
  induction p generalizing i s with
  | ret a => exact ⟨s, .ok a, rfl, h⟩
  | raise e => exact ⟨s, .error e, rfl, h⟩
  | again => exact h.elim
  | call c k ih =>
    obtain ⟨w, hw, hk⟩ := h.2 i
    simpa only [Prog.alone, hw, Option.bind_some] using ih w.2 hk (i + 1)

lemma Ends.mono (h : Ends exec C Q p s) (hqr : ∀ x t, C t → Q x t → R x t) : Ends exec C R p s := by
  induction p generalizing s with
  | ret a => exact ⟨h.1, hqr _ _ h.1 h.2⟩
  | raise e => exact ⟨h.1, hqr _ _ h.1 h.2⟩
  | again => exact h
  | call c k ih =>
    refine ⟨h.1, fun i => ?_⟩
    obtain ⟨w, hw, hk⟩ := h.2 i
    exact ⟨w, hw, ih w.2 hk⟩

lemma Ends.weaken {D : S → Prop} (h : Ends exec C Q p s) (hcd : ∀ t, C t → D t) : Ends exec D Q p s := by
  induction p generalizing s with
  | ret a => exact ⟨hcd _ h.1, h.2⟩
  | raise e => exact ⟨hcd _ h.1, h.2⟩
  | again => exact h
  | call c k ih =>
    refine ⟨hcd _ h.1, fun i => ?_⟩
    obtain ⟨w, hw, hk⟩ := h.2 i
    exact ⟨w, hw, ih w.2 hk⟩

lemma Ends.bind {Q : Except ε β → S → Prop} {f : α → Prog I ε β}
    (h : Ends exec C (fun x t => match x with
      | .ok a => Ends exec C Q (f a) t
      | .error e => Q (.error e) t) p s) : Ends exec C Q (p >>= f) s := by
  induction p generalizing s with
  | ret a => exact h.2
  | raise e => exact h
  | again => exact h
  | call c k ih =>
    refine ⟨h.1, fun i => ?_⟩
    obtain ⟨w, hw, hk⟩ := h.2 i
    exact ⟨w, hw, ih w.2 hk⟩

lemma Ends.handle {g : ε → Prog I ε α}
    (h : Ends exec C (fun x t => match x with
      | .ok a => Q (.ok a) t
      | .error e => Ends exec C Q (g e) t) p s) : Ends exec C Q (tryCatch p g) s := by
  induction p generalizing s with
  | ret a => exact h
  | raise e => exact h.2
  | again => exact h
  | call c k ih =>
    refine ⟨h.1, fun i => ?_⟩
    obtain ⟨w, hw, hk⟩ := h.2 i
    exact ⟨w, hw, ih w.2 hk⟩

lemma Ends.and {D : S → Prop} (h : Ends exec C Q p s) (h' : Ends exec D R p s) :
    Ends exec (fun t => C t ∧ D t) (fun x t => Q x t ∧ R x t) p s := by
  induction p generalizing s with
  | ret a => exact ⟨⟨h.1, h'.1⟩, h.2, h'.2⟩
  | raise e => exact ⟨⟨h.1, h'.1⟩, h.2, h'.2⟩
  | again => exact h
  | call c k ih =>
    refine ⟨⟨h.1, h'.1⟩, fun i => ?_⟩
    obtain ⟨w, hw, hk⟩ := h.2 i
    obtain ⟨w', hw', hk'⟩ := h'.2 i
    obtain rfl := Option.some.inj (hw.symm.trans hw')
    exact ⟨w, hw, ih w.2 hk hk'⟩

end OpsSentry.Foundation.Crashes
