import Mathlib.Algebra.Ring.Nat
import Mathlib.Logic.Function.Basic
import Mathlib.Tactic.Common

/-! Runs of a labelled transition function, and invariants that survive the
runs whose every step meets a side condition. -/

namespace OpsSentry.Foundation.Runs

variable {σ α : Type} (step : σ → α → Option σ)

def run : σ → List α → Option σ
  | s, [] => some s
  | s, a :: as => (step s a).bind fun t => run t as

/-- `P` holds before every step of the run, as far as the run goes. -/
def Along (P : σ → α → Prop) : σ → List α → Prop
  | _, [] => True
  | s, a :: as => P s a ∧ ∀ t, step s a = some t → Along P t as

def Reachable (s t : σ) : Prop := ∃ as, run step s as = some t

/-- A run from one state to the other, whose every step meets `P`. -/
def Leads (P : σ → α → Prop) (s t : σ) : Prop := ∃ as, run step s as = some t ∧ Along step P s as

variable {step}

@[simp] lemma run_nil (s : σ) : run step s [] = some s := rfl

lemma run_cons {s t : σ} {a : α} {as : List α} :
    run step s (a :: as) = some t ↔ ∃ u, step s a = some u ∧ run step u as = some t := by
  simp only [run, Option.bind_eq_some_iff]

lemma run_append {s u : σ} {as bs : List α} :
    run step s (as ++ bs) = some u ↔ ∃ t, run step s as = some t ∧ run step t bs = some u := by
  induction as generalizing s with
  | nil => simp
  | cons a as ih =>
    simp only [List.cons_append, run_cons, ih]
    constructor
    · rintro ⟨v, hv, t, ht, hu⟩
      exact ⟨t, ⟨v, hv, ht⟩, hu⟩
    · rintro ⟨t, ⟨v, hv, ht⟩, hu⟩
      exact ⟨v, hv, t, ht, hu⟩

variable {P : σ → α → Prop}

lemma Along.head {s : σ} {a : α} {as : List α} (h : Along step P s (a :: as)) : P s a := h.1

lemma Along.tail {s t : σ} {a : α} {as : List α} (h : Along step P s (a :: as))
    (ht : step s a = some t) : Along step P t as := h.2 t ht

lemma along_cons {s t : σ} {a : α} {as : List α} (ht : step s a = some t) (hs : P s a)
    (h : Along step P t as) :
    Along step P s (a :: as) :=
  ⟨hs, fun _ hu => Option.some.inj (ht.symm.trans hu) ▸ h⟩

lemma Along.mono {Q : σ → α → Prop} (hpq : ∀ s a, P s a → Q s a) {s : σ} {as : List α}
    (h : Along step P s as) : Along step Q s as := by
  induction as generalizing s with
  | nil => trivial
  | cons a as ih => exact ⟨hpq _ _ h.head, fun t ht => ih (h.tail ht)⟩

lemma Along.and {Q : σ → α → Prop} {s : σ} {as : List α} (h : Along step P s as) (hq : Along step Q s as) :
    Along step (fun s a => P s a ∧ Q s a) s as := by
  induction as generalizing s with
  | nil => trivial
  | cons a as ih => exact ⟨⟨h.head, hq.head⟩, fun t ht => ih (h.tail ht) (hq.tail ht)⟩

lemma Along.append_left {s : σ} {as bs : List α} (h : Along step P s (as ++ bs)) : Along step P s as := by
  induction as generalizing s with
  | nil => trivial
  | cons a as ih => exact ⟨h.head, fun t ht => ih (h.tail ht)⟩

lemma Along.append_right {s t : σ} {as bs : List α} (h : Along step P s (as ++ bs))
    (ht : run step s as = some t) :
    Along step P t bs := by
  induction as generalizing s with
  | nil => exact Option.some.inj ht ▸ h
  | cons a as ih =>
    obtain ⟨u, hu, ht⟩ := run_cons.mp ht
    exact ih (h.tail hu) ht

lemma along_append {s t : σ} {as bs : List α} (hs : Along step P s as) (hr : run step s as = some t)
    (ht : Along step P t bs) : Along step P s (as ++ bs) := by
  induction as generalizing s with
  | nil =>
    cases hr
    exact ht
  | cons a as ih =>
    obtain ⟨u, hu, hr⟩ := run_cons.mp hr
    exact along_cons hu hs.head (ih (hs.tail hu) hr)

lemma Leads.refl (s : σ) : Leads step P s s := ⟨[], rfl, trivial⟩

lemma Leads.trans {s t u : σ} (h : Leads step P s t) (hu : Leads step P t u) : Leads step P s u := by
  obtain ⟨as, hr, ha⟩ := h
  obtain ⟨bs, hr', hb⟩ := hu
  exact ⟨as ++ bs, run_append.mpr ⟨t, hr, hr'⟩, along_append ha hr hb⟩

lemma Leads.next {s t u : σ} {a : α} (h : Leads step P s t) (ht : step t a = some u) (hp : P t a) :
    Leads step P s u :=
  h.trans ⟨[a], run_cons.mpr ⟨u, ht, rfl⟩, along_cons ht hp trivial⟩

lemma along_of_forall (h : ∀ s a, P s a) (s : σ) (as : List α) : Along step P s as := by
  induction as generalizing s with
  | nil => trivial
  | cons a as ih => exact ⟨h _ _, fun t _ => ih t⟩

instance Along.decidable [∀ s a, Decidable (P s a)] : ∀ s as, Decidable (Along step P s as)
  | _, [] => isTrue trivial
  | s, a :: as =>
    match hs : step s a with
    | none => decidable_of_iff (P s a) ⟨fun h => ⟨h, fun t ht => by simp [hs] at ht⟩, And.left⟩
    | some t =>
      have := Along.decidable t as
      decidable_of_iff (P s a ∧ Along step P t as)
        ⟨fun h => ⟨h.1, fun u hu => Option.some.inj (hs.symm.trans hu) ▸ h.2⟩, fun h => ⟨h.1, h.2 t hs⟩⟩

lemma exists_of_run_any (step : σ → α → Option σ) (s : σ) (as : List α) (p : σ → Bool)
    (h : (run step s as).any p = true) :
    ∃ t, run step s as = some t ∧ p t = true := by
  cases hr : run step s as with
  | none => simp [hr] at h
  | some t => exact ⟨t, rfl, by simpa [hr] using h⟩

lemma run_invariant {Inv : σ → Prop} (hstep : ∀ {s a t}, Inv s → P s a → step s a = some t → Inv t)
    {s t : σ} {as : List α} (hs : Inv s) (ha : Along step P s as)
    (hr : run step s as = some t) : Inv t := by
  induction as generalizing s with
  | nil => exact Option.some.inj hr ▸ hs
  | cons a as ih =>
    obtain ⟨u, hu, hr⟩ := run_cons.mp hr
    exact ih (hstep hs ha.head hu) (ha.tail hu) hr

/-- Two conditions that agree where an invariant holds, and of which one keeps it, agree along
every run. -/
lemma along_iff {Q : σ → α → Prop} {Inv : σ → Prop} (hiff : ∀ {s a}, Inv s → (P s a ↔ Q s a))
    (hstep : ∀ {s a t}, Inv s → Q s a → step s a = some t → Inv t) {s : σ} {as : List α} (hs : Inv s) :
    Along step P s as ↔ Along step Q s as := by
  induction as generalizing s with
  | nil => exact Iff.rfl
  | cons a as ih =>
    constructor
    · intro h
      have hq := (hiff hs).mp h.head
      exact ⟨hq, fun t ht => (ih (hstep hs hq ht)).mp (h.tail ht)⟩
    · intro h
      exact ⟨(hiff hs).mpr h.head, fun t ht => (ih (hstep hs h.head ht)).mpr (h.tail ht)⟩

lemma along_of_invariant {Q : σ → α → Prop} {Inv : σ → Prop} (hpq : ∀ {s a}, Inv s → Q s a → P s a)
    (hstep : ∀ {s a t}, Inv s → Q s a → step s a = some t → Inv t) {s : σ} {as : List α} (hs : Inv s)
    (h : Along step Q s as) : Along step P s as := by
  induction as generalizing s with
  | nil => trivial
  | cons a as ih => exact ⟨hpq hs h.head, fun t ht => ih (hstep hs h.head ht) (h.tail ht)⟩

lemma along_of_mem {Q : α → Prop} {as : List α} (h : ∀ a ∈ as, Q a) (s : σ) : Along step (fun _ a => Q a) s as := by
  induction as generalizing s with
  | nil => trivial
  | cons a as ih => exact ⟨h a List.mem_cons_self, fun t _ => ih (fun b hb => h b (List.mem_cons_of_mem a hb)) t⟩

/-- What the steps of a run cost is paid out of a measure of the state. -/
lemma run_cost {Inv : σ → Prop} (cost : α → ℕ) (work : σ → ℕ)
    (hstep : ∀ {s a t}, Inv s → P s a → step s a = some t → Inv t)
    (hcost : ∀ {s a t}, Inv s → P s a → step s a = some t → cost a + work t ≤ work s)
    {s t : σ} {as : List α} (hs : Inv s) (ha : Along step P s as) (hr : run step s as = some t) :
    (as.map cost).sum + work t ≤ work s := by
  induction as generalizing s with
  | nil =>
    cases hr
    simp
  | cons a as ih =>
    obtain ⟨u, hu, hr⟩ := run_cons.mp hr
    have hfirst := hcost hs ha.head hu
    have hrest := ih (hstep hs ha.head hu) (ha.tail hu) hr
    rw [List.map_cons, List.sum_cons]
    omega

lemma reachable_invariant {Inv : σ → Prop} (hstep : ∀ {s a t}, Inv s → step s a = some t → Inv t)
    {s t : σ} (hs : Inv s) (h : Reachable step s t) : Inv t := by
  obtain ⟨as, hr⟩ := h
  exact run_invariant (P := fun _ _ => True) (fun hi _ => hstep hi) hs
    (along_of_forall (fun _ _ => trivial) _ _) hr

end OpsSentry.Foundation.Runs
