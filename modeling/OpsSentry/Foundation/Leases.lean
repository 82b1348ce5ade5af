import Mathlib.Order.Basic
import Mathlib.Tactic.Common
import Mathlib.Data.Int.Order.Basic

/-! Leases kept in cells that name one owner each. Exclusive holding follows from
one invariant, that every live holder is named by its cell, and the invariant
from one property of the steps, that no step takes a live owner's name away. -/

namespace OpsSentry.Foundation.Leases

structure Lease where
  since : ℤ
  ttl : ℤ
deriving DecidableEq, Repr

/-- How a store of type `S` records leases of owners `N` on cells `R`. `live now l` has to
be closed under going back in time. -/
structure Registry (S N R : Type) where
  now : S → ℤ
  names : S → R → N → Prop
  lease : S → N → R → Option Lease
  held : S → N → R → Bool
  live : ℤ → Lease → Prop
  names_unique : ∀ {s r m n}, names s r m → names s r n → m = n
  live_anti : ∀ {i j l}, i ≤ j → live j l → live i l

namespace Registry

variable {S N R : Type} (G : Registry S N R)

def Live (s : S) (n : N) (r : R) : Prop := ∃ l, G.lease s n r = some l ∧ G.live (G.now s) l

def Holder (s : S) (n : N) (r : R) : Prop := G.held s n r = true ∧ G.Live s n r

def Exclusive (s : S) : Prop := ∀ r m n, G.Holder s m r → G.Holder s n r → m = n

def Backed (s : S) : Prop := ∀ n r, G.Holder s n r → G.names s r n

def Expired (s : S) (r : R) : Prop := ∃ m, G.names s r m ∧ ¬ G.Live s m r

/-- The step leaves owner `n` its lease, and its name in every cell while the lease lives. -/
structure Keeps (n : N) (s t : S) : Prop where
  now : G.now s ≤ G.now t
  lease : ∀ r, G.lease t n r = G.lease s n r
  held : ∀ r, G.held t n r = G.held s n r
  names : ∀ r, G.Live t n r → G.names s r n → G.names t r n

variable {G}

instance [∀ i l, Decidable (G.live i l)] (s : S) (n : N) (r : R) : Decidable (G.Live s n r) :=
  match h : G.lease s n r with
  | none => isFalse (by rintro ⟨l, hl, -⟩; simp [h] at hl)
  | some l => decidable_of_iff (G.live (G.now s) l)
      ⟨fun hl => ⟨l, h, hl⟩, fun ⟨_, hm, hl⟩ => Option.some.inj (h.symm.trans hm) ▸ hl⟩

instance [∀ i l, Decidable (G.live i l)] (s : S) (n : N) (r : R) : Decidable (G.Holder s n r) :=
  inferInstanceAs (Decidable (_ ∧ _))

lemma exclusive_of_backed {s : S} (h : G.Backed s) : G.Exclusive s :=
  fun r m n hm hn => G.names_unique (h m r hm) (h n r hn)

lemma Keeps.refl (n : N) (s : S) : G.Keeps n s s := ⟨le_rfl, fun _ => rfl, fun _ => rfl, fun _ _ h => h⟩

lemma Keeps.live {n : N} {s t : S} (h : G.Keeps n s t) {r : R} (hl : G.Live t n r) : G.Live s n r := by
  obtain ⟨l, hl, ht⟩ := hl
  exact ⟨l, by rw [← h.lease r]; exact hl, G.live_anti h.now ht⟩

lemma Keeps.holder {n : N} {s t : S} (h : G.Keeps n s t) {r : R} (ht : G.Holder t n r) :
    G.Holder s n r := ⟨by rw [← h.held r]; exact ht.1, h.live ht.2⟩

lemma Keeps.trans {n : N} {s t u : S} (h : G.Keeps n s t) (h' : G.Keeps n t u) : G.Keeps n s u where
  now := h.now.trans h'.now
  lease r := (h'.lease r).trans (h.lease r)
  held r := (h'.held r).trans (h.held r)
  names r hl hn := h'.names r hl (h.names r (h'.live hl) hn)

/-- The others keep their names, so only the actor's own holdings are left to check. -/
lemma Backed.step {s t : S} {a : N} (h : G.Backed s) (hk : ∀ b, b ≠ a → G.Keeps b s t)
    (ha : ∀ r, G.Holder t a r → G.names t r a) : G.Backed t := by
  intro b r hb
  by_cases he : b = a
  · subst b
    exact ha r hb
  · exact (hk b he).names r hb.2 (h b r ((hk b he).holder hb))

lemma Backed.keep {s t : S} (h : G.Backed s) (hk : ∀ b, G.Keeps b s t) : G.Backed t :=
  fun b r hb => (hk b).names r hb.2 (h b r ((hk b).holder hb))

/-- A live owner is not named by a cell that is its rival's or has run out. -/
lemma not_live_of_disposable {s : S} {r : R} {a b : N} (hab : b ≠ a)
    (hd : G.names s r a ∨ G.Expired s r) (hb : G.names s r b) : ¬ G.Live s b r := by
  rcases hd with ha | ⟨m, hm, hl⟩
  · exact (hab (G.names_unique hb ha)).elim
  · exact G.names_unique hb hm ▸ hl

end Registry

end OpsSentry.Foundation.Leases
