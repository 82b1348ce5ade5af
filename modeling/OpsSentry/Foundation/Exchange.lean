import Mathlib.Data.List.Nodup
import Mathlib.Tactic.Common

/-! Streams of requests and answers: a request asks for some keys, and the answers to them
follow it directly. -/

namespace OpsSentry.Foundation.Exchange

variable {μ κ : Type} [DecidableEq κ] (asks : μ → List κ) (answer : μ → Option κ)

def Settled (wanted got : List κ) : Prop := ∀ k ∈ wanted, got.count k = 1

instance (wanted got : List κ) : Decidable (Settled wanted got) :=
  inferInstanceAs (Decidable (∀ k ∈ wanted, _))

/-- `wanted` are the keys of the request read last and `got` the answers since: each key is
answered exactly once before the next item that is no answer, and nothing else is. -/
def Matched (wanted got : List κ) : List μ → Prop
  | [] => Settled wanted got
  | m :: ms =>
    match answer m with
    | some k => k ∈ wanted ∧ Matched wanted (got ++ [k]) ms
    | none => Settled wanted got ∧ Matched (asks m) [] ms

instance Matched.decidable : ∀ wanted got ms, Decidable (Matched asks answer wanted got ms)
  | wanted, got, [] => inferInstanceAs (Decidable (Settled wanted got))
  | wanted, got, m :: ms =>
    match ha : answer m with
    | some k =>
      have := Matched.decidable wanted (got ++ [k]) ms
      decidable_of_iff (k ∈ wanted ∧ Matched asks answer wanted (got ++ [k]) ms) (by simp [Matched, ha])
    | none =>
      have := Matched.decidable (asks m) [] ms
      decidable_of_iff (Settled wanted got ∧ Matched asks answer (asks m) [] ms) (by simp [Matched, ha])

def Fresh (ms : List μ) : Prop := ∀ m ∈ ms.head?, answer m = none

variable {asks answer} {wanted got : List κ} {m : μ} {ms rest : List μ}

lemma settled_self : Settled wanted wanted ↔ wanted.Nodup := by
  rw [Settled]
  rw [List.nodup_iff_count_eq_one]

lemma settled_nil : Settled ([] : List κ) got := by
  intro k hk
  cases hk

lemma settled_nil_right : Settled wanted [] ↔ wanted = [] := by
  constructor
  · intro h
    apply List.eq_nil_iff_forall_not_mem.mpr
    intro k hk
    have hcount := h k hk
    simp at hcount
  · rintro rfl
    exact settled_nil

lemma matched_fresh (h : Fresh answer ms) :
    Matched asks answer wanted got ms ↔ Settled wanted got ∧ Matched asks answer [] [] ms := by
  cases ms with
  | nil => simp [Matched, settled_nil]
  | cons m ms =>
    have hm : answer m = none := h m rfl
    simp [Matched, hm, settled_nil]

lemma matched_answers {as : List μ} {ks : List κ} (has : as.map answer = ks.map some) :
    Matched asks answer wanted got (as ++ ms) ↔
      (∀ k ∈ ks, k ∈ wanted) ∧ Matched asks answer wanted (got ++ ks) ms := by
  induction as generalizing ks got with
  | nil =>
    have hks : ks = [] := by simpa using has.symm
    subst ks
    simp
  | cons a as ih =>
    cases ks with
    | nil => simp at has
    | cons k ks =>
      rw [List.map_cons, List.map_cons, List.cons.injEq] at has
      simp only [List.cons_append, Matched, has.1, ih has.2, List.forall_mem_cons, List.append_assoc]
      exact and_assoc.symm

lemma matched_round {as : List μ} (hm : answer m = none) (has : as.map answer = (asks m).map some)
    (hms : Fresh answer ms) :
    Matched asks answer [] [] (m :: (as ++ ms)) ↔ (asks m).Nodup ∧ Matched asks answer [] [] ms := by
  have hround : Matched asks answer [] [] (m :: (as ++ ms)) ↔ Matched asks answer (asks m) [] (as ++ ms) := by
    simp [Matched, hm, settled_nil]
  rw [hround, matched_answers has, matched_fresh hms, List.nil_append, settled_self]
  exact ⟨And.right, fun h => ⟨fun _ hk => hk, h⟩⟩

lemma matched_unanswered {l : List μ} (hl : ∀ m ∈ l, answer m = none) (hms : Fresh answer ms) :
    Matched asks answer [] [] (l ++ ms) ↔ (∀ m ∈ l, asks m = []) ∧ Matched asks answer [] [] ms := by
  induction l with
  | nil => simp
  | cons m l ih =>
    obtain ⟨hm, hl⟩ := List.forall_mem_cons.mp hl
    have hfresh : Fresh answer (l ++ ms) := by
      cases l with
      | nil => exact hms
      | cons b l =>
        rintro _ ⟨⟩
        exact hl b List.mem_cons_self
    have hstep : Matched asks answer [] [] (m :: l ++ ms) ↔ Matched asks answer (asks m) [] (l ++ ms) := by
      simp [Matched, hm, settled_nil]
    rw [hstep, matched_fresh hfresh, settled_nil_right, ih hl, List.forall_mem_cons, and_assoc]

end OpsSentry.Foundation.Exchange
