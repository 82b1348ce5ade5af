import Mathlib.Data.List.Range
import Mathlib.Data.List.Nodup
import Mathlib.Data.List.Perm.Subperm
import Mathlib.Tactic.Common

/-! Strictly increasing lists of natural numbers: an element is at the place that it names unless a
smaller number is missing. -/

namespace OpsSentry.Foundation.Ranks

variable {ns : List ℕ} {k : ℕ}

lemma lt_of_getElem_lt (h : ns.Pairwise (· < ·)) {m : ℕ} (hk : k < ns.length) (hm : m < ns.length)
    (hlt : ns[m] < ns[k]) : m < k := by
  by_contra hle
  rcases Nat.lt_or_eq_of_le (Nat.le_of_not_lt hle) with hkm | rfl
  · exact absurd (List.pairwise_iff_getElem.mp h k m hk hm hkm) (Nat.lt_asymm hlt)
  · exact Nat.lt_irrefl _ hlt

lemma mem_take_iff (h : ns.Pairwise (· < ·)) (hk : k < ns.length) {n : ℕ} :
    n ∈ ns.take k ↔ n ∈ ns ∧ n < ns[k] := by
  rw [List.mem_take_iff_getElem]
  constructor
  · rintro ⟨m, hm, rfl⟩
    exact ⟨List.getElem_mem _, List.pairwise_iff_getElem.mp h m k _ hk (by omega)⟩
  · rintro ⟨hmem, hlt⟩
    obtain ⟨m, hm, rfl⟩ := List.mem_iff_getElem.mp hmem
    exact ⟨m, lt_min (lt_of_getElem_lt h hk hm hlt) hm, rfl⟩

lemma le_getElem (h : ns.Pairwise (· < ·)) (hk : k < ns.length) : k ≤ ns[k] := by
  have hsub : ns.take k ⊆ List.range ns[k] := fun n hn => List.mem_range.mpr ((mem_take_iff h hk).mp hn).2
  have hnodup : (ns.take k).Nodup := (h.imp Nat.ne_of_lt).sublist (List.take_sublist k ns)
  have hle := (List.subperm_of_subset hnodup hsub).length_le
  rwa [List.length_range, List.length_take_of_le hk.le] at hle

/-- The numbers below an element that are in the list are those before it. -/
lemma lt_getElem_iff (h : ns.Pairwise (· < ·)) (hk : k < ns.length) : k < ns[k] ↔ ∃ j < ns[k], j ∉ ns := by
  have hnodup : (ns.take k).Nodup := (h.imp Nat.ne_of_lt).sublist (List.take_sublist k ns)
  have hlength : (ns.take k).length = k := List.length_take_of_le hk.le
  constructor
  · intro hlt
    by_contra hall
    push Not at hall
    have hsub : List.range ns[k] ⊆ ns.take k := by
      intro j hj
      rw [List.mem_range] at hj
      exact (mem_take_iff h hk).mpr ⟨hall j hj, hj⟩
    have hle := (List.subperm_of_subset List.nodup_range hsub).length_le
    rw [List.length_range, hlength] at hle
    omega
  · rintro ⟨j, hj, hnot⟩
    have hsub : j :: ns.take k ⊆ List.range ns[k] := by
      intro n hn
      rw [List.mem_range]
      rcases List.mem_cons.mp hn with rfl | hn
      · exact hj
      · exact ((mem_take_iff h hk).mp hn).2
    have hcons : (j :: ns.take k).Nodup := List.nodup_cons.mpr ⟨fun hmem => hnot (List.mem_of_mem_take hmem), hnodup⟩
    have hle := (List.subperm_of_subset hcons hsub).length_le
    rw [List.length_range, List.length_cons, hlength] at hle
    omega

/-- A function with one value off the list takes the same value at every place and at its element
exactly if it has that one value at the elements behind a gap. -/
lemma agree_iff {β : Type} {t : ℕ → β} {b : β} (h : ns.Pairwise (· < ·)) (hoff : ∀ n, n ∉ ns → t n = b) :
    (∀ k (hk : k < ns.length), t k = t ns[k]) ↔ ∀ k (hk : k < ns.length), k < ns[k] → t ns[k] = b := by
  constructor
  · intro hsame k
    induction k using Nat.strongRecOn with
    | ind k ih =>
      intro hk hlt
      rw [← hsame k hk]
      by_cases hmem : k ∈ ns
      · obtain ⟨m, hm, hmk⟩ := List.mem_iff_getElem.mp hmem
        have hmlt : m < k := lt_of_getElem_lt h hk hm (by omega)
        rw [← ih m hmlt hm (by omega), hmk]
      · exact hoff k hmem
  · intro hgap k hk
    have hle := le_getElem h hk
    rcases Nat.lt_or_eq_of_le hle with hlt | heq
    · rw [hgap k hk hlt]
      by_cases hmem : k ∈ ns
      · obtain ⟨m, hm, hmk⟩ := List.mem_iff_getElem.mp hmem
        have hmlt : m < k := lt_of_getElem_lt h hk hm (by omega)
        rw [← hgap m hm (by omega), hmk]
      · exact hoff k hmem
    · rw [← heq]

end OpsSentry.Foundation.Ranks
