import Mathlib.Data.List.Sort
import Mathlib.Order.Basic
import Mathlib.Tactic.Common

/-! Stable sorting by descending key: what it means, that it determines the result, and that
merge sort does it. -/

namespace OpsSentry.Foundation.StableSort

variable {α κ : Type} [LinearOrder κ] {key : α → κ} {xs ys zs : List α}

/-- `ys` has the elements of `xs` by descending key, those with one key in the order of `xs`. -/
structure StableDescending (key : α → κ) (xs ys : List α) : Prop where
  sorted : ys.Pairwise fun a b => key b ≤ key a
  order : ∀ k, ys.filter (fun a => key a = k) = xs.filter (fun a => key a = k)

lemma StableDescending.mem_iff (h : StableDescending key xs ys) {a : α} : a ∈ ys ↔ a ∈ xs := by
  have hfilter : a ∈ ys.filter (fun b => key b = key a) ↔ a ∈ xs.filter (fun b => key b = key a) := by
    rw [h.order]
  simpa using hfilter

lemma StableDescending.head_le {y z : α} (h : StableDescending key xs (y :: ys))
    (h' : StableDescending key xs (z :: zs)) : key z ≤ key y := by
  have hz : z ∈ y :: ys := h.mem_iff.mpr (h'.mem_iff.mp List.mem_cons_self)
  rcases List.mem_cons.mp hz with rfl | hz
  · exact le_rfl
  · exact List.rel_of_pairwise_cons h.sorted hz

lemma StableDescending.unique (h : StableDescending key xs ys) (h' : StableDescending key xs zs) : ys = zs := by
  induction ys generalizing xs zs with
  | nil =>
    symm
    rw [List.eq_nil_iff_forall_not_mem]
    intro z hz
    exact List.not_mem_nil (h.mem_iff.mpr (h'.mem_iff.mp hz))
  | cons y ys ih =>
    cases zs with
    | nil => exact (List.not_mem_nil (h'.mem_iff.mpr (h.mem_iff.mp List.mem_cons_self))).elim
    | cons z zs =>
      have hkey : key z = key y := le_antisymm (h.head_le h') (h'.head_le h)
      have hfirst := (h.order (key y)).trans (h'.order (key y)).symm
      simp only [List.filter_cons, decide_true, if_true, hkey, List.cons.injEq] at hfirst
      obtain ⟨rfl, hrest⟩ := hfirst
      have htails : ∀ k, zs.filter (fun a => key a = k) = ys.filter (fun a => key a = k) := by
        intro k
        by_cases hk : key y = k
        · exact hk ▸ hrest.symm
        · have hall := (h'.order k).trans (h.order k).symm
          simpa [List.filter_cons, hk] using hall
      exact congrArg (y :: ·) (ih ⟨h.sorted.of_cons, fun _ => rfl⟩ ⟨h'.sorted.of_cons, htails⟩)

lemma stableDescending_mergeSort (key : α → κ) (xs : List α) :
    StableDescending key xs (xs.mergeSort fun a b => key b ≤ key a) := by
  have htrans : ∀ a b c : α, decide (key b ≤ key a) = true → decide (key c ≤ key b) = true →
      decide (key c ≤ key a) = true := by
    intro a b c hab hbc
    simp only [decide_eq_true_eq] at hab hbc ⊢
    exact hbc.trans hab
  have htotal : ∀ a b : α, (decide (key b ≤ key a) || decide (key a ≤ key b)) = true := by
    intro a b
    simpa using le_total (key b) (key a)
  refine ⟨?_, fun k => ?_⟩
  · simpa using List.pairwise_mergeSort htrans htotal xs
  · have hequal : (xs.filter fun a => key a = k).Pairwise fun a b => decide (key b ≤ key a) = true := by
      refine List.pairwise_of_forall_mem_list fun a ha b hb => ?_
      simp only [List.mem_filter, decide_eq_true_eq] at ha hb ⊢
      exact (hb.2.trans ha.2.symm).le
    have hsub := (List.sublist_mergeSort htrans htotal hequal List.filter_sublist).filter fun a => key a = k
    simp only [List.filter_filter, Bool.and_self] at hsub
    have hlength := ((List.mergeSort_perm xs fun a b => key b ≤ key a).filter fun a => key a = k).length_eq
    exact (hsub.eq_of_length hlength.symm).symm

end OpsSentry.Foundation.StableSort
