import Mathlib.Data.List.Sort
import Mathlib.Data.List.Nodup
import Mathlib.Tactic.Common

/-! Keyset pagination: a reader that walks through rows in the order of a key, one page
after another, with the key of the last row it has read as its only memory. -/

namespace OpsSentry.Foundation.Keyset

variable {α κ : Type} [LinearOrder κ] (key : α → κ)

def ordered (rows : List α) : List α := rows.insertionSort fun x y => key x ≤ key y

def page (rows : List α) (after : κ) (limit : ℕ) : List α :=
  (ordered key (rows.filter fun x => after < key x)).take limit

/-- The cursor separates the first `m` rows from the others. -/
def Splits (rows : List α) (m : ℕ) (cursor : κ) : Prop :=
  (∀ x ∈ (ordered key rows).take m, key x ≤ cursor) ∧ ∀ x ∈ (ordered key rows).drop m, cursor < key x

variable {key} {rows : List α} {after : κ} {limit : ℕ}

@[simp] lemma mem_ordered {x : α} : x ∈ ordered key rows ↔ x ∈ rows := List.mem_insertionSort _

lemma pairwise_ordered_le (rows : List α) : (ordered key rows).Pairwise fun x y => key x ≤ key y := by
  have : Std.Total fun x y : α => key x ≤ key y := ⟨fun x y => le_total (key x) (key y)⟩
  have : IsTrans α fun x y : α => key x ≤ key y := ⟨fun _ _ _ => le_trans⟩
  exact List.pairwise_insertionSort _ rows

lemma pairwise_ordered (hk : (rows.map key).Nodup) :
    (ordered key rows).Pairwise fun x y => key x < key y := by
  have hperm : (ordered key rows).Perm rows := List.perm_insertionSort _ rows
  have hne : (ordered key rows).Pairwise fun x y => key x ≠ key y :=
    List.pairwise_map.mp ((hperm.map key).nodup_iff.mpr hk)
  exact ((pairwise_ordered_le rows).and hne).imp fun h => lt_of_le_of_ne h.1 h.2

lemma ordered_filter (hk : (rows.map key).Nodup) (p : α → Bool) :
    ordered key (rows.filter p) = (ordered key rows).filter p := by
  have : Std.Irrefl fun x y : α => key x < key y := ⟨fun x => lt_irrefl (key x)⟩
  apply List.Pairwise.eq_of_mem_iff (r := fun x y => key x < key y)
  · exact pairwise_ordered (hk.sublist (List.filter_sublist.map key))
  · exact (pairwise_ordered hk).filter p
  · intro x
    simp

lemma mem_page {x : α} (h : x ∈ page key rows after limit) : x ∈ rows ∧ after < key x := by
  have hx := List.mem_of_mem_take h
  simpa using hx

lemma le_of_page_eq_nil (hl : 0 < limit) (h : page key rows after limit = []) {x : α}
    (hx : x ∈ rows) : key x ≤ after := by
  rw [page] at h
  rcases List.take_eq_nil_iff.mp h with hz | hnil
  · omega
  · by_contra hlt
    have hmem : x ∈ ordered key (rows.filter fun x => after < key x) := by
      simpa using ⟨hx, not_le.mp hlt⟩
    rw [hnil] at hmem
    cases hmem

lemma mem_page_or_lt (hk : (rows.map key).Nodup) {x : α} (hx : x ∈ rows) (ha : after < key x) :
    x ∈ page key rows after limit ∨ ∀ y ∈ page key rows after limit, key y < key x := by
  have hsub : ((rows.filter fun x => after < key x).map key).Nodup :=
    hk.sublist (List.filter_sublist.map key)
  have hsorted := pairwise_ordered hsub
  have hmem : x ∈ ordered key (rows.filter fun x => after < key x) := by
    simpa using ⟨hx, ha⟩
  rw [← List.take_append_drop limit (ordered key _)] at hmem hsorted
  rcases List.mem_append.mp hmem with h | h
  · exact Or.inl h
  · exact Or.inr fun y hy => (List.pairwise_append.mp hsorted).2.2 y hy x h

lemma le_getLast_page {last : α} (h : (page key rows after limit).getLast? = some last) {x : α}
    (hx : x ∈ page key rows after limit) : key x ≤ key last := by
  have hsorted : (page key rows after limit).Pairwise fun x y => key x ≤ key y :=
    (pairwise_ordered_le _).sublist (List.take_sublist _ _)
  obtain ⟨init, hinit⟩ := List.getLast?_eq_some_iff.mp h
  rw [hinit] at hsorted hx
  rcases List.mem_append.mp hx with hx | hx
  · exact (List.pairwise_append.mp hsorted).2.2 x hx last (List.mem_singleton_self last)
  · exact (List.mem_singleton.mp hx) ▸ le_rfl

/-- From a cursor at position `m`, the page is the next stretch of the ordered rows. -/
lemma page_eq (hk : (rows.map key).Nodup) {m : ℕ} (h : Splits key rows m after) :
    page key rows after limit = ((ordered key rows).drop m).take limit := by
  rw [page]
  rw [ordered_filter hk]
  congr 1
  conv_lhs => rw [← List.take_append_drop m (ordered key rows), List.filter_append]
  have htake : ((ordered key rows).take m).filter (fun x => after < key x) = [] := by
    apply List.filter_eq_nil_iff.mpr
    intro x hx
    simpa using h.1 x hx
  have hdrop : ((ordered key rows).drop m).filter (fun x => after < key x) = (ordered key rows).drop m := by
    apply List.filter_eq_self.mpr
    intro x hx
    simpa using h.2 x hx
  rw [htake, hdrop, List.nil_append]

lemma splits_getLast_page (hk : (rows.map key).Nodup) {m : ℕ} (h : Splits key rows m after) {last : α}
    (hlast : (page key rows after limit).getLast? = some last) :
    Splits key rows (m + (page key rows after limit).length) (key last) := by
  have hsorted := pairwise_ordered hk
  rw [page_eq hk h] at hlast ⊢
  set S := ordered key rows
  have hcut : S.take (m + ((S.drop m).take limit).length) = S.take m ++ (S.drop m).take limit := by
    rw [List.take_add, List.length_take]
    congr 1
    rw [List.take_eq_take_iff, List.length_drop]
    omega
  have hmem : last ∈ (S.drop m).take limit := List.mem_of_getLast? hlast
  have hfront := hsorted
  have hback := hsorted
  rw [← List.take_append_drop m S] at hfront
  rw [← List.take_append_drop (m + ((S.drop m).take limit).length) S] at hback
  constructor
  · intro x hx
    rw [hcut] at hx
    rcases List.mem_append.mp hx with hx | hx
    · exact ((List.pairwise_append.mp hfront).2.2 x hx last (List.mem_of_mem_take hmem)).le
    · rw [← page_eq hk h] at hlast hx
      exact le_getLast_page hlast hx
  · intro x hx
    apply (List.pairwise_append.mp hback).2.2 last ?_ x hx
    rw [hcut]
    exact List.mem_append_right _ hmem

section FirstOccurrences

variable {β : Type} [DecidableEq β]

lemma eraseDups_of_nodup {l : List β} (h : l.Nodup) : l.eraseDups = l := by
  induction l with
  | nil => rfl
  | cons a l ih =>
    obtain ⟨ha, hl⟩ := List.nodup_cons.mp h
    have hfilter : (l.filter fun b => !b == a) = l := by
      apply List.filter_eq_self.mpr
      intro b hb
      have hne : b ≠ a := fun he => ha (he ▸ hb)
      simpa using hne
    rw [List.eraseDups_cons, hfilter, ih hl]

/-- Reading a stretch that starts no later than where the reading stopped adds only what
is new, in order. -/
lemma eraseDups_append_stretch {S l : List β} (hS : S.Nodup) {k m n : ℕ} (hmk : m ≤ k)
    (hl : l.eraseDups = S.take k) : (l ++ (S.drop m).take n).eraseDups = S.take (max k (m + n)) := by
  have hold : ∀ x, x ∈ l ↔ x ∈ S.take k := by
    intro x
    rw [← hl, List.mem_eraseDups]
  have hnew : ((S.drop m).take n).removeAll l = (S.drop k).take (m + n - k) := by
    have hsplit : (S.drop m).take n = ((S.take k).drop m).take n ++ (S.drop k).take (m + n - k) := by
      rcases le_total (m + n) k with h | h
      · rw [Nat.sub_eq_zero_of_le h, List.take_zero, List.append_nil, List.drop_take, List.take_take,
          min_eq_left (by omega)]
      · conv_lhs => rw [← Nat.add_sub_of_le (show k - m ≤ n by omega), List.take_add, List.drop_drop]
        rw [List.drop_take, List.take_take, min_eq_right (by omega), Nat.add_sub_of_le hmk]
        congr 2
        omega
    have hdisjoint : ∀ x ∈ S.drop k, x ∉ S.take k := by
      intro x hx hx'
      rw [← List.take_append_drop k S] at hS
      exact (List.nodup_append.mp hS).2.2 x hx' x hx rfl
    rw [List.removeAll, hsplit, List.filter_append]
    have hgone : (((S.take k).drop m).take n).filter (fun x => !l.elem x) = [] := by
      apply List.filter_eq_nil_iff.mpr
      intro x hx
      have hx' := (hold x).mpr (List.mem_of_mem_drop (List.mem_of_mem_take hx))
      simpa using hx'
    have hkept : ((S.drop k).take (m + n - k)).filter (fun x => !l.elem x) = (S.drop k).take (m + n - k) := by
      apply List.filter_eq_self.mpr
      intro x hx
      have hx' := fun h => hdisjoint x (List.mem_of_mem_take hx) ((hold x).mp h)
      simpa using hx'
    rw [hgone, hkept, List.nil_append]
  have hnodup : ((S.drop k).take (m + n - k)).Nodup :=
    hS.sublist ((List.take_sublist _ _).trans (List.drop_sublist _ _))
  rw [List.eraseDups_append, hl, hnew, eraseDups_of_nodup hnodup, ← List.take_add]
  congr 1
  omega

end FirstOccurrences

end OpsSentry.Foundation.Keyset
