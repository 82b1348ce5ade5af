import Mathlib.Data.List.Nodup
import Mathlib.Tactic.Common

/-! Dictionaries that keep the order in which their keys were first inserted. -/

namespace OpsSentry.Foundation.Dicts

@[ext]
structure OrderedDict (κ ν : Type) where
  items : List (κ × ν)
  nodup : (items.map Prod.fst).Nodup

namespace OrderedDict

variable {κ ν : Type}

def empty : OrderedDict κ ν := ⟨[], List.nodup_nil⟩

def keys (d : OrderedDict κ ν) : List κ := d.items.map Prod.fst

def values (d : OrderedDict κ ν) : List ν := d.items.map Prod.snd

variable [DecidableEq κ]

def get? (d : OrderedDict κ ν) (k : κ) : Option ν := (d.items.find? fun p => p.1 = k).map Prod.snd

def replaced (k : κ) (v : ν) (p : κ × ν) : κ × ν := if p.1 = k then (k, v) else p

lemma replaced_fst (k : κ) (v : ν) (p : κ × ν) : (replaced k v p).1 = p.1 := by
  rw [replaced]
  split
  · exact (‹p.1 = k›).symm
  · rfl

/-- A key that is present keeps its place. -/
def set (d : OrderedDict κ ν) (k : κ) (v : ν) : OrderedDict κ ν :=
  if h : k ∈ d.keys then
    { items := d.items.map (replaced k v)
      nodup := by
        rw [List.map_map, Function.comp_def]
        simpa only [replaced_fst] using d.nodup }
  else
    { items := d.items ++ [(k, v)]
      nodup := by
        rw [List.map_append, List.nodup_append]
        refine ⟨d.nodup, List.nodup_singleton _, ?_⟩
        intro a ha b hb hab
        rw [List.map_singleton, List.mem_singleton] at hb
        rw [hab, hb] at ha
        exact h ha }

def erase (d : OrderedDict κ ν) (k : κ) : OrderedDict κ ν where
  items := d.items.filter fun p => p.1 ≠ k
  nodup := d.nodup.sublist (List.filter_sublist.map _)

variable {d : OrderedDict κ ν} {k j : κ} {v : ν}

lemma get?_eq_some_iff : d.get? k = some v ↔ (k, v) ∈ d.items := by
  rw [get?]
  constructor
  · intro h
    obtain ⟨p, hp, rfl⟩ := Option.map_eq_some_iff.mp h
    have hk : p.1 = k := by simpa using List.find?_some hp
    exact hk ▸ List.mem_of_find?_eq_some hp
  · intro h
    cases hf : d.items.find? fun p => p.1 = k with
    | none =>
      have hn := List.find?_eq_none.mp hf (k, v) h
      simp at hn
    | some p =>
      have hk : p.1 = k := by simpa using List.find?_some hf
      have hp : p = (k, v) := List.inj_on_of_nodup_map d.nodup (List.mem_of_find?_eq_some hf) h hk
      rw [hp]
      rfl

lemma mem_keys_iff : k ∈ d.keys ↔ ∃ v, d.get? k = some v := by
  constructor
  · intro h
    obtain ⟨⟨k', v⟩, hp, rfl⟩ := List.mem_map.mp h
    exact ⟨v, get?_eq_some_iff.mpr hp⟩
  · rintro ⟨v, h⟩
    exact List.mem_map_of_mem (get?_eq_some_iff.mp h)

lemma get?_eq_none_iff : d.get? k = none ↔ k ∉ d.keys := by
  rw [mem_keys_iff, Option.eq_none_iff_forall_ne_some, not_exists]

@[simp] lemma get?_empty : (empty : OrderedDict κ ν).get? k = none := rfl

@[simp] lemma get?_set : (d.set k v).get? j = if j = k then some v else d.get? j := by
  have hmem : ∀ w, (j, w) ∈ (d.set k v).items ↔ if j = k then w = v else (j, w) ∈ d.items := by
    intro w
    rw [set]
    split
    · rename_i hk
      simp only [List.mem_map]
      constructor
      · rintro ⟨⟨a, b⟩, hab, heq⟩
        rw [replaced] at heq
        split at heq
        · cases heq
          rw [if_pos rfl]
        · rename_i hne
          cases heq
          rwa [if_neg hne]
      · intro h
        split at h
        · rename_i hj
          subst hj h
          obtain ⟨⟨a, b⟩, hab, rfl⟩ := List.mem_map.mp hk
          exact ⟨(a, b), hab, if_pos rfl⟩
        · rename_i hj
          exact ⟨(j, w), h, if_neg hj⟩
    · rename_i hk
      rw [List.mem_append, List.mem_singleton, Prod.mk.injEq]
      constructor
      · rintro (h | ⟨rfl, rfl⟩)
        · have hj : j ≠ k := fun he => hk (he ▸ List.mem_map_of_mem h)
          rwa [if_neg hj]
        · rw [if_pos rfl]
      · intro h
        split at h
        · exact Or.inr ⟨‹_›, h⟩
        · exact Or.inl h
  apply Option.ext
  intro w
  rw [get?_eq_some_iff, hmem]
  split
  · rw [Option.some.injEq]
    exact eq_comm
  · rw [get?_eq_some_iff]

@[simp] lemma get?_erase : (d.erase k).get? j = if j = k then none else d.get? j := by
  apply Option.ext
  intro w
  rw [get?_eq_some_iff]
  simp only [erase, List.mem_filter, ne_eq, decide_eq_true_eq]
  split
  · rename_i hj
    simp [hj]
  · rename_i hj
    simp [hj, get?_eq_some_iff]

def update (d other : OrderedDict κ ν) : OrderedDict κ ν :=
  other.items.foldl (fun d p => d.set p.1 p.2) d

lemma set_eq_self_iff : d.set k v = d ↔ d.get? k = some v := by
  constructor
  · intro h
    rw [← h, get?_set, if_pos rfl]
  · intro h
    have hk : k ∈ d.keys := mem_keys_iff.mpr ⟨v, h⟩
    have hsame : ∀ p ∈ d.items, replaced k v p = p := by
      intro p hp
      rw [replaced]
      split
      · rename_i hpk
        exact (List.inj_on_of_nodup_map d.nodup hp (get?_eq_some_iff.mp h) hpk).symm
      · rfl
    ext1
    rw [set, dif_pos hk]
    exact (List.map_congr_left hsame).trans (List.map_id _)

section Counters

variable {d : OrderedDict κ ℕ}

def bump (d : OrderedDict κ ℕ) (k : κ) : OrderedDict κ ℕ := d.set k ((d.get? k).getD 0 + 1)

lemma getD_bump : ((d.bump k).get? j).getD 0 = (d.get? j).getD 0 + if j = k then 1 else 0 := by
  rw [bump, get?_set]
  split
  · rename_i hj
    rw [hj, Option.getD_some]
  · rw [Nat.add_zero]

lemma getD_foldl_bump (ks : List κ) :
    ((ks.foldl bump d).get? j).getD 0 = (d.get? j).getD 0 + ks.count j := by
  induction ks generalizing d with
  | nil => rfl
  | cons k ks ih =>
    rw [List.foldl_cons, ih, getD_bump, List.count_cons, Nat.add_assoc]
    congr 1
    by_cases hj : j = k
    · simp [hj, Nat.add_comm]
    · simp [hj, Ne.symm hj]

end Counters

end OrderedDict

end OpsSentry.Foundation.Dicts
