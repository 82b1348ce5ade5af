import OpsSentry.Foundation.Json
import Mathlib.Data.List.Lex
import Mathlib.Data.List.Sort

/-! `json.dumps` with `sort_keys`: two values have one text exactly if they are the same, up to the
order of the keys of their objects. -/

namespace OpsSentry.Foundation.JsonText

variable {F : Type}

mutual

/-- `==` of Python, of values that JSON does not tell apart. -/
def Same : Json F → Json F → Prop
  | .null, .null => True
  | .bool a, .bool b => a = b
  | .int m, .int n => m = n
  | .float x, .float y => x = y
  | .str s, .str t => s = t
  | .arr xs, .arr ys => SameList xs ys
  | .obj kvs, .obj lws => kvs.length = lws.length ∧ SameFields kvs lws
  | _, _ => False

def SameList : List (Json F) → List (Json F) → Prop
  | [], [] => True
  | x :: xs, y :: ys => Same x y ∧ SameList xs ys
  | _, _ => False

/-- Every field of the first object has the same value in the second. -/
def SameFields : List (Str × Json F) → List (Str × Json F) → Prop
  | [], _ => True
  | (k, x) :: kvs, lws => (∃ y, lws.lookup k = some y ∧ Same x y) ∧ SameFields kvs lws

end

def sorted (kvs : List (Str × Json F)) : List (Str × Json F) := kvs.mergeSort fun p q => p.1 ≤ q.1

mutual

def sortKeys : Json F → Json F
  | .arr xs => .arr (sortList xs)
  | .obj kvs => .obj (sorted (sortFields kvs))
  | x => x

def sortList : List (Json F) → List (Json F)
  | [] => []
  | x :: xs => sortKeys x :: sortList xs

def sortFields : List (Str × Json F) → List (Str × Json F)
  | [] => []
  | (k, x) :: kvs => (k, sortKeys x) :: sortFields kvs

end

def dumpsSorted (fl : Floats F) (x : Json F) : Word := dumps fl (sortKeys x)

section Sorted

variable {kvs lws : List (Str × Json F)} {k : Str} {x : Json F}

lemma sorted_perm (kvs : List (Str × Json F)) : (sorted kvs).Perm kvs := List.mergeSort_perm _ _

lemma sorted_pairwise (kvs : List (Str × Json F)) : (sorted kvs).Pairwise fun p q => p.1 ≤ q.1 := by
  have hsorted := @List.pairwise_mergeSort _ (fun p q : Str × Json F => decide (p.1 ≤ q.1))
    (fun a b c hab hbc => by
      simp only [decide_eq_true_eq] at hab hbc ⊢
      exact hab.trans hbc)
    (fun a b => by simpa using le_total a.1 b.1) kvs
  simpa [sorted] using hsorted

lemma sorted_eq_iff (hk : (kvs.map Prod.fst).Nodup) : sorted kvs = sorted lws ↔ kvs.Perm lws := by
  constructor
  · intro h
    exact (sorted_perm kvs).symm.trans (h ▸ sorted_perm lws)
  · intro h
    refine List.Perm.eq_of_pairwise ?_ (sorted_pairwise kvs) (sorted_pairwise lws)
      ((sorted_perm kvs).trans (h.trans (sorted_perm lws).symm))
    intro p q hp hq hpq hqp
    have hq' : q ∈ kvs := h.mem_iff.mpr ((sorted_perm lws).mem_iff.mp hq)
    exact List.inj_on_of_nodup_map hk ((sorted_perm kvs).mem_iff.mp hp) hq' (le_antisymm hpq hqp)

lemma sortFields_eq (kvs : List (Str × Json F)) :
    sortFields kvs = kvs.map fun p => (p.1, sortKeys p.2) := by
  induction kvs with
  | nil => rfl
  | cons p kvs ih => rw [sortFields, ih, List.map_cons]

lemma lookup_eq_some_iff {κ α : Type} [BEq κ] [LawfulBEq κ] {kvs : List (κ × α)} {k : κ} {x : α}
    (hk : (kvs.map Prod.fst).Nodup) : kvs.lookup k = some x ↔ (k, x) ∈ kvs := by
  rw [List.lookup_eq_some_iff]
  constructor
  · rintro ⟨pre, post, rfl, -⟩
    exact List.mem_append_right pre List.mem_cons_self
  · intro h
    obtain ⟨pre, post, rfl⟩ := List.append_of_mem h
    refine ⟨pre, post, rfl, ?_⟩
    intro p hp
    rw [bne_iff_ne]
    rintro rfl
    rw [List.map_append, List.map_cons] at hk
    exact List.disjoint_of_nodup_append hk (List.mem_map_of_mem hp) List.mem_cons_self

/-- Equally many fields, each of which the second object has too. -/
lemma sorted_sortFields_eq_iff (hk : (kvs.map Prod.fst).Nodup) (hl : (lws.map Prod.fst).Nodup) :
    sorted (sortFields kvs) = sorted (sortFields lws) ↔
      kvs.length = lws.length ∧ ∀ p ∈ kvs, ∃ y, lws.lookup p.1 = some y ∧ sortKeys p.2 = sortKeys y := by
  have hkeys : ((sortFields kvs).map Prod.fst).Nodup := by
    rw [sortFields_eq, List.map_map]
    exact hk
  rw [sorted_eq_iff hkeys]
  constructor
  · intro h
    refine ⟨by simpa [sortFields_eq] using h.length_eq, fun p hp => ?_⟩
    have hmem : (p.1, sortKeys p.2) ∈ sortFields lws := by
      rw [← h.mem_iff, sortFields_eq]
      exact List.mem_map_of_mem (f := fun p => (p.1, sortKeys p.2)) hp
    rw [sortFields_eq] at hmem
    obtain ⟨⟨l, y⟩, hq, heq⟩ := List.mem_map.mp hmem
    obtain ⟨rfl, hy⟩ := Prod.mk.inj heq
    exact ⟨y, (lookup_eq_some_iff hl).mpr hq, hy.symm⟩
  · rintro ⟨hlength, h⟩
    refine List.Subperm.perm_of_length_le (List.subperm_of_subset hkeys.of_map ?_) (by simp [sortFields_eq, hlength])
    intro q hq
    rw [sortFields_eq] at hq ⊢
    obtain ⟨p, hp, rfl⟩ := List.mem_map.mp hq
    obtain ⟨y, hy, hsame⟩ := h p hp
    rw [hsame]
    exact List.mem_map_of_mem (f := fun p => (p.1, sortKeys p.2)) ((lookup_eq_some_iff hl).mp hy)

lemma sameFields_mem {lws : List (Str × Json F)} (h : SameFields kvs lws) (hx : (k, x) ∈ kvs) :
    ∃ y, lws.lookup k = some y ∧ Same x y := by
  induction kvs with
  | nil => cases hx
  | cons p kvs ih =>
    rcases List.mem_cons.mp hx with rfl | hx
    · exact h.1
    · exact ih h.2 hx

lemma wfFields_iff : WFFields kvs ↔ ∀ p ∈ kvs, ValidStr p.1 ∧ WF p.2 := by
  induction kvs with
  | nil => simp [WFFields]
  | cons p kvs ih => rw [WFFields, ih, List.forall_mem_cons]

end Sorted

mutual

lemma same_iff (x y : Json F) (hx : WF x) (hy : WF y) : Same x y ↔ sortKeys x = sortKeys y := by
  cases x with
  | arr xs =>
    cases y with
    | arr ys =>
      rw [Same, sortKeys, sortKeys, Json.arr.injEq]
      exact sameList_iff xs ys hx hy
    | _ => simp [Same, sortKeys]
  | obj kvs =>
    cases y with
    | obj lws =>
      rw [Same, sortKeys, sortKeys, Json.obj.injEq, sorted_sortFields_eq_iff hx.1 hy.1,
        sameFields_iff kvs lws hx.2 hy]
    | _ => simp [Same, sortKeys]
  | _ => cases y <;> simp [Same, sortKeys]

lemma sameList_iff (xs ys : List (Json F)) (hx : WFList xs) (hy : WFList ys) :
    SameList xs ys ↔ sortList xs = sortList ys := by
  cases xs with
  | nil => cases ys <;> simp [SameList, sortList]
  | cons x xs =>
    cases ys with
    | nil => simp [SameList, sortList]
    | cons y ys =>
      rw [SameList, sortList, sortList, List.cons.injEq, same_iff x y hx.1 hy.1, sameList_iff xs ys hx.2 hy.2]

lemma sameFields_iff (kvs lws : List (Str × Json F)) (hx : WFFields kvs) (hy : WF (.obj lws)) :
    SameFields kvs lws ↔ ∀ p ∈ kvs, ∃ y, lws.lookup p.1 = some y ∧ sortKeys p.2 = sortKeys y := by
  cases kvs with
  | nil => simp [SameFields]
  | cons p kvs =>
    obtain ⟨k, x⟩ := p
    rw [SameFields, List.forall_mem_cons, sameFields_iff kvs lws hx.2 hy]
    refine and_congr_left' (exists_congr fun y => and_congr_right fun hlook => ?_)
    exact same_iff x y hx.1.2 (wfFields_iff.mp hy.2 _ ((lookup_eq_some_iff hy.1).mp hlook)).2

end

lemma same_obj_iff_perm {kvs lws : List (Str × Json F)} (hx : WF (.obj kvs)) (hy : WF (.obj lws)) :
    Same (.obj kvs) (.obj lws) ↔ (sortFields kvs).Perm (sortFields lws) := by
  rw [same_iff _ _ hx hy, sortKeys, sortKeys, Json.obj.injEq, sorted_eq_iff]
  rw [sortFields_eq, List.map_map]
  exact hx.1

mutual

lemma wf_sortKeys (x : Json F) (hx : WF x) : WF (sortKeys x) := by
  cases x with
  | arr xs => exact wfList_sortList xs hx
  | obj kvs =>
    have hfields := wfFields_iff.mp (wfFields_sortFields kvs hx.2)
    refine ⟨?_, wfFields_iff.mpr fun p hp => hfields p ((sorted_perm _).mem_iff.mp hp)⟩
    rw [((sorted_perm _).map _).nodup_iff, sortFields_eq, List.map_map]
    exact hx.1
  | _ => exact hx

lemma wfList_sortList (xs : List (Json F)) (hx : WFList xs) : WFList (sortList xs) := by
  cases xs with
  | nil => trivial
  | cons x xs => exact ⟨wf_sortKeys x hx.1, wfList_sortList xs hx.2⟩

lemma wfFields_sortFields (kvs : List (Str × Json F)) (hx : WFFields kvs) : WFFields (sortFields kvs) := by
  cases kvs with
  | nil => trivial
  | cons p kvs => exact ⟨⟨hx.1.1, wf_sortKeys p.2 hx.1.2⟩, wfFields_sortFields kvs hx.2⟩

end

lemma keys_sortFields (kvs : List (Str × Json F)) : (sortFields kvs).map Prod.fst = kvs.map Prod.fst := by
  rw [sortFields_eq, List.map_map]
  rfl

mutual

lemma sortKeys_sortKeys (x : Json F) (hx : WF x) : sortKeys (sortKeys x) = sortKeys x := by
  cases x with
  | arr xs =>
    rw [sortKeys, sortKeys, sortList_sortList xs hx]
  | obj kvs =>
    have hperm : (sortFields (sorted (sortFields kvs))).Perm (sortFields kvs) := by
      have hmap := (sorted_perm (sortFields kvs)).map fun p => (p.1, sortKeys p.2)
      rw [← sortFields_eq, ← sortFields_eq, sortFields_sortFields kvs hx.2] at hmap
      exact hmap
    have hkeys : ((sortFields (sorted (sortFields kvs))).map Prod.fst).Nodup := by
      rw [(hperm.map Prod.fst).nodup_iff, keys_sortFields]
      exact hx.1
    rw [sortKeys, sortKeys, (sorted_eq_iff hkeys).mpr hperm]
  | _ => rfl

lemma sortList_sortList (xs : List (Json F)) (hx : WFList xs) : sortList (sortList xs) = sortList xs := by
  cases xs with
  | nil => rfl
  | cons x xs => rw [sortList, sortList, sortKeys_sortKeys x hx.1, sortList_sortList xs hx.2]

lemma sortFields_sortFields (kvs : List (Str × Json F)) (hx : WFFields kvs) :
    sortFields (sortFields kvs) = sortFields kvs := by
  cases kvs with
  | nil => rfl
  | cons p kvs => rw [sortFields, sortFields, sortKeys_sortKeys p.2 hx.1.2, sortFields_sortFields kvs hx.2]

end

lemma same_sortKeys {x : Json F} (hx : WF x) : Same x (sortKeys x) :=
  (same_iff x _ hx (wf_sortKeys x hx)).mpr (sortKeys_sortKeys x hx).symm

/-- The text determines the value up to the order of keys. -/
lemma dumpsSorted_eq_iff {fl : Floats F} {x y : Json F} (hx : WF x) (hy : WF y) :
    dumpsSorted fl x = dumpsSorted fl y ↔ Same x y := by
  rw [same_iff x y hx hy]
  constructor
  · intro h
    have hloads := congrArg (loads fl) h
    rw [dumpsSorted, dumpsSorted, loads_dumps (wf_sortKeys x hx), loads_dumps (wf_sortKeys y hy)] at hloads
    exact Option.some.inj hloads
  · intro h
    rw [dumpsSorted, dumpsSorted, h]

section Concatenation

variable (fl : Floats F) {xs ys : List (List (Str × Json F))} {kvs : List (Str × Json F)}

lemma stops_flatMap (xs : List (List (Str × Json F))) : Stops (xs.flatMap fun kvs => dumps fl (.obj kvs)) := by
  cases xs with
  | nil => rintro c ⟨⟩
  | cons kvs xs => exact stops_cons (by decide)

lemma flatMap_dumps_ne_nil : (kvs :: xs).flatMap (fun kvs => dumps fl (.obj kvs)) ≠ [] := by
  rw [List.flatMap_cons, dumps, List.cons_append]
  exact List.cons_ne_nil _ _

lemma parseValue_flatMap (hx : WF (.obj kvs)) (xs : List (List (Str × Json F))) (n : ℕ)
    (hn : (dumps fl (.obj kvs)).length ≤ n) :
    parseValue fl n ((kvs :: xs).flatMap fun kvs => dumps fl (.obj kvs)) =
      some (.obj kvs, xs.flatMap fun kvs => dumps fl (.obj kvs)) := by
  rw [dumps_eq] at hn
  have hparse : parseValue fl n (dumpsWith ascii fl (.obj kvs) ++ xs.flatMap fun kvs => dumps fl (.obj kvs)) =
      some (.obj kvs, _) := parseValue_dumps (.obj kvs) hx.with n hn _ (stops_flatMap fl xs)
  rwa [← dumps_eq] at hparse

/-- Objects whose texts stand one behind the other, with nothing between them, are read one by one. -/
lemma flatMap_dumps_injective (hx : ∀ kvs ∈ xs, WF (.obj kvs)) (hy : ∀ lws ∈ ys, WF (.obj lws))
    (h : xs.flatMap (fun kvs => dumps fl (.obj kvs)) = ys.flatMap fun lws => dumps fl (.obj lws)) : xs = ys := by
  induction xs generalizing ys with
  | nil =>
    cases ys with
    | nil => rfl
    | cons lws ys => exact (flatMap_dumps_ne_nil fl h.symm).elim
  | cons kvs xs ih =>
    cases ys with
    | nil => exact (flatMap_dumps_ne_nil fl h).elim
    | cons lws ys =>
      rw [List.forall_mem_cons] at hx hy
      have hread := parseValue_flatMap fl hx.1 xs ((dumps fl (.obj kvs)).length + (dumps fl (.obj lws)).length)
        (Nat.le_add_right _ _)
      rw [h, parseValue_flatMap fl hy.1 ys _ (Nat.le_add_left _ _)] at hread
      obtain ⟨hhead, htail⟩ := Prod.mk.inj (Option.some.inj hread)
      rw [Json.obj.inj hhead, ih hx.2 hy.2 htail.symm]

lemma forall₂_same_iff (hx : ∀ kvs ∈ xs, WF (.obj kvs)) (hy : ∀ lws ∈ ys, WF (.obj lws)) :
    List.Forall₂ (fun kvs lws => Same (.obj kvs) (.obj lws)) xs ys ↔
      (xs.map fun kvs => sorted (sortFields kvs)) = ys.map fun lws => sorted (sortFields lws) := by
  induction xs generalizing ys with
  | nil => cases ys <;> simp
  | cons kvs xs ih =>
    cases ys with
    | nil => simp
    | cons lws ys =>
      rw [List.forall_mem_cons] at hx hy
      rw [List.forall₂_cons, ih hx.2 hy.2, same_iff _ _ hx.1 hy.1, sortKeys, sortKeys, Json.obj.injEq, List.map_cons,
        List.map_cons, List.cons.injEq]

/-- The text of all determines each, up to the order of keys. -/
lemma flatMap_dumpsSorted_eq_iff (hx : ∀ kvs ∈ xs, WF (.obj kvs)) (hy : ∀ lws ∈ ys, WF (.obj lws)) :
    xs.flatMap (fun kvs => dumpsSorted fl (.obj kvs)) = ys.flatMap (fun lws => dumpsSorted fl (.obj lws)) ↔
      List.Forall₂ (fun kvs lws => Same (.obj kvs) (.obj lws)) xs ys := by
  have hsorted : ∀ zs : List (List (Str × Json F)), zs.flatMap (fun kvs => dumpsSorted fl (.obj kvs)) =
      (zs.map fun kvs => sorted (sortFields kvs)).flatMap fun kvs => dumps fl (.obj kvs) := by
    intro zs
    rw [List.flatMap_map]
    rfl
  have hwf : ∀ zs : List (List (Str × Json F)), (∀ kvs ∈ zs, WF (.obj kvs)) →
      ∀ kvs ∈ zs.map fun kvs => sorted (sortFields kvs), WF (.obj kvs) := by
    intro zs hz
    rw [List.forall_mem_map]
    exact fun kvs hkvs => wf_sortKeys (.obj kvs) (hz kvs hkvs)
  rw [forall₂_same_iff hx hy, hsorted, hsorted]
  constructor
  · exact flatMap_dumps_injective fl (hwf xs hx) (hwf ys hy)
  · intro h
    rw [h]

end Concatenation

end OpsSentry.Foundation.JsonText
