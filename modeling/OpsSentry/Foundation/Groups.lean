import OpsSentry.Foundation.Dicts

/-! The first and the last element of a list with each key, and the elements grouped by a label. -/

namespace OpsSentry.Foundation.Groups

open Dicts

variable {α κ τ : Type}

section Keys

variable (key : α → κ)

def IsFirst (xs : List α) (x : α) : Prop := ∃ pre post, xs = pre ++ x :: post ∧ ∀ y ∈ pre, key y ≠ key x

def IsLast (xs : List α) (x : α) : Prop := ∃ pre post, xs = pre ++ x :: post ∧ ∀ y ∈ post, key y ≠ key x

/-- The first elements with keys that have not been seen. -/
def firstsFrom [DecidableEq κ] (seen : List κ) : List α → List α
  | [] => []
  | x :: xs => if key x ∈ seen then firstsFrom seen xs else x :: firstsFrom (key x :: seen) xs

variable {key} {xs : List α} {x y : α}

lemma IsFirst.mem (h : IsFirst key xs x) : x ∈ xs := by
  obtain ⟨pre, post, rfl, -⟩ := h
  exact List.mem_append_right pre List.mem_cons_self

lemma IsLast.mem (h : IsLast key xs x) : x ∈ xs := by
  obtain ⟨pre, post, rfl, -⟩ := h
  exact List.mem_append_right pre List.mem_cons_self

lemma isFirst_cons_iff : IsFirst key (y :: xs) x ↔ x = y ∨ key y ≠ key x ∧ IsFirst key xs x := by
  constructor
  · rintro ⟨pre, post, heq, hpre⟩
    cases pre with
    | nil => exact Or.inl (List.cons.inj heq).1.symm
    | cons z pre =>
      obtain ⟨rfl, rfl⟩ := List.cons.inj heq
      rw [List.forall_mem_cons] at hpre
      exact Or.inr ⟨hpre.1, pre, post, rfl, hpre.2⟩
  · rintro (rfl | ⟨hne, pre, post, rfl, hpre⟩)
    · exact ⟨[], xs, rfl, by simp⟩
    · exact ⟨y :: pre, post, rfl, List.forall_mem_cons.mpr ⟨hne, hpre⟩⟩

lemma isFirst_reverse_iff : IsFirst key xs.reverse x ↔ IsLast key xs x := by
  have hreverse : ∀ {ys : List α}, IsLast key ys x → IsFirst key ys.reverse x := by
    rintro ys ⟨pre, post, rfl, hpost⟩
    refine ⟨post.reverse, pre.reverse, by simp, fun y hy => hpost y (List.mem_reverse.mp hy)⟩
  refine ⟨?_, hreverse⟩
  rintro ⟨pre, post, heq, hpre⟩
  refine ⟨post.reverse, pre.reverse, ?_, fun y hy => hpre y (List.mem_reverse.mp hy)⟩
  rw [← List.reverse_reverse xs, heq]
  simp

lemma isFirst_congr {ι : Type} {key' : α → ι} (h : ∀ x ∈ xs, ∀ y ∈ xs, key x = key y ↔ key' x = key' y) :
    IsFirst key xs x ↔ IsFirst key' xs x := by
  refine exists_congr fun pre => exists_congr fun post => and_congr_right fun heq => forall₂_congr fun y hy => ?_
  subst heq
  exact not_congr (h y (List.mem_append_left _ hy) x (List.mem_append_right pre List.mem_cons_self))

lemma exists_isFirst [DecidableEq κ] (key : α → κ) (h : x ∈ xs) :
    ∃ y, IsFirst key xs y ∧ key y = key x := by
  induction xs with
  | nil => cases h
  | cons z xs ih =>
    by_cases hz : key z = key x
    · exact ⟨z, isFirst_cons_iff.mpr (Or.inl rfl), hz⟩
    · rcases List.mem_cons.mp h with rfl | h
      · exact (hz rfl).elim
      · obtain ⟨y, hy, hkey⟩ := ih h
        exact ⟨y, isFirst_cons_iff.mpr (Or.inr ⟨fun he => hz (he.trans hkey), hy⟩), hkey⟩

lemma exists_isLast [DecidableEq κ] (key : α → κ) (h : x ∈ xs) : ∃ y, IsLast key xs y ∧ key y = key x := by
  obtain ⟨y, hy, hkey⟩ := exists_isFirst key (List.mem_reverse.mpr h)
  exact ⟨y, isFirst_reverse_iff.mp hy, hkey⟩

lemma IsFirst.unique (hx : IsFirst key xs x) (hy : IsFirst key xs y) (h : key x = key y) : x = y := by
  induction xs with
  | nil => cases hx.mem
  | cons z xs ih =>
    rcases isFirst_cons_iff.mp hx with rfl | ⟨hxz, hx⟩
    · rcases isFirst_cons_iff.mp hy with rfl | ⟨hyz, -⟩
      · rfl
      · exact (hyz h).elim
    · rcases isFirst_cons_iff.mp hy with rfl | ⟨-, hy⟩
      · exact (hxz h.symm).elim
      · exact ih hx hy

lemma mem_firstsFrom [DecidableEq κ] {seen : List κ} :
    x ∈ firstsFrom key seen xs ↔ IsFirst key xs x ∧ key x ∉ seen := by
  induction xs generalizing seen with
  | nil =>
    refine ⟨fun h => absurd h List.not_mem_nil, ?_⟩
    rintro ⟨h, -⟩
    cases h.mem
  | cons z xs ih =>
    rw [firstsFrom, isFirst_cons_iff]
    split
    · rename_i hseen
      rw [ih]
      constructor
      · rintro ⟨hx, hnot⟩
        exact ⟨Or.inr ⟨fun he => hnot (he ▸ hseen), hx⟩, hnot⟩
      · rintro ⟨rfl | ⟨-, hx⟩, hnot⟩
        · exact (hnot hseen).elim
        · exact ⟨hx, hnot⟩
    · rename_i hseen
      rw [List.mem_cons, ih, List.mem_cons, not_or]
      constructor
      · rintro (rfl | ⟨hx, hne, hnot⟩)
        · exact ⟨Or.inl rfl, hseen⟩
        · exact ⟨Or.inr ⟨Ne.symm hne, hx⟩, hnot⟩
      · rintro ⟨rfl | ⟨hne, hx⟩, hnot⟩
        · exact Or.inl rfl
        · exact Or.inr ⟨hx, Ne.symm hne, hnot⟩

lemma nodup_firstsFrom [DecidableEq κ] (seen : List κ) (xs : List α) :
    ((firstsFrom key seen xs).map key).Nodup := by
  induction xs generalizing seen with
  | nil => exact List.nodup_nil
  | cons z xs ih =>
    rw [firstsFrom]
    split
    · exact ih seen
    · rw [List.map_cons, List.nodup_cons]
      refine ⟨?_, ih (key z :: seen)⟩
      intro hmem
      obtain ⟨y, hy, hkey⟩ := List.mem_map.mp hmem
      exact (mem_firstsFrom.mp hy).2 (hkey ▸ List.mem_cons_self)

end Keys

section Labels

variable [DecidableEq τ] (label : α → τ)

/-- `d[label(x)].append(x)` in a `defaultdict(list)`. -/
def appendTo (d : OrderedDict τ (List α)) (x : α) : OrderedDict τ (List α) :=
  d.set (label x) ((d.get? (label x)).getD [] ++ [x])

def grouped (xs : List α) : OrderedDict τ (List α) := xs.foldl (appendTo label) OrderedDict.empty

variable {label}

lemma get?_foldl_appendTo {d : OrderedDict τ (List α)} (xs : List α) (t : τ) :
    ((xs.foldl (appendTo label) d).get? t) =
      if ∃ x ∈ xs, label x = t then some ((d.get? t).getD [] ++ xs.filter (label · = t)) else d.get? t := by
  induction xs generalizing d with
  | nil => simp
  | cons x xs ih =>
    rw [List.foldl_cons, ih, appendTo, OrderedDict.get?_set]
    by_cases hx : label x = t
    · subst hx
      by_cases hxs : ∃ y ∈ xs, label y = label x
      · simp [hxs]
      · have hnone : xs.filter (label · = label x) = [] := by simpa using hxs
        simp [hnone]
    · by_cases hxs : ∃ y ∈ xs, label y = t <;> simp [hx, hxs, Ne.symm hx]

lemma get?_grouped (xs : List α) (t : τ) :
    (grouped label xs).get? t = if ∃ x ∈ xs, label x = t then some (xs.filter (label · = t)) else none := by
  rw [grouped, get?_foldl_appendTo, OrderedDict.get?_empty, Option.getD_none, List.nil_append]

lemma mem_keys_grouped {xs : List α} {t : τ} : t ∈ (grouped label xs).keys ↔ ∃ x ∈ xs, label x = t := by
  rw [OrderedDict.mem_keys_iff, get?_grouped]
  split <;> simp_all

end Labels

end OpsSentry.Foundation.Groups
