import Mathlib.Data.List.TakeWhile

/-! A list cut at the elements of a kind: what stands before the first of them, and one section for
each; and what lists joined by a separator hold. -/

namespace OpsSentry.Foundation.Sections

variable {α : Type} (cut : α → Bool)

/-- The elements before the first one that cuts. -/
def leading (as : List α) : List α := as.takeWhile (fun a => !cut a)

def sections : List α → List (α × List α)
  | [] => []
  | a :: as => if cut a then (a, leading cut as) :: sections as else sections as

variable {cut}

lemma leading_of_cut {a : α} (h : cut a) (as : List α) : leading cut (a :: as) = [] := by simp [leading, h]

lemma leading_of_not_cut {a : α} (h : cut a = false) (as : List α) :
    leading cut (a :: as) = a :: leading cut as := by
  simp [leading, h]

lemma sections_of_cut {a : α} (h : cut a) (as : List α) :
    sections cut (a :: as) = (a, leading cut as) :: sections cut as := if_pos h

lemma sections_of_not_cut {a : α} (h : cut a = false) (as : List α) :
    sections cut (a :: as) = sections cut as :=
  if_neg (by simp [h])

lemma leading_append_sections (as : List α) :
    leading cut as ++ (sections cut as).flatMap (fun s => s.1 :: s.2) = as := by
  induction as with
  | nil => rfl
  | cons a as ih =>
    cases h : cut a with
    | true => rw [leading_of_cut h, sections_of_cut h, List.nil_append, List.flatMap_cons, List.cons_append, ih]
    | false => rw [leading_of_not_cut h, sections_of_not_cut h, List.cons_append, ih]

lemma not_cut_of_mem_leading {a : α} {as : List α} (h : a ∈ leading cut as) : cut a = false := by
  simpa using List.mem_takeWhile_imp h

lemma sections_spec {as : List α} {s : α × List α} (h : s ∈ sections cut as) :
    cut s.1 ∧ ∀ a ∈ s.2, cut a = false := by
  induction as with
  | nil => cases h
  | cons a as ih =>
    cases ha : cut a with
    | true =>
      rw [sections_of_cut ha] at h
      rcases List.mem_cons.1 h with rfl | h
      · exact ⟨ha, fun _ => not_cut_of_mem_leading⟩
      · exact ih h
    | false => exact ih (sections_of_not_cut ha as ▸ h)

lemma forall_mem_intercalate {q : α → Prop} {sep : List α} (hsep : ∀ a ∈ sep, q a) (ls : List (List α)) :
    (∀ a ∈ sep.intercalate ls, q a) ↔ ∀ l ∈ ls, ∀ a ∈ l, q a := by
  induction ls with
  | nil => simp
  | cons l ls ih =>
    cases ls with
    | nil => simp
    | cons l' ls =>
      rw [List.intercalate_cons_cons, List.forall_mem_cons, ← ih, List.forall_mem_append, List.forall_mem_append]
      exact ⟨fun h => ⟨h.1.1, h.2⟩, fun h => ⟨⟨h.1, hsep⟩, h.2⟩⟩

section Joined

variable [DecidableEq α] {x : α} {ls : List (List α)}

lemma splitOn_joined (hls : ls ≠ []) : ([x].intercalate ls).splitOn x = ls.flatMap (List.splitOn x) := by
  induction ls with
  | nil => exact (hls rfl).elim
  | cons l ls ih =>
    cases ls with
    | nil => simp
    | cons l' ls =>
      rw [List.intercalate_cons_cons, List.append_assoc, List.singleton_append, List.splitOn_append_cons_self,
        ih (List.cons_ne_nil l' ls)]
      rfl

lemma one_le_length_splitOn (l : List α) : 1 ≤ (l.splitOn x).length :=
  List.length_pos_iff.mpr (List.splitOn_ne_nil x l)

lemma length_le_flatMap (ls : List (List α)) : ls.length ≤ (ls.flatMap (List.splitOn x)).length := by
  induction ls with
  | nil => exact le_rfl
  | cons l ls ih =>
    have hone := one_le_length_splitOn (x := x) l
    rw [List.flatMap_cons, List.length_append, List.length_cons]
    omega

lemma notMem_of_length_splitOn {l : List α} (h : (l.splitOn x).length = 1) : x ∉ l := by
  intro hx
  obtain ⟨pre, post, rfl⟩ := List.append_of_mem hx
  rw [List.splitOn_append_cons_self, List.length_append] at h
  have := one_le_length_splitOn (x := x) pre
  have := one_le_length_splitOn (x := x) post
  omega

/-- A text of joined pieces splits into as many only where no piece holds the separator. -/
lemma notMem_of_length_joined (hls : ls ≠ []) (h : (([x].intercalate ls).splitOn x).length = ls.length) :
    ∀ l ∈ ls, x ∉ l := by
  rw [splitOn_joined hls] at h
  clear hls
  induction ls with
  | nil => simp
  | cons l ls ih =>
    have hone := one_le_length_splitOn (x := x) l
    have hrest := length_le_flatMap (x := x) ls
    rw [List.flatMap_cons, List.length_append, List.length_cons] at h
    rw [List.forall_mem_cons]
    exact ⟨notMem_of_length_splitOn (by omega), ih (by omega)⟩

end Joined

end OpsSentry.Foundation.Sections
