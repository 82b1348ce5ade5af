import Mathlib.Data.List.Nodup

/-! A list without duplicates that is replaced, added to and removed from: it is what was added and
not removed since, each in the place of its first addition. -/

namespace OpsSentry.Foundation.Additions

variable {α : Type} [DecidableEq α]

inductive Event (α : Type)
  | replaced (as : List α)
  | added (a : α)
  | removed (a : α)

namespace Event

def additions : Event α → List α
  | replaced as => as
  | added a => [a]
  | removed _ => []

/-- The event undoes the additions of `a` before it. -/
def Undoes (a : α) : Event α → Prop
  | replaced _ => True
  | added _ => False
  | removed b => b = a

instance (a : α) : DecidablePred (Undoes a)
  | replaced _ => isTrue trivial
  | added _ => isFalse id
  | removed b => inferInstanceAs (Decidable (b = a))

end Event

/-- The additions that nothing after them undoes. -/
def standing : List (Event α) → List α
  | [] => []
  | e :: es => e.additions.filter (fun a => ∀ e ∈ es, ¬ e.Undoes a) ++ standing es

def insertNew (as : List α) (a : α) : List α := if a ∈ as then as else as ++ [a]

/-- What the operations make of the list. -/
def apply (as : List α) : Event α → List α
  | .replaced bs => bs.foldl insertNew []
  | .added a => insertNew as a
  | .removed a => as.filter (· ≠ a)

section Dups

lemma eraseDups_filter (p : α → Bool) (as : List α) : (as.filter p).eraseDups = as.eraseDups.filter p := by
  induction hn : as.length using Nat.strongRecOn generalizing as with
  | ind n ih =>
    cases as with
    | nil => rfl
    | cons a as =>
      have hlen : (as.filter (fun b => !b == a)).length < n := by
        rw [← hn, List.length_cons, Nat.lt_succ_iff]
        exact List.length_filter_le _ _
      have hrest := ih _ hlen _ rfl
      by_cases ha : p a
      · rw [List.filter_cons_of_pos ha, List.eraseDups_cons, List.eraseDups_cons, List.filter_cons_of_pos ha,
          ← hrest, List.filter_filter, List.filter_filter]
        simp only [Bool.and_comm]
      · have hsame : as.filter p = (as.filter (fun b => !b == a)).filter p := by
          rw [List.filter_filter]
          refine List.filter_congr fun b _ => ?_
          by_cases hb : b = a
          · simp [hb, ha]
          · simp [hb]
        rw [List.filter_cons_of_neg ha, List.eraseDups_cons, List.filter_cons_of_neg ha, ← hrest, hsame]

lemma eraseDups_concat (as : List α) (a : α) : (as ++ [a]).eraseDups = insertNew as.eraseDups a := by
  rw [List.eraseDups_append, insertNew]
  by_cases h : a ∈ as
  · rw [if_pos (List.mem_eraseDups.2 h)]
    simp [List.removeAll, h]
  · rw [if_neg (fun hmem => h (List.mem_eraseDups.1 hmem))]
    simp [List.removeAll, h, List.eraseDups_cons]

lemma foldl_insertNew (as bs : List α) : bs.foldl insertNew as.eraseDups = (as ++ bs).eraseDups := by
  induction bs generalizing as with
  | nil => rw [List.foldl_nil, List.append_nil]
  | cons b bs ih => rw [List.foldl_cons, ← eraseDups_concat, ih, List.append_assoc, List.singleton_append]

end Dups

lemma standing_concat (es : List (Event α)) (e : Event α) :
    standing (es ++ [e]) = (standing es).filter (fun a => ¬ e.Undoes a) ++ e.additions := by
  induction es with
  | nil => simp [standing]
  | cons e' es ih =>
    rw [List.cons_append, standing, ih, standing, List.filter_append, List.filter_filter, List.append_assoc]
    congr 2
    funext a
    simp only [List.forall_mem_append, List.forall_mem_singleton, Bool.decide_and, Bool.and_comm]

lemma eraseDups_standing_concat (es : List (Event α)) (e : Event α) :
    (standing (es ++ [e])).eraseDups = apply (standing es).eraseDups e := by
  rw [standing_concat]
  cases e with
  | replaced as => simpa [Event.Undoes, Event.additions, apply] using (foldl_insertNew [] as).symm
  | added a => simpa [Event.Undoes, Event.additions, apply] using eraseDups_concat (standing es) a
  | removed a =>
    rw [Event.additions, List.append_nil, eraseDups_filter, apply]
    refine List.filter_congr fun b _ => ?_
    by_cases hab : a = b
    · simp [Event.Undoes, hab]
    · simp [Event.Undoes, hab, Ne.symm hab]

end OpsSentry.Foundation.Additions
