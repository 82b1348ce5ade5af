import Mathlib.Data.List.DropRight
import Mathlib.Tactic.Common

/-! Whitespace in a text, and the fields that `str.split` finds between it. -/

namespace OpsSentry.Foundation.Text

def isSpace (x : Char) : Bool :=
  (9 ≤ x.toNat && x.toNat ≤ 13) || (0x1c ≤ x.toNat && x.toNat ≤ 0x20) || x.toNat = 0x85 ||
    x.toNat = 0xa0 || x.toNat = 0x1680 || (0x2000 ≤ x.toNat && x.toNat ≤ 0x200a) ||
    x.toNat = 0x2028 || x.toNat = 0x2029 || x.toNat = 0x202f || x.toNat = 0x205f || x.toNat = 0x3000

def flush (field : List Char) (rest : List String) : List String :=
  if field = [] then rest else String.ofList field :: rest

def splitFrom (field : List Char) : List Char → List String
  | [] => flush field []
  | c :: cs => if isSpace c then flush field (splitFrom [] cs) else splitFrom (field ++ [c]) cs

def split (s : String) : List String := splitFrom [] s.toList

def strip (s : String) : String :=
  String.ofList (((s.toList.dropWhile isSpace).reverse.dropWhile isSpace).reverse)

lemma dropWhile_rdropWhile {α : Type} (p : α → Bool) (l : List α) :
    ((l.dropWhile p).rdropWhile p).dropWhile p = (l.dropWhile p).rdropWhile p := by
  cases h : (l.dropWhile p).rdropWhile p with
  | nil => rfl
  | cons c cs =>
    obtain ⟨ds, hds⟩ := List.rdropWhile_prefix p (l := l.dropWhile p)
    have hc : p c = false := by
      have := List.head?_dropWhile_not p l
      rw [← hds, h] at this
      simpa using this
    rw [List.dropWhile_cons_of_neg (by simp [hc])]

lemma strip_strip (s : String) : strip (strip s) = strip s := by
  have hstrip : ∀ s, strip s = String.ofList ((s.toList.dropWhile isSpace).rdropWhile isSpace) := fun _ => rfl
  rw [hstrip s, hstrip, String.toList_ofList, dropWhile_rdropWhile, List.rdropWhile_idempotent]
lemma strip_of_not_isSpace {s : String} (h : ∀ c ∈ s.toList, isSpace c = false) : strip s = s := by
  have hdrop : ∀ l : List Char, (∀ c ∈ l, isSpace c = false) → l.dropWhile isSpace = l := by
    intro l hl
    cases l with
    | nil => rfl
    | cons c cs => exact List.dropWhile_cons_of_neg (by simp [hl])
  rw [strip, hdrop _ h, hdrop, List.reverse_reverse, String.ofList_toList]
  intro c hc
  exact h c (List.mem_reverse.mp hc)

example : split " 0 */4\t* * *\n" = ["0", "*/4", "*", "*", "*"] := by decide

end OpsSentry.Foundation.Text
