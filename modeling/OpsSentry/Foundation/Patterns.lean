import Mathlib.Data.List.Infix
import Mathlib.Tactic.Common

/-! Regular expressions that are sequences of single characters and runs of them, and the search for
the first place where one matches. -/

namespace OpsSentry.Foundation.Patterns

inductive Atom
  | char (p : Char → Bool)
  | many (p : Char → Bool)

def Atom.accepts : Atom → Char → Bool
  | .char p | .many p => p

def matchHere : List Atom → List Char → Bool
  | [], _ => true
  | .char p :: as, c :: cs => p c && matchHere as cs
  | .many p :: as, c :: cs => p c && (matchHere as cs || matchHere (.many p :: as) cs)
  | _ :: _, [] => false

def search (as : List Atom) : List Char → Bool
  | [] => matchHere as []
  | c :: cs => matchHere as (c :: cs) || search as cs

/-- The texts that a pattern stands for. -/
def Matches : List Atom → List Char → Prop
  | [], w => w = []
  | .char p :: as, w => ∃ c v, w = c :: v ∧ p c = true ∧ Matches as v
  | .many p :: as, w => ∃ u v, w = u ++ v ∧ u ≠ [] ∧ (∀ c ∈ u, p c = true) ∧ Matches as v

section Search

variable {as bs : List Atom} {cs w : List Char} {p : Char → Bool} {c : Char}

lemma matches_many_cons (h : p c = true) (hw : Matches (.many p :: as) w) :
    Matches (.many p :: as) (c :: w) := by
  obtain ⟨u, v, rfl, -, hu, hv⟩ := hw
  refine ⟨c :: u, v, rfl, List.cons_ne_nil _ _, ?_, hv⟩
  simpa [h] using hu

lemma matches_many_single (h : p c = true) (hw : Matches as w) : Matches (.many p :: as) (c :: w) :=
  ⟨[c], w, rfl, List.cons_ne_nil _ _, by simpa using h, hw⟩

lemma exists_of_matchHere (h : matchHere as cs = true) : ∃ w, w <+: cs ∧ Matches as w := by
  induction as, cs using matchHere.induct with
  | case1 cs => exact ⟨[], List.nil_prefix, rfl⟩
  | case2 p as c cs ih =>
    simp only [matchHere, Bool.and_eq_true] at h
    obtain ⟨w, hw, hm⟩ := ih h.2
    exact ⟨c :: w, (List.prefix_cons_inj c).mpr hw, c, w, rfl, h.1, hm⟩
  | case3 p as c cs ih₁ ih₂ =>
    simp only [matchHere, Bool.and_eq_true, Bool.or_eq_true] at h
    obtain ⟨hc, h | h⟩ := h
    · obtain ⟨w, hw, hm⟩ := ih₁ h
      exact ⟨c :: w, (List.prefix_cons_inj c).mpr hw, matches_many_single hc hm⟩
    · obtain ⟨w, hw, hm⟩ := ih₂ h
      exact ⟨c :: w, (List.prefix_cons_inj c).mpr hw, matches_many_cons hc hm⟩
  | case4 a as => simp [matchHere] at h

lemma matchHere_run {u : List Char} (hne : u ≠ []) (hu : ∀ c ∈ u, p c = true) (h : matchHere as cs = true) :
    matchHere (.many p :: as) (u ++ cs) = true := by
  induction u with
  | nil => exact absurd rfl hne
  | cons c u ih =>
    rw [List.forall_mem_cons] at hu
    cases u with
    | nil => simp [matchHere, hu.1, h]
    | cons d u =>
      have hrest := ih (List.cons_ne_nil _ _) hu.2
      rw [List.cons_append, matchHere, hu.1, hrest, Bool.or_true, Bool.and_true]

lemma matchHere_append (h : Matches as w) (cs : List Char) : matchHere as (w ++ cs) = true := by
  induction as generalizing w with
  | nil => simp [matchHere]
  | cons a as ih =>
    cases a with
    | char p =>
      obtain ⟨c, v, rfl, hc, hv⟩ := h
      simp [matchHere, hc, ih hv]
    | many p =>
      obtain ⟨u, v, rfl, hne, hu, hv⟩ := h
      rw [List.append_assoc]
      exact matchHere_run hne hu (ih hv)

/-- The search finds a pattern exactly where some part of the text is one it stands for. -/
lemma search_iff : search as cs = true ↔ ∃ w, w <:+: cs ∧ Matches as w := by
  induction cs with
  | nil =>
    rw [search]
    constructor
    · intro h
      obtain ⟨w, hw, hm⟩ := exists_of_matchHere h
      exact ⟨w, hw.isInfix, hm⟩
    · rintro ⟨w, hw, hm⟩
      obtain rfl := List.eq_nil_of_infix_nil hw
      exact matchHere_append hm []
  | cons c cs ih =>
    rw [search, Bool.or_eq_true, ih]
    constructor
    · rintro (h | ⟨w, hw, hm⟩)
      · obtain ⟨w, hw, hm⟩ := exists_of_matchHere h
        exact ⟨w, hw.isInfix, hm⟩
      · exact ⟨w, List.infix_cons hw, hm⟩
    · rintro ⟨w, hw, hm⟩
      rcases List.infix_cons_iff.mp hw with hpre | hin
      · obtain ⟨rest, hrest⟩ := hpre
        rw [← hrest]
        exact Or.inl (matchHere_append hm rest)
      · exact Or.inr ⟨w, hin, hm⟩

lemma matches_append_iff : Matches (as ++ bs) w ↔ ∃ u v, w = u ++ v ∧ Matches as u ∧ Matches bs v := by
  induction as generalizing w with
  | nil =>
    constructor
    · exact fun h => ⟨[], w, rfl, rfl, h⟩
    · rintro ⟨u, v, rfl, rfl, h⟩
      exact h
  | cons a as ih =>
    cases a with
    | char p =>
      simp only [List.cons_append, Matches, ih]
      constructor
      · rintro ⟨c, v, rfl, hc, u, v, rfl, hu, hv⟩
        exact ⟨c :: u, v, rfl, ⟨c, u, rfl, hc, hu⟩, hv⟩
      · rintro ⟨_, v, rfl, ⟨c, u, rfl, hc, hu⟩, hv⟩
        exact ⟨c, u ++ v, rfl, hc, u, v, rfl, hu, hv⟩
    | many p =>
      simp only [List.cons_append, Matches, ih]
      constructor
      · rintro ⟨x, v, rfl, hne, hx, u, v, rfl, hu, hv⟩
        exact ⟨x ++ u, v, by rw [List.append_assoc], ⟨x, u, rfl, hne, hx, hu⟩, hv⟩
      · rintro ⟨_, v, rfl, ⟨x, u, rfl, hne, hx, hu⟩, hv⟩
        exact ⟨x, u ++ v, by rw [List.append_assoc], hne, hx, u, v, rfl, hu, hv⟩

end Search

section Letters

variable {as bs : List Atom} {a : Atom} {w xs ys : List Char} {c : Char}

lemma Matches.accepted (h : Matches as w) (hc : c ∈ w) : ∃ a ∈ as, a.accepts c = true := by
  induction as generalizing w with
  | nil =>
    rw [h] at hc
    cases hc
  | cons a as ih =>
    cases a with
    | char p =>
      obtain ⟨d, v, rfl, hd, hv⟩ := h
      rcases List.mem_cons.mp hc with rfl | hc
      · exact ⟨_, List.mem_cons_self, hd⟩
      · obtain ⟨a, ha, hac⟩ := ih hv hc
        exact ⟨a, List.mem_cons_of_mem _ ha, hac⟩
    | many p =>
      obtain ⟨u, v, rfl, -, hu, hv⟩ := h
      rcases List.mem_append.mp hc with hc | hc
      · exact ⟨_, List.mem_cons_self, hu c hc⟩
      · obtain ⟨a, ha, hac⟩ := ih hv hc
        exact ⟨a, List.mem_cons_of_mem _ ha, hac⟩

lemma Matches.first (h : Matches (a :: as) w) : ∃ c v, w = c :: v ∧ a.accepts c = true := by
  cases a with
  | char p =>
    obtain ⟨c, v, rfl, hc, -⟩ := h
    exact ⟨c, v, rfl, hc⟩
  | many p =>
    obtain ⟨u, v, rfl, hne, hu, -⟩ := h
    cases u with
    | nil => exact absurd rfl hne
    | cons c u => exact ⟨c, u ++ v, rfl, hu c List.mem_cons_self⟩

lemma Matches.last (h : Matches (as ++ [a]) w) : ∃ v c, w = v ++ [c] ∧ a.accepts c = true := by
  induction as generalizing w with
  | nil =>
    cases a with
    | char p =>
      obtain ⟨c, v, rfl, hc, rfl⟩ := h
      exact ⟨[], c, rfl, hc⟩
    | many p =>
      obtain ⟨u, v, rfl, hne, hu, rfl⟩ := h
      refine ⟨u.dropLast, u.getLast hne, ?_, hu _ (List.getLast_mem hne)⟩
      rw [List.append_nil, List.dropLast_append_getLast]
  | cons b as ih =>
    cases b with
    | char p =>
      obtain ⟨d, v, rfl, -, hv⟩ := h
      obtain ⟨v, c, rfl, hc⟩ := ih hv
      exact ⟨d :: v, c, rfl, hc⟩
    | many p =>
      obtain ⟨u, v, rfl, -, -, hv⟩ := h
      obtain ⟨v, c, rfl, hc⟩ := ih hv
      exact ⟨u ++ v, c, by rw [List.append_assoc], hc⟩

lemma infix_append_left (h : w <:+: xs) (ys : List Char) :
    w <:+: xs ++ ys := h.trans (List.prefix_append _ _).isInfix

lemma infix_append_right (h : w <:+: ys) (xs : List Char) :
    w <:+: xs ++ ys := h.trans (List.suffix_append _ _).isInfix

/-- A word without `c` lies on one side of it. -/
lemma infix_append_cons (hc : c ∉ w) : w <:+: xs ++ c :: ys ↔ w <:+: xs ∨ w <:+: ys := by
  constructor
  · rintro ⟨pre, post, h⟩
    rw [List.append_assoc] at h
    rcases List.append_eq_append_iff.mp h with ⟨as, rfl, has⟩ | ⟨as, rfl, has⟩
    · rcases List.append_eq_append_iff.mp has with ⟨bs, rfl, -⟩ | ⟨bs, rfl, hbs⟩
      · exact Or.inl ⟨pre, bs, by rw [List.append_assoc]⟩
      · cases bs with
        | nil => exact Or.inl ⟨pre, [], by simp⟩
        | cons d bs =>
          obtain ⟨rfl, -⟩ := List.cons.inj hbs
          exact absurd (List.mem_append_right _ List.mem_cons_self) hc
    · cases as with
      | nil =>
        cases w with
        | nil => exact Or.inl List.nil_infix
        | cons d w =>
          obtain ⟨rfl, -⟩ := List.cons.inj has
          exact absurd List.mem_cons_self hc
      | cons d as =>
        obtain ⟨rfl, rfl⟩ := List.cons.inj has
        exact Or.inr ⟨as, post, by simp⟩
  · rintro (h | h)
    · exact infix_append_left h _
    · exact infix_append_right (List.infix_cons h) _

/-- A word that does not end with one of the letters lies before a run of them. -/
lemma infix_append_run (hlast : ∀ v c, w = v ++ [c] → c ∉ ys) (hne : w ≠ []) :
    w <:+: xs ++ ys ↔ w <:+: xs := by
  refine ⟨fun h => ?_, fun h => infix_append_left h ys⟩
  induction ys using List.reverseRecOn with
  | nil => rwa [List.append_nil] at h
  | append_singleton ys d ih =>
    refine ih (fun v c hv hc => hlast v c hv (List.mem_append_left _ hc)) ?_
    obtain ⟨pre, post, h⟩ := h
    rw [← List.append_assoc xs] at h
    cases post using List.reverseRecOn with
    | nil =>
      rw [List.append_nil] at h
      obtain ⟨v, c, rfl⟩ := (List.eq_nil_or_concat w).resolve_left hne
      rw [List.concat_eq_append, ← List.append_assoc] at h
      obtain ⟨-, hcd⟩ := List.append_inj' h rfl
      cases hcd
      exact absurd (List.mem_append_right _ List.mem_cons_self) (hlast v _ (List.concat_eq_append ..))
    | append_singleton post e =>
      rw [← List.append_assoc] at h
      exact ⟨pre, post, (List.append_inj' h rfl).1⟩

lemma infix_run_append (hfirst : ∀ c v, w = c :: v → c ∉ xs) (hne : w ≠ []) :
    w <:+: xs ++ ys ↔ w <:+: ys := by
  refine ⟨fun h => ?_, fun h => infix_append_right h xs⟩
  induction xs with
  | nil => exact h
  | cons d xs ih =>
    refine ih (fun c v hv hc => hfirst c v hv (List.mem_cons_of_mem _ hc)) ?_
    refine (List.infix_cons_iff.mp h).resolve_left fun hpre => ?_
    cases w with
    | nil => exact hne rfl
    | cons c v =>
      obtain ⟨rest, hrest⟩ := hpre
      obtain ⟨rfl, -⟩ := List.cons.inj hrest
      exact hfirst _ v rfl List.mem_cons_self

end Letters

section Separated

variable {as : List Atom} {first last : Atom} {c : Char} {us xs ys vs : List Char}

/-- A pattern that neither begins nor ends inside a run of blanks and does not hold `c` is not found
any better for blanks around `c`. -/
lemma search_separated (hc : ∀ a ∈ first :: as, a.accepts c = false)
    (hlast : (first :: as).getLast? = some last)
    (hx : ∀ x ∈ xs, first.accepts x = false ∧ last.accepts x = false)
    (hy : ∀ y ∈ ys, first.accepts y = false ∧ last.accepts y = false) :
    search (first :: as) (us ++ (xs ++ c :: (ys ++ vs))) = (search (first :: as) us || search (first :: as) vs) := by
  have hends : ∀ w, Matches (first :: as) w → (∃ d v, w = d :: v ∧ first.accepts d = true) ∧
      ∃ v d, w = v ++ [d] ∧ last.accepts d = true := by
    intro w hw
    obtain ⟨init, hinit⟩ := List.getLast?_eq_some_iff.mp hlast
    exact ⟨hw.first, (hinit ▸ hw).last⟩
  have hpart : ∀ w, Matches (first :: as) w →
      (w <:+: us ++ (xs ++ c :: (ys ++ vs)) ↔ w <:+: us ∨ w <:+: vs) := by
    intro w hw
    obtain ⟨⟨d, v, hd, hfirst⟩, v', d', hd', hend⟩ := hends w hw
    have hne : w ≠ [] := by simp [hd]
    have hnot : c ∉ w := by
      intro hmem
      obtain ⟨a, ha, hac⟩ := hw.accepted hmem
      simp [hc a ha] at hac
    rw [← List.append_assoc, infix_append_cons hnot, infix_append_run _ hne, infix_run_append _ hne]
    · rintro e u he hmem
      obtain ⟨rfl, -⟩ := List.cons.inj (he.symm.trans hd)
      simp [(hy _ hmem).1] at hfirst
    · rintro u e he hmem
      obtain ⟨-, hed⟩ := List.append_inj' (he.symm.trans hd') rfl
      cases hed
      simp [(hx _ hmem).2] at hend
  rw [Bool.eq_iff_iff, Bool.or_eq_true, search_iff, search_iff, search_iff]
  constructor
  · rintro ⟨w, hin, hw⟩
    exact ((hpart w hw).mp hin).imp (fun h => ⟨w, h, hw⟩) fun h => ⟨w, h, hw⟩
  · rintro (⟨w, hin, hw⟩ | ⟨w, hin, hw⟩)
    · exact ⟨w, (hpart w hw).mpr (Or.inl hin), hw⟩
    · exact ⟨w, (hpart w hw).mpr (Or.inr hin), hw⟩

end Separated

end OpsSentry.Foundation.Patterns
