import OpsSentry.Foundation.Lines
import OpsSentry.Foundation.Patterns
import OpsSentry.Foundation.Text

/-! Cutting a text at the first occurrence of a word, and the whitespace around a text. -/

namespace OpsSentry.Foundation.Splits

open Lines Markup Patterns Text

/-- What stands before the first occurrence of a word, and what stands behind it. -/
def cut (word text : Word) : Option (Word × Word) :=
  (before word text).map fun pre => (pre, text.drop (pre.length + word.length))

/-- `str.split` with a separator and a limit. -/
def splitMax (word : Word) : ℕ → Word → List Word
  | 0, text => [text]
  | n + 1, text =>
    match cut word text with
    | some (pre, rest) => pre :: splitMax word n rest
    | none => [text]

def stripText (text : Word) : Word := (strip (String.ofList text)).toList

section Cut

variable {word text pre rest xs ys : Word} {c : Char}

lemma eq_of_before (h : before word text = some pre) : ∃ rest, text = pre ++ (word ++ rest) := by
  induction text generalizing pre with
  | nil =>
    rw [before] at h
    split at h
    · cases h
      exact ⟨[], by simp [*]⟩
    · cases h
  | cons c text ih =>
    rw [before] at h
    split at h
    · rename_i hstarts
      cases h
      obtain ⟨rest, hrest⟩ := List.isPrefixOf_iff_prefix.mp hstarts
      exact ⟨rest, hrest.symm⟩
    · obtain ⟨pre', hpre, rfl⟩ := Option.map_eq_some_iff.mp h
      obtain ⟨rest, rfl⟩ := ih hpre
      exact ⟨rest, rfl⟩

lemma eq_of_cut (h : cut word text = some (pre, rest)) : text = pre ++ (word ++ rest) := by
  obtain ⟨pre', hpre, heq⟩ := Option.map_eq_some_iff.mp h
  obtain ⟨rfl, rfl⟩ := Prod.mk.inj heq
  obtain ⟨rest, rfl⟩ := eq_of_before hpre
  rw [← List.append_assoc, ← List.length_append, List.drop_left, List.append_assoc]

lemma cut_of_before (h : before word (pre ++ (word ++ rest)) = some pre) :
    cut word (pre ++ (word ++ rest)) = some (pre, rest) := by
  rw [cut, h, Option.map_some, ← List.append_assoc, ← List.length_append, List.drop_left]

lemma before_self (word rest : Word) : before word (word ++ rest) = some [] := by
  cases word with
  | nil => cases rest <;> simp [before]
  | cons c word => simp [before]

lemma cut_self (word rest : Word) : cut word (word ++ rest) = some ([], rest) := by
  rw [cut, before_self, Option.map_some, List.length_nil, Nat.zero_add, List.drop_left]

/-- Behind a character that the word does not have, the word is found where it stands unless it
occurs before. -/
lemma before_behind (hc : c ∉ word) (hnot : ¬ word <:+: xs) (rest : Word) :
    before word (xs ++ c :: (word ++ rest)) = some (xs ++ [c]) := by
  have hstarts : ∀ us vs, us <:+ xs → word.isPrefixOf (us ++ c :: vs) = false := by
    intro us vs hus
    rw [Bool.eq_false_iff]
    intro h
    have hinside := (prefix_append_cons hc us vs).mp (List.isPrefixOf_iff_prefix.mp h)
    exact hnot (hinside.isInfix.trans hus.isInfix)
  induction xs with
  | nil =>
    have hfirst : before word (c :: (word ++ rest)) = (before word (word ++ rest)).map (c :: ·) :=
      before_cons (by simpa using hstarts [] (word ++ rest) List.suffix_rfl)
    rw [List.nil_append, hfirst, before_self]
    rfl
  | cons x xs ih =>
    have hrest := ih (fun h => hnot (List.infix_cons h)) fun us vs hus => hstarts us vs (hus.trans (List.suffix_cons x xs))
    have hfirst : before word (x :: (xs ++ c :: (word ++ rest))) =
        (before word (xs ++ c :: (word ++ rest))).map (x :: ·) :=
      before_cons (hstarts (x :: xs) (word ++ rest) List.suffix_rfl)
    rw [List.cons_append, hfirst, hrest]
    rfl

/-- A word that occurs is found no later than there. -/
lemma length_before_le (h : before word (xs ++ (word ++ rest)) = some pre) : pre.length ≤ xs.length := by
  induction xs generalizing pre with
  | nil =>
    rw [List.nil_append, before_self] at h
    cases h
    exact Nat.le_refl _
  | cons x xs ih =>
    rw [List.cons_append, before] at h
    split at h
    · cases h
      exact Nat.zero_le _
    · obtain ⟨pre', hpre, rfl⟩ := Option.map_eq_some_iff.mp h
      exact Nat.succ_le_succ (ih hpre)

lemma before_behind_iff (hc : c ∉ word) (hne : word ≠ []) :
    before word (xs ++ c :: (word ++ rest)) = some (xs ++ [c]) ↔ ¬ word <:+: xs := by
  refine ⟨?_, fun h => before_behind hc h rest⟩
  rintro h ⟨us, vs, rfl⟩
  have hlen : (us ++ word ++ vs ++ [c]).length ≤ us.length := by
    have hword : before word (us ++ (word ++ (vs ++ c :: (word ++ rest)))) = some (us ++ word ++ vs ++ [c]) := by
      simpa using h
    exact length_before_le hword
  have hpos := List.length_pos_iff.mpr hne
  simp only [List.length_append] at hlen
  omega

lemma cut_behind_iff (hc : c ∉ word) (hne : word ≠ []) :
    cut word (xs ++ c :: (word ++ rest)) = some (xs ++ [c], rest) ↔ ¬ word <:+: xs := by
  rw [← @before_behind_iff word rest xs c hc hne]
  constructor
  · intro h
    obtain ⟨pre, hpre, heq⟩ := Option.map_eq_some_iff.mp h
    rw [hpre, (Prod.mk.inj heq).1]
  · intro h
    have hsplit : xs ++ c :: (word ++ rest) = xs ++ [c] ++ (word ++ rest) := by simp
    rw [hsplit] at h ⊢
    exact cut_of_before h

end Cut

-- nothing after the first occurrence is looked at
lemma eq_of_first {α : Type*} {xs ys zs zs' : List α} {a : α} (hxs : a ∉ xs) (hys : a ∉ ys)
    (h : xs ++ a :: zs = ys ++ a :: zs') : zs = zs' := by
  induction xs generalizing ys with
  | nil =>
    cases ys with
    | nil => exact (List.cons.inj h).2
    | cons y ys => exact absurd ((List.cons.inj h).1 ▸ List.mem_cons_self) hys
  | cons x xs ih =>
    cases ys with
    | nil => exact absurd ((List.cons.inj h).1 ▸ List.mem_cons_self) hxs
    | cons y ys =>
      rw [List.mem_cons, not_or] at hxs hys
      exact ih hxs.2 hys.2 (List.cons.inj h).2

section Apart

variable {word sep xs ys : Word}

/-- A word without a letter of the separator lies on one side of it. -/
lemma infix_apart (hne : word ≠ []) (hsep : ∀ c ∈ sep, c ∉ word) (hsome : sep ≠ []) :
    word <:+: xs ++ (sep ++ ys) ↔ word <:+: xs ∨ word <:+: ys := by
  cases sep with
  | nil => exact absurd rfl hsome
  | cons c sep =>
    rw [List.forall_mem_cons] at hsep
    have hrun : word <:+: sep ++ ys ↔ word <:+: ys := by
      refine infix_run_append (fun d v hword hd => hsep.2 d hd ?_) hne
      rw [hword]
      exact List.mem_cons_self
    rw [List.cons_append, infix_append_cons hsep.1, hrun]

lemma lead_intercalate (sep : Word) {parts : List Word} (hsome : parts ≠ []) :
    sep ++ sep.intercalate parts = parts.flatMap (sep ++ ·) := by
  induction parts with
  | nil => exact absurd rfl hsome
  | cons part parts ih =>
    cases parts with
    | nil => simp
    | cons part' parts =>
      rw [List.intercalate_cons_cons, List.flatMap_cons, ← ih (by simp)]
      simp only [List.append_assoc]

lemma infix_intercalate (hne : word ≠ []) (hsep : ∀ c ∈ sep, c ∉ word) (hsome : sep ≠ [])
    (parts : List Word) :
    word <:+: sep.intercalate parts ↔ ∃ part ∈ parts, word <:+: part := by
  induction parts with
  | nil => simp [hne]
  | cons part parts ih =>
    cases parts with
    | nil => simp
    | cons part' parts =>
      rw [List.intercalate_cons_cons, List.append_assoc, infix_apart hne hsep hsome, ih]
      simp

end Apart

section Whitespace

variable {xs ys : Word} {c : Char}

lemma stripText_eq (xs : Word) : stripText xs = (xs.dropWhile isSpace).rdropWhile isSpace := by
  rw [stripText, strip, String.toList_ofList, String.toList_ofList]
  rfl

lemma stripText_space (h : isSpace c = true) (xs : Word) : stripText (c :: xs) = stripText xs := by
  rw [stripText_eq, stripText_eq, List.dropWhile_cons_of_pos h]

lemma mem_newlines (h : c ∈ newlines xs) : c ∈ xs ∨ c = '\n' := by
  induction xs using apartInduction with
  | nil => exact absurd h (List.not_mem_nil)
  | pair cs ih =>
    rw [newlines_pair] at h
    rcases List.mem_cons.mp h with rfl | h
    · exact Or.inr rfl
    · exact (ih h).imp_left fun h => List.mem_cons_of_mem _ (List.mem_cons_of_mem _ h)
  | cons d cs hapart ih =>
    rw [newlines_cons hapart] at h
    rcases List.mem_cons.mp h with h | h
    · split at h
      · exact Or.inr h
      · exact Or.inl (h ▸ List.mem_cons_self)
    · exact (ih h).imp_left (List.mem_cons_of_mem _)

lemma isSpace_newlines (h : ∀ c ∈ xs, isSpace c = true) : ∀ c ∈ newlines xs, isSpace c = true := by
  intro c hc
  rcases mem_newlines hc with hc | rfl
  · exact h c hc
  · rfl

lemma dropWhile_append_space (hx : ∀ c ∈ xs, isSpace c = true) (ys : Word) :
    (xs ++ ys).dropWhile isSpace = ys.dropWhile isSpace := by
  induction xs with
  | nil => rfl
  | cons c xs ih =>
    rw [List.forall_mem_cons] at hx
    rw [List.cons_append, List.dropWhile_cons_of_pos hx.1, ih hx.2]

lemma stripText_mid {lead mid trail : Word} (hl : ∀ c ∈ lead, isSpace c = true)
    (ht : ∀ c ∈ trail, isSpace c = true)
    (hfirst : ∀ c ∈ mid.head?, isSpace c = false) (hlast : ∀ c ∈ mid.getLast?, isSpace c = false) :
    stripText (lead ++ (mid ++ trail)) = mid := by
  rw [stripText_eq, dropWhile_append_space hl]
  cases mid with
  | nil =>
    have hnil : trail.dropWhile isSpace = [] := List.dropWhile_eq_nil_iff.mpr ht
    rw [List.nil_append, hnil]
    rfl
  | cons c mid =>
    have hc : isSpace c = false := hfirst c rfl
    rw [List.cons_append, List.dropWhile_cons_of_neg (by simp [hc]), ← List.cons_append, List.rdropWhile,
      List.reverse_append, dropWhile_append_space (fun d hd => ht d (List.mem_reverse.mp hd)),
      ← List.rdropWhile, List.rdropWhile_eq_self_iff]
    intro hne
    have := hlast _ (List.getLast?_eq_some_getLast hne)
    simp [this]

lemma head_of_dropWhile_eq {p : Char → Bool} (h : xs.dropWhile p = xs) : ∀ c ∈ xs.head?, p c = false := by
  cases xs with
  | nil => simp
  | cons d xs =>
    intro c hc
    obtain rfl : d = c := Option.some.inj hc
    by_contra hp
    rw [List.dropWhile_cons_of_pos (by simpa using hp)] at h
    have hlen := (List.dropWhile_suffix p (l := xs)).length_le
    rw [h, List.length_cons] at hlen
    omega

lemma exists_mid (xs : Word) : ∃ lead trail, xs = lead ++ (stripText xs ++ trail) ∧
    (∀ c ∈ lead, isSpace c = true) ∧ (∀ c ∈ trail, isSpace c = true) ∧
    (∀ c ∈ (stripText xs).head?, isSpace c = false) ∧ ∀ c ∈ (stripText xs).getLast?, isSpace c = false := by
  have hstrip := stripText_eq xs
  have hagain : (stripText xs).dropWhile isSpace = stripText xs := by
    rw [hstrip]
    exact dropWhile_rdropWhile isSpace xs
  have hback : (stripText xs).rdropWhile isSpace = stripText xs := by
    rw [hstrip]
    exact List.rdropWhile_idempotent ..
  refine ⟨xs.takeWhile isSpace, (xs.dropWhile isSpace).rtakeWhile isSpace, ?_, ?_, ?_, ?_, ?_⟩
  · rw [hstrip, List.rdropWhile_append_rtakeWhile, List.takeWhile_append_dropWhile]
  · exact fun c hc => List.mem_takeWhile_imp hc
  · exact fun c hc => List.mem_rtakeWhile_imp hc
  · exact head_of_dropWhile_eq hagain
  · intro c hc
    rw [List.rdropWhile_eq_self_iff] at hback
    have hne : stripText xs ≠ [] := by
      intro h
      rw [h] at hc
      cases hc
    have hlast := hback hne
    rw [List.getLast?_eq_some_getLast hne] at hc
    rw [← Option.mem_some.mp hc]
    simpa using hlast

/-- Reading a text changes the text within its whitespace exactly where it holds a return. -/
lemma stripText_newlines_iff (xs : Word) :
    stripText (newlines xs) = stripText xs ↔ '\r' ∉ stripText xs := by
  obtain ⟨lead, trail, hxs, hlead, htrail, hfirst, hlast⟩ := exists_mid xs
  constructor
  · intro h hr
    obtain ⟨_, _, hread, -⟩ := exists_mid (newlines xs)
    rw [← h] at hr
    refine return_notMem_newlines xs ?_
    rw [hread]
    exact List.mem_append_right _ (List.mem_append_left _ hr)
  · intro hr
    generalize stripText xs = mid at *
    subst hxs
    cases mid with
    | nil =>
      have hall : ∀ c ∈ lead ++ trail, isSpace c = true := fun c hc => (List.mem_append.mp hc).elim (hlead c) (htrail c)
      have hnone : ∀ c ∈ ([] : Word), isSpace c = true := nofun
      simpa using stripText_mid (isSpace_newlines hall) hnone hfirst hlast
    | cons c mid =>
      have hc : c ≠ '\n' := by
        rintro rfl
        have := hfirst _ rfl
        revert this
        decide
      rw [List.cons_append, newlines_append_of_ne hc, ← List.cons_append, newlines_of_notMem hr]
      exact stripText_mid (isSpace_newlines hlead) (isSpace_newlines htrail) hfirst hlast

end Whitespace

end OpsSentry.Foundation.Splits
