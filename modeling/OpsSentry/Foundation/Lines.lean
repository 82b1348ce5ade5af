import OpsSentry.Foundation.Markup

/-! The lines of a text, as `str.splitlines` finds them and as a file opened for text is read. -/

namespace OpsSentry.Foundation.Lines

open Markup (Word replaceFrom replace)

def isBreak (c : Char) : Bool :=
  (0xa ≤ c.toNat && c.toNat ≤ 0xd) || (0x1c ≤ c.toNat && c.toNat ≤ 0x1e) || c.toNat = 0x85 ||
    c.toNat = 0x2028 || c.toNat = 0x2029

def splitlinesFrom (line : Word) : Word → List Word
  | [] => if line = [] then [] else [line]
  | '\r' :: '\n' :: cs => line :: splitlinesFrom [] cs
  | c :: cs => if isBreak c then line :: splitlinesFrom [] cs else splitlinesFrom (line ++ [c]) cs

def splitlines (s : Word) : List Word := splitlinesFrom [] s

/-- Universal newlines: what `read_text` makes of the text of a file. -/
def newlines : Word → Word
  | [] => []
  | '\r' :: '\n' :: cs => '\n' :: newlines cs
  | c :: cs => (if c = '\r' then '\n' else c) :: newlines cs

def readlinesFrom (line : Word) : Word → List Word
  | [] => if line = [] then [] else [line]
  | c :: cs => if c = '\n' then (line ++ ['\n']) :: readlinesFrom [] cs else readlinesFrom (line ++ [c]) cs

/-- The lines of a file opened for text, each with its newline. -/
def readlines (s : Word) : List Word := readlinesFrom [] s

example : splitlines "a\r\nb\x0b\rc\n".toList = ["a".toList, "b".toList, [], "c".toList] := by decide

variable {xs ys : Word}

/-- A pair of a return and a newline is not split, and everything else is read character by
character. -/
def Apart (c : Char) (cs : Word) : Prop := ∀ ds, c = '\r' → cs = '\n' :: ds → False

lemma splitlinesFrom_cons {c : Char} {cs : Word} (h : Apart c cs) (line : Word) :
    splitlinesFrom line (c :: cs) =
    if isBreak c then line :: splitlinesFrom [] cs else splitlinesFrom (line ++ [c]) cs :=
  splitlinesFrom.eq_3 line c cs h

lemma newlines_nil : newlines [] = [] := rfl

lemma newlines_pair (cs : Word) : newlines ('\r' :: '\n' :: cs) = '\n' :: newlines cs := rfl

lemma newlines_cons {c : Char} {cs : Word} (h : Apart c cs) :
    newlines (c :: cs) = (if c = '\r' then '\n' else c) :: newlines cs :=
  newlines.eq_3 c cs h

/-- Induction along a text as it is read. -/
lemma apartInduction {P : Word → Prop} (nil : P []) (pair : ∀ cs, P cs → P ('\r' :: '\n' :: cs))
    (cons : ∀ c cs, Apart c cs → P cs → P (c :: cs)) (xs : Word) : P xs :=
  newlines.induct P nil pair cons xs

lemma apart_append {c : Char} (h : Apart c xs) (hxs : xs ≠ [] ∨ c ≠ '\r') : Apart c (xs ++ '\n' :: ys) := by
  intro ds hc hds
  cases xs with
  | nil => exact (hxs.resolve_left (· rfl)) hc
  | cons d xs =>
    rw [List.cons_append, List.cons.injEq] at hds
    exact h xs hc (by rw [hds.1])

lemma splitlinesFrom_append (line xs ys : Word) :
    splitlinesFrom line (xs ++ '\n' :: ys) = splitlinesFrom line (xs ++ ['\n']) ++ splitlines ys := by
  induction line, xs using splitlinesFrom.induct with
  | case1 => simp [splitlinesFrom, splitlines, isBreak]
  | case2 => simp [splitlinesFrom, splitlines, isBreak]
  | case3 line cs ih => simpa [splitlinesFrom] using ih
  | case4 line c cs h hc ih =>
    by_cases hcs : cs ≠ [] ∨ c ≠ '\r'
    · rw [List.cons_append, List.cons_append, splitlinesFrom_cons (apart_append h hcs),
        splitlinesFrom_cons (apart_append h hcs), if_pos hc, if_pos hc, ih, List.cons_append]
    · obtain ⟨rfl, rfl⟩ : cs = [] ∧ c = '\r' := by simpa using hcs
      simp [splitlinesFrom, splitlines]
  | case5 line c cs h hc ih =>
    have hcs : cs ≠ [] ∨ c ≠ '\r' := by
      refine Or.inr ?_
      rintro rfl
      exact hc (by decide)
    rw [List.cons_append, List.cons_append, splitlinesFrom_cons (apart_append h hcs),
      splitlinesFrom_cons (apart_append h hcs), if_neg hc, if_neg hc, ih]

lemma splitlines_append (xs ys : Word) :
    splitlines (xs ++ '\n' :: ys) = splitlines (xs ++ ['\n']) ++ splitlines ys := splitlinesFrom_append [] xs ys

lemma newlines_append (xs ys : Word) : ∃ zs, newlines (xs ++ '\n' :: ys) = zs ++ '\n' :: newlines ys := by
  induction xs using apartInduction with
  | nil => exact ⟨[], rfl⟩
  | pair cs ih =>
    obtain ⟨zs, hzs⟩ := ih
    exact ⟨'\n' :: zs, by simp [newlines_pair, hzs]⟩
  | cons c cs h ih =>
    by_cases hcs : cs ≠ [] ∨ c ≠ '\r'
    · obtain ⟨zs, hzs⟩ := ih
      exact ⟨(if c = '\r' then '\n' else c) :: zs, by
        rw [List.cons_append, newlines_cons (apart_append h hcs), hzs, List.cons_append]⟩
    · obtain ⟨rfl, rfl⟩ : cs = [] ∧ c = '\r' := by simpa using hcs
      exact ⟨[], rfl⟩

/-- What is read of a text goes on from what is read of its beginning. -/
lemma prefix_newlines (xs ys : Word) : newlines xs <+: newlines (xs ++ ys) := by
  induction xs using apartInduction with
  | nil => exact List.nil_prefix
  | pair cs ih => simpa [newlines_pair] using ih
  | cons c cs h ih =>
    by_cases hcs : cs ≠ [] ∨ c ≠ '\r'
    · have happart : Apart c (cs ++ ys) := by
        intro ds hc hds
        cases cs with
        | nil => exact hcs.resolve_left (· rfl) hc
        | cons d cs =>
          rw [List.cons_append, List.cons.injEq] at hds
          exact h cs hc (by rw [hds.1])
      rw [List.cons_append, newlines_cons h, newlines_cons happart]
      exact (List.prefix_cons_inj _).mpr ih
    · obtain ⟨rfl, rfl⟩ : cs = [] ∧ c = '\r' := by simpa using hcs
      cases ys with
      | nil => exact List.prefix_rfl
      | cons d ys =>
        by_cases hd : d = '\n'
        · subst hd
          rw [List.cons_append, List.nil_append, newlines_pair]
          exact (List.prefix_cons_inj _).mpr List.nil_prefix
        · rw [List.cons_append, List.nil_append, newlines_cons fun ds _ hds => hd (List.cons.inj hds).1]
          exact (List.prefix_cons_inj _).mpr List.nil_prefix

lemma newlines_cons_of_ne {c : Char} (hreturn : c ≠ '\r') (cs : Word) :
    newlines (c :: cs) = c :: newlines cs := by
  rw [newlines_cons fun ds hc => absurd hc hreturn, if_neg hreturn]

lemma newlines_append_of_ne {c : Char} (hnewline : c ≠ '\n') (xs ys : Word) :
    newlines (xs ++ c :: ys) = newlines xs ++ newlines (c :: ys) := by
  induction xs using apartInduction with
  | nil => rfl
  | pair cs ih => simpa [newlines_pair] using ih
  | cons d cs h ih =>
    have happart : Apart d (cs ++ c :: ys) := by
      intro ds hd hds
      cases cs with
      | nil => exact hnewline (List.cons.inj hds).1
      | cons b cs =>
        rw [List.cons_append, List.cons.injEq] at hds
        exact h cs hd (by rw [hds.1])
    rw [List.cons_append, newlines_cons happart, newlines_cons h, ih, List.cons_append]

lemma return_notMem_newlines (xs : Word) : '\r' ∉ newlines xs := by
  induction xs using apartInduction with
  | nil => exact List.not_mem_nil
  | pair cs ih => simpa [newlines_pair] using ih
  | cons c cs h ih =>
    rw [newlines_cons h, List.mem_cons, not_or]
    refine ⟨?_, ih⟩
    split
    · decide
    · rename_i hc
      exact Ne.symm hc

lemma newlines_of_notMem (h : '\r' ∉ xs) (ys : Word) : newlines (xs ++ ys) = xs ++ newlines ys := by
  induction xs with
  | nil => rfl
  | cons c xs ih =>
    rw [List.mem_cons, not_or] at h
    rw [List.cons_append, newlines_cons fun ds hc => absurd hc.symm h.1, if_neg (Ne.symm h.1), ih h.2, List.cons_append]

lemma newlines_self (h : '\r' ∉ xs) : newlines xs = xs := by
  have h' := newlines_of_notMem h []
  rwa [List.append_nil, newlines_nil, List.append_nil] at h'

lemma count_newlines {c : Char} (hnewline : c ≠ '\n') (hreturn : c ≠ '\r') (xs : Word) :
    (newlines xs).count c = xs.count c := by
  induction xs using apartInduction with
  | nil => rfl
  | pair cs ih => simp [newlines_pair, ih, hnewline.symm, hreturn.symm]
  | cons x cs h ih =>
    rw [newlines_cons h, List.count_cons, List.count_cons, ih]
    by_cases hx : x = '\r'
    · simp [hx, hnewline.symm, hreturn.symm]
    · simp [hx]

lemma count_return_newlines (xs : Word) : (newlines xs).count '\r' = 0 :=
  List.count_eq_zero.mpr (return_notMem_newlines xs)

lemma readlinesFrom_append (h : '\n' ∉ xs) (line ys : Word) :
    readlinesFrom line (xs ++ '\n' :: ys) = (line ++ xs ++ ['\n']) :: readlines ys := by
  induction xs generalizing line with
  | nil => rw [List.nil_append, readlinesFrom, if_pos rfl, List.append_nil, readlines]
  | cons c xs ih =>
    rw [List.mem_cons, not_or] at h
    rw [List.cons_append, readlinesFrom, if_neg (Ne.symm h.1), ih h.2, List.append_assoc line, List.singleton_append]

/-- Lines that were written one after the other are read back one by one. -/
lemma readlines_flatMap {ls : List Word} (h : ∀ l ∈ ls, '\n' ∉ l ∧ '\r' ∉ l) :
    readlines (newlines (ls.flatMap (· ++ ['\n']))) = ls.map (· ++ ['\n']) := by
  induction ls with
  | nil => rfl
  | cons l ls ih =>
    rw [List.forall_mem_cons] at h
    rw [List.flatMap_cons, List.append_assoc, List.singleton_append, newlines_of_notMem h.1.2,
      newlines_cons_of_ne (by decide), readlines, readlinesFrom_append h.1.1, ih h.2, List.nil_append, List.map_cons]

/-- A line that has been read is read again wherever it is written. -/
lemma infix_newlines {c : Char} {line text : Word} (hnewline : c ≠ '\n') (hline : '\r' ∉ c :: line)
    (h : c :: line <:+: text) : c :: line <:+: newlines text := by
  obtain ⟨xs, ys, rfl⟩ := h
  rw [List.append_assoc, List.cons_append, newlines_append_of_ne hnewline, ← List.cons_append,
    newlines_of_notMem hline]
  exact ⟨newlines xs, newlines ys, by rw [List.append_assoc]⟩

end OpsSentry.Foundation.Lines
