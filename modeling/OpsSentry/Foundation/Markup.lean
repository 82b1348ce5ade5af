import Mathlib.Data.List.Infix
import Mathlib.Tactic.Common

/-! Text with markup: replacing and finding words in it, escaping `&`, `<` and `>`, and the
tags and comments that a scan from left to right finds. -/

namespace OpsSentry.Foundation.Markup

abbrev Word := List Char

/-- `str.replace` after the next `skip` characters, which a match has used up. -/
def replaceFrom (old new : Word) : ℕ → Word → Word
  | _, [] => []
  | skip + 1, _ :: cs => replaceFrom old new skip cs
  | 0, c :: cs =>
    if old.isPrefixOf (c :: cs) then new ++ replaceFrom old new (old.length - 1) cs
    else c :: replaceFrom old new 0 cs

def replace (old new s : Word) : Word := replaceFrom old new 0 s

/-- What stands before the first occurrence of a word. -/
def before (word : Word) : Word → Option Word
  | [] => if word = [] then some [] else none
  | c :: cs => if word.isPrefixOf (c :: cs) then some [] else (before word cs).map (c :: ·)

/-- `xml.sax.saxutils.escape`. -/
def escape (s : Word) : Word :=
  replace ['<'] "&lt;".toList (replace ['>'] "&gt;".toList (replace ['&'] "&amp;".toList s))

/-- `xml.sax.saxutils.unescape`. -/
def unescape (s : Word) : Word :=
  replace "&amp;".toList ['&'] (replace "&gt;".toList ['>'] (replace "&lt;".toList ['<'] s))

/-- Whether a `>` ends the tag or comment that has been read so far. -/
def closes (inside : Word) : Bool := !"<!--".toList.isPrefixOf inside || "--".toList.isSuffixOf inside

/-- One character, with the tag or comment that it is inside of, if any. -/
def feed (inside : Word) (c : Char) : List Word × Word :=
  if inside = [] then ([], if c = '<' then [c] else [])
  else if c = '>' ∧ closes inside then ([inside ++ [c]], [])
  else ([], inside ++ [c])

def scan : Word → Word → List Word × Word
  | inside, [] => ([], inside)
  | inside, c :: cs =>
    ((feed inside c).1 ++ (scan (feed inside c).2 cs).1, (scan (feed inside c).2 cs).2)

def tags (s : Word) : List Word := (scan [] s).1

example : tags "a <b c='>'> &lt; <!-- x > y --></b>".toList =
    ["<b c='>".toList, "<!-- x > y -->".toList, "</b>".toList] := by decide

section Escape

def entity (c : Char) : Word :=
  if c = '&' then "&amp;".toList else if c = '>' then "&gt;".toList else if c = '<' then "&lt;".toList
  else [c]

lemma replace_char (c : Char) (new s : Word) :
    replace [c] new s = s.flatMap fun x => if x = c then new else [x] := by
  rw [replace]
  induction s with
  | nil => rfl
  | cons x s ih =>
    rw [replaceFrom, List.flatMap_cons]
    by_cases hx : x = c
    · simp [hx, ih]
    · simp [hx, Ne.symm hx, ih]

/-- The three replacements do not get into each other's way. -/
lemma escape_eq (s : Word) : escape s = s.flatMap entity := by
  rw [escape, replace_char, replace_char, replace_char, List.flatMap_assoc, List.flatMap_assoc]
  congr 1
  funext c
  rw [entity]
  by_cases hamp : c = '&'
  · subst hamp
    decide
  · by_cases hgt : c = '>'
    · subst hgt
      decide
    · by_cases hlt : c = '<'
      · subst hlt
        decide
      · simp [hamp, hgt, hlt]

lemma lt_notMem_escape (s : Word) : '<' ∉ escape s := by
  rw [escape_eq, List.mem_flatMap]
  rintro ⟨c, -, hc⟩
  rw [entity] at hc
  split at hc
  · exact absurd hc (by decide)
  · split at hc
    · exact absurd hc (by decide)
    · split at hc
      · exact absurd hc (by decide)
      · rename_i hlt
        exact hlt (List.mem_singleton.mp hc).symm

lemma replace_flatMap {old new : Word} {f g : Char → Word}
    (h : ∀ c s, replaceFrom old new 0 (f c ++ s) = g c ++ replaceFrom old new 0 s) (s : Word) :
    replace old new (s.flatMap f) = s.flatMap g := by
  induction s with
  | nil => rfl
  | cons c s ih => rw [List.flatMap_cons, List.flatMap_cons, replace, h, ← ih, replace]

lemma prefix_append_cons {old : Word} {c : Char} (hc : c ∉ old) (xs ys : Word) :
    old <+: xs ++ c :: ys ↔ old <+: xs := by
  constructor
  · rintro h
    rcases Nat.lt_or_ge xs.length old.length with hlen | hlen
    · obtain ⟨tail, htail⟩ := h
      have hget : (old ++ tail)[xs.length]? = some c := by
        rw [htail, List.getElem?_append_right le_rfl, Nat.sub_self]
        rfl
      rw [List.getElem?_append_left hlen] at hget
      exact absurd (List.mem_of_getElem? hget) hc
    · exact List.prefix_of_prefix_length_le h (List.prefix_append _ _) hlen
  · exact fun h => h.trans (List.prefix_append _ _)

/-- A word that does not hold `c` is replaced on either side of it. -/
lemma replace_append_cons {old : Word} {c : Char} (hold : old ≠ []) (hc : c ∉ old) (new xs ys : Word) :
    replace old new (xs ++ c :: ys) = replace old new xs ++ c :: replace old new ys := by
  have hfrom : ∀ skip ≤ xs.length, replaceFrom old new skip (xs ++ c :: ys) =
      replaceFrom old new skip xs ++ c :: replaceFrom old new 0 ys := by
    induction xs with
    | nil =>
      intro skip hskip
      obtain rfl : skip = 0 := Nat.le_zero.mp hskip
      have hnot : ¬ old <+: [] ++ c :: ys := (prefix_append_cons hc [] ys).not.mpr (by simpa using hold)
      rw [List.nil_append, replaceFrom, replaceFrom, if_neg (by simpa using hnot), List.nil_append]
    | cons x xs ih =>
      intro skip hskip
      cases skip with
      | succ skip =>
        rw [List.cons_append, replaceFrom, replaceFrom]
        exact ih skip (Nat.le_of_succ_le_succ hskip)
      | zero =>
        rw [List.cons_append, replaceFrom, replaceFrom, ← List.cons_append]
        simp only [List.isPrefixOf_iff_prefix, prefix_append_cons hc]
        split
        · rename_i hpre
          have hlen := hpre.length_le
          rw [List.length_cons] at hlen
          rw [ih _ (by omega), List.append_assoc]
        · rw [ih 0 (Nat.zero_le _), List.cons_append]
  exact hfrom 0 (Nat.zero_le _)

lemma replace_absent {old xs : Word} (h : ¬ old <:+: xs) (new : Word) : replace old new xs = xs := by
  rw [replace]
  induction xs with
  | nil => rfl
  | cons x xs ih =>
    rw [List.infix_cons_iff, not_or] at h
    rw [replaceFrom, if_neg (by simpa using h.1), ih h.2]

lemma replaceFrom_length (old new xs ys : Word) :
    replaceFrom old new xs.length (xs ++ ys) = replace old new ys := by
  induction xs with
  | nil => rfl
  | cons x xs ih => exact ih

lemma replace_append_left {old : Word} (hold : old ≠ []) (new xs : Word) :
    replace old new (old ++ xs) = new ++ replace old new xs := by
  cases old with
  | nil => exact absurd rfl hold
  | cons c old =>
    have hpre : (c :: old).isPrefixOf (c :: old ++ xs) = true := by simp
    rw [replace, List.cons_append, replaceFrom, ← List.cons_append, if_pos hpre]
    exact congrArg (new ++ ·) (replaceFrom_length _ _ old xs)

lemma infix_replace_new {old xs : Word} (hold : old ≠ []) (h : old <:+: xs) (new : Word) :
    new <:+: replace old new xs := by
  induction xs with
  | nil => exact absurd (List.eq_nil_of_infix_nil h) hold
  | cons x xs ih =>
    rw [replace, replaceFrom]
    split
    · exact (List.prefix_append _ _).isInfix
    · rename_i hpre
      rw [List.infix_cons_iff] at h
      exact List.infix_cons (ih (h.resolve_left (by simpa using hpre)))

/-- What is inserted behind a word leaves a line whole that the word is not inside of. -/
lemma prefix_replace {old line : Word} (h : ∀ c, ¬ old ++ [c] <:+: line) (new ys : Word) :
    line <+: replace old (old ++ new) (line ++ ys) := by
  induction line with
  | nil => exact List.nil_prefix
  | cons c line ih =>
    rw [replace, List.cons_append, replaceFrom, ← List.cons_append]
    split
    · rename_i hpre
      rw [List.isPrefixOf_iff_prefix] at hpre
      rcases List.prefix_or_prefix_of_prefix hpre (List.prefix_append (c :: line) ys) with hold | hold
      · obtain ⟨rest, hrest⟩ := hold
        cases rest with
        | nil =>
          rw [← hrest, List.append_nil, List.append_assoc]
          exact List.prefix_append _ _
        | cons d rest => exact absurd ⟨[], rest, by simpa using hrest⟩ (h d)
      · rw [List.append_assoc]
        exact hold.trans (List.prefix_append _ _)
    · exact (List.prefix_cons_inj c).mpr (ih fun d hd => h d (List.infix_cons hd))

lemma infix_replace {old line s : Word} {c : Char} (hold : old ≠ []) (hc : c ∉ old)
    (h : ∀ d, ¬ old ++ [d] <:+: line) (hline : c :: line <:+: s) (new : Word) :
    c :: line <:+: replace old (old ++ new) s := by
  obtain ⟨xs, ys, rfl⟩ := hline
  rw [List.append_assoc, List.cons_append, replace_append_cons hold hc]
  obtain ⟨zs, hzs⟩ := prefix_replace h new ys
  exact ⟨replace old (old ++ new) xs, zs, by rw [← hzs, List.append_assoc, List.cons_append]⟩

/-- The first occurrence is the one that is replaced first. -/
lemma replace_first {old xs : Word} (hold : old ≠ []) (h : old <:+: xs) (new : Word) : ∃ ys zs,
    xs = ys ++ (old ++ zs) ∧ ¬ old <:+: ys ∧ replace old new xs = ys ++ (new ++ replace old new zs) := by
  induction xs with
  | nil => exact absurd (List.eq_nil_of_infix_nil h) hold
  | cons x xs ih =>
    by_cases hpre : old <+: x :: xs
    · obtain ⟨zs, hzs⟩ := hpre
      refine ⟨[], zs, hzs.symm, fun hnil => hold (List.eq_nil_of_infix_nil hnil), ?_⟩
      rw [← hzs, replace_append_left hold, List.nil_append]
    · obtain ⟨ys, zs, rfl, hys, hreplace⟩ := ih ((List.infix_cons_iff.mp h).resolve_left hpre)
      refine ⟨x :: ys, zs, rfl, ?_, ?_⟩
      · rw [List.infix_cons_iff, not_or]
        refine ⟨fun hstarts => hpre ?_, hys⟩
        rw [← List.cons_append]
        exact hstarts.trans (List.prefix_append _ _)
      · rw [replace, replaceFrom, if_neg (by simpa using hpre)]
        exact congrArg (x :: ·) hreplace

section Count

variable {old xs : Word}

lemma count_replace_le (hold : old ≠ []) (new xs : Word) (c : Char) :
    xs.count c ≤ (replace old (old ++ new) xs).count c := by
  induction hn : xs.length using Nat.strongRecOn generalizing xs with
  | ind n ih =>
    by_cases hin : old <:+: xs
    · obtain ⟨ys, zs, rfl, -, hreplace⟩ := replace_first hold hin (old ++ new)
      have hlt : zs.length < n := by
        have := List.length_pos_iff.mpr hold
        rw [← hn, List.length_append, List.length_append]
        omega
      have hzs := ih _ hlt zs rfl
      rw [hreplace]
      simp only [List.count_append]
      omega
    · rw [replace_absent hin]

lemma count_replace_eq_zero {new : Word} {c : Char} (hold : old ≠ []) (hnew : new.count c = 0) (h : xs.count c = 0) :
    (replace old new xs).count c = 0 := by
  induction hn : xs.length using Nat.strongRecOn generalizing xs with
  | ind n ih =>
    by_cases hin : old <:+: xs
    · obtain ⟨ys, zs, rfl, -, hreplace⟩ := replace_first hold hin new
      have hlt : zs.length < n := by
        have := List.length_pos_iff.mpr hold
        rw [← hn, List.length_append, List.length_append]
        omega
      simp only [List.count_append] at h
      have hzs := ih _ hlt (by omega) rfl
      rw [hreplace]
      simp only [List.count_append]
      omega
    · rw [replace_absent hin, h]

/-- What is inserted behind each occurrence is there once at least. -/
lemma count_replace (hold : old ≠ []) (h : old <:+: xs) (new : Word) (c : Char) :
    xs.count c + new.count c ≤ (replace old (old ++ new) xs).count c := by
  obtain ⟨ys, zs, rfl, -, hreplace⟩ := replace_first hold h (old ++ new)
  have hzs := count_replace_le hold new zs c
  rw [hreplace]
  simp only [List.count_append]
  omega

end Count

section Once

variable {old ps qs rs ts : Word}

/-- A word that does not begin anew inside of itself. -/
def Unbordered (old : Word) : Prop := ∀ d < old.length, 0 < d → ¬ old.drop d <+: old

instance (old : Word) : Decidable (Unbordered old) := inferInstanceAs (Decidable (∀ d < old.length, _))

lemma Unbordered.shift (hold : Unbordered old) {as : Word} (h : old ++ rs = as ++ (old ++ ts)) :
    as = [] ∨ ∃ bs, as = old ++ bs ∧ rs = bs ++ (old ++ ts) := by
  rcases Nat.lt_or_ge as.length old.length with hlt | hge
  · left
    by_contra hne
    have hpos := List.length_pos_iff.mpr hne
    have hdrop := congrArg (List.drop as.length) h
    rw [List.drop_append_of_le_length hlt.le, List.drop_left] at hdrop
    refine hold as.length hlt hpos (List.prefix_of_prefix_length_le ⟨rs, hdrop⟩ (List.prefix_append old ts) ?_)
    rw [List.length_drop]
    omega
  · right
    obtain ⟨bs, rfl⟩ := List.prefix_of_prefix_length_le ⟨rs, h⟩ (List.prefix_append as (old ++ ts)) hge
    rw [List.append_assoc] at h
    exact ⟨bs, rfl, List.append_cancel_left h⟩

/-- Where a word occurs once, no cut finds it in another place. -/
lemma Unbordered.unique (hold : Unbordered old) (h : ps ++ (old ++ rs) = qs ++ (old ++ ts))
    (hps : ¬ old <:+: ps)
    (hrs : ¬ old <:+: rs) : ps = qs ∧ rs = ts := by
  have hsame : ps = qs := by
    rcases List.append_eq_append_iff.mp h with ⟨as, rfl, has⟩ | ⟨as, rfl, has⟩
    · rcases hold.shift has with rfl | ⟨bs, rfl, rfl⟩
      · exact (List.append_nil ps).symm
      · exact absurd ⟨bs, ts, List.append_assoc bs old ts⟩ hrs
    · rcases hold.shift has with rfl | ⟨bs, rfl, -⟩
      · exact List.append_nil qs
      · exact absurd ⟨qs, bs, List.append_assoc qs old bs⟩ hps
  subst hsame
  exact ⟨rfl, List.append_cancel_left (List.append_cancel_left h)⟩

lemma Unbordered.replace_once (hold : Unbordered old) (hne : old ≠ []) (hps : ¬ old <:+: ps)
    (hrs : ¬ old <:+: rs)
    (new : Word) : replace old new (ps ++ (old ++ rs)) = ps ++ (new ++ rs) := by
  have hin : old <:+: ps ++ (old ++ rs) := ⟨ps, rs, List.append_assoc ps old rs⟩
  obtain ⟨ys, zs, heq, -, hreplace⟩ := replace_first hne hin new
  obtain ⟨rfl, rfl⟩ := hold.unique heq hps hrs
  rw [hreplace, replace_absent hrs]

end Once

lemma replaceFrom_of_ne {old new s : Word} {c x : Char} (hold : old.head? = some x) (hc : c ≠ x) :
    replaceFrom old new 0 ([c] ++ s) = [c] ++ replaceFrom old new 0 s := by
  obtain ⟨tail, rfl⟩ : ∃ tail, old = x :: tail := by
    cases old with
    | nil => cases hold
    | cons y tail => exact ⟨tail, by rw [Option.some.inj hold]⟩
  simp [replaceFrom, Ne.symm hc]

lemma unescape_escape (s : Word) : unescape (escape s) = s := by
  have hlt : replace "&lt;".toList ['<'] (s.flatMap entity) = s.flatMap fun c =>
      if c = '&' then "&amp;".toList else if c = '>' then "&gt;".toList else [c] := by
    refine replace_flatMap (fun c s => ?_) s
    rw [entity]
    split
    · rfl
    · split
      · rfl
      · split
        · rename_i hc
          subst hc
          rfl
        · exact replaceFrom_of_ne (x := '&') rfl ‹_›
  have hgt : replace "&gt;".toList ['>'] (s.flatMap fun c =>
      if c = '&' then "&amp;".toList else if c = '>' then "&gt;".toList else [c]) =
        s.flatMap fun c => if c = '&' then "&amp;".toList else [c] := by
    refine replace_flatMap (fun c s => ?_) s
    split
    · rfl
    · split
      · rename_i hc
        subst hc
        rfl
      · exact replaceFrom_of_ne (x := '&') rfl ‹_›
  have hamp : replace "&amp;".toList ['&'] (s.flatMap fun c => if c = '&' then "&amp;".toList else [c]) =
      s.flatMap fun c => [c] := by
    refine replace_flatMap (fun c s => ?_) s
    split
    · rename_i hc
      subst hc
      rfl
    · exact replaceFrom_of_ne (x := '&') rfl ‹_›
  rw [unescape, escape_eq, hlt, hgt, hamp, List.flatMap_singleton']

end Escape

section Scan

variable {inside xs ys : Word}

lemma scan_append (inside xs ys : Word) : scan inside (xs ++ ys) =
    ((scan inside xs).1 ++ (scan (scan inside xs).2 ys).1, (scan (scan inside xs).2 ys).2) := by
  induction xs generalizing inside with
  | nil => rfl
  | cons x xs ih => simp only [List.cons_append, scan, ih, List.append_assoc]

lemma scan_flatten (inside : Word) (parts : List Word) :
    parts.foldl (fun inside part => (scan inside part).2) inside = (scan inside parts.flatten).2 := by
  induction parts generalizing inside with
  | nil => rfl
  | cons part parts ih => simp only [List.foldl_cons, ih, List.flatten_cons, scan_append]

lemma scan_plain (h : '<' ∉ xs) : scan [] xs = ([], []) := by
  induction xs with
  | nil => rfl
  | cons x xs ih =>
    obtain ⟨hx, hxs⟩ : '<' ≠ x ∧ '<' ∉ xs := by simpa using h
    simp [scan, feed, Ne.symm hx, ih hxs]

lemma scan_ofList {s : String} {l : Word} (h : s = String.ofList l) (inside : Word) :
    scan inside s.toList = scan inside l := by
  rw [h, String.toList_ofList]

/-- Whatever has been left open, `-->` ends it. -/
lemma scan_comment_end (inside xs : Word) : (scan inside (xs ++ "-->".toList)).2 = [] := by
  rw [scan_append]
  generalize (scan inside xs).2 = y
  change (scan y ['-', '-', '>']).2 = []
  by_cases hy : y = []
  · subst hy
    decide
  · simp [scan, feed, hy, closes]

/-- Nothing is left open at the end. -/
def Closed (xs : Word) : Prop := (scan [] xs).2 = []

instance (xs : Word) : Decidable (Closed xs) := inferInstanceAs (Decidable (_ = _))

lemma Closed.append (hx : Closed xs) (hy : Closed ys) : Closed (xs ++ ys) := by
  rw [Closed, scan_append, hx, hy]

lemma closed_plain (h : '<' ∉ xs) : Closed xs := congrArg Prod.snd (scan_plain h)

lemma closed_of_comment_end (h : "-->".toList <:+ xs) (hys : Closed ys) (zs : Word) :
    Closed (zs ++ (xs ++ ys)) := by
  obtain ⟨xs, rfl⟩ := h
  rw [← List.append_assoc, ← List.append_assoc, Closed, scan_append, scan_comment_end]
  exact hys

lemma closed_intercalate {parts : List Word} (hx : Closed xs) (h : ∀ part ∈ parts, Closed part) :
    Closed (xs.intercalate parts) := by
  induction parts with
  | nil => rfl
  | cons part parts ih =>
    obtain ⟨hpart, hparts⟩ := List.forall_mem_cons.mp h
    cases parts with
    | nil => simpa using hpart
    | cons part' parts =>
      rw [List.intercalate_cons_cons]
      exact (hpart.append hx).append (ih hparts)

lemma tags_append (hx : Closed xs) (ys : Word) : tags (xs ++ ys) = tags xs ++ tags ys := by
  simp only [tags, scan_append]
  rw [hx]

-- a character that is neither `<` nor `>` opens and ends nothing
lemma feed_plain {c : Char} (hopen : c ≠ '<') (hend : c ≠ '>') (inside : Word) :
    feed inside c = ([], if inside = [] then [] else inside ++ [c]) := by
  by_cases hinside : inside = []
  · simp [feed, hinside, hopen]
  · simp [feed, hinside, hend]

lemma closed_frame_iff {c : Char} (hopen : c ≠ '<') (hend : c ≠ '>') :
    Closed (c :: (xs ++ [c])) ↔ Closed xs := by
  simp only [Closed, scan, feed_plain hopen hend, if_true, scan_append]
  by_cases hxs : (scan [] xs).2 = []
  · simp [hxs]
  · simp [hxs]

lemma infix_of_mem_scan {tag : Word} (h : tag ∈ (scan inside xs).1) : tag <:+: inside ++ xs := by
  induction xs generalizing inside with
  | nil => cases h
  | cons x xs ih =>
    have hstep : (feed inside x).2 ++ xs <:+ inside ++ x :: xs := by
      rw [feed]
      split
      · rename_i hinside
        subst hinside
        split
        · exact List.suffix_refl _
        · exact List.suffix_cons x xs
      · split
        · exact ⟨inside ++ [x], by simp⟩
        · exact ⟨[], by simp⟩
    rw [scan, List.mem_append] at h
    rcases h with h | h
    · rw [feed] at h
      split at h
      · cases h
      · split at h
        · obtain rfl := List.mem_singleton.mp h
          exact ⟨[], xs, by simp⟩
        · cases h
    · exact (ih h).trans hstep.isInfix

/-- The tag that was open comes first; the others stand in the text that is read. -/
lemma mem_scan {tag : Word} (hinside : inside ≠ []) (h : tag ∈ (scan inside xs).1) :
    inside <+: tag ∨ tag <:+: xs := by
  induction xs generalizing inside with
  | nil => cases h
  | cons x xs ih =>
    rw [scan, feed, if_neg hinside, List.mem_append] at h
    split at h
    · rcases h with h | h
      · obtain rfl := List.mem_singleton.mp h
        exact Or.inl (List.prefix_append _ _)
      · have hxs : tag <:+: xs := infix_of_mem_scan h
        exact Or.inr (List.infix_cons hxs)
    · rcases h with h | h
      · cases h
      · rcases ih (by simp) h with hpre | hxs
        · exact Or.inl ((List.prefix_append _ _).trans hpre)
        · exact Or.inr (List.infix_cons hxs)

/-- The two texts have the same tags and leave none open. -/
def Alike (xs ys : Word) : Prop := scan [] xs = scan [] ys ∧ Closed ys

lemma Closed.alike (h : Closed xs) : Alike xs xs := ⟨rfl, h⟩

lemma Alike.tags_eq (h : Alike xs ys) : tags xs = tags ys := congrArg Prod.fst h.1

lemma Alike.append {xs' ys' : Word} (h : Alike xs ys) (h' : Alike xs' ys') :
    Alike (xs ++ xs') (ys ++ ys') := by
  refine ⟨?_, h.2.append h'.2⟩
  rw [scan_append, scan_append, h.1, h.2, h'.1]

lemma alike_plain (hx : '<' ∉ xs) (hy : '<' ∉ ys) : Alike xs ys := by
  refine ⟨?_, closed_plain hy⟩
  rw [scan_plain hx, scan_plain hy]

end Scan

section Before

variable {word xs ys : Word} {c : Char}

/-- A word whose first character is nowhere before it is found where it stands. -/
lemma before_append (hw : word.head? = some c) (hc : c ∉ xs) :
    before word (xs ++ (word ++ ys)) = some xs := by
  induction xs with
  | nil =>
    cases word with
    | nil => cases hw
    | cons x word => simp [before]
  | cons x xs ih =>
    obtain ⟨hx, hxs⟩ : c ≠ x ∧ c ∉ xs := by simpa using hc
    have hstarts : word.isPrefixOf (x :: (xs ++ (word ++ ys))) = false := by
      cases word with
      | nil => cases hw
      | cons y word =>
        obtain rfl : y = c := Option.some.inj hw
        rw [List.isPrefixOf_cons_cons, beq_false_of_ne hx, Bool.false_and]
    rw [List.cons_append, before, hstarts, ih hxs]
    rfl

lemma before_cons (h : word.isPrefixOf (c :: xs) = false) :
    before word (c :: xs) = (before word xs).map (c :: ·) := by
  rw [before, h]
  rfl

end Before

end OpsSentry.Foundation.Markup
