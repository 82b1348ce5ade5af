import Mathlib.Data.List.Chain
import Mathlib.Tactic.IntervalCases

/-! The strings and numbers of a JSON text, as Python's encoder writes them (ASCII only) and its
decoder reads them. A Python string is a list of code points, surrogates among them. -/

namespace OpsSentry.Foundation.JsonText

abbrev Word := List Char

abbrev Str := List ℕ

def isHigh (u : ℕ) : Bool := 0xd800 ≤ u && u < 0xdc00

def isLow (u : ℕ) : Bool := 0xdc00 ≤ u && u < 0xe000

/-- What a JSON text can stand for: a high surrogate before a low one would be one character. -/
structure ValidStr (s : Str) : Prop where
  bounded : ∀ c ∈ s, c < 0x110000
  unpaired : s.IsChain fun c d => ¬ (isHigh c = true ∧ isLow d = true)

def str (s : String) : Str := s.toList.map Char.toNat

def codeUnits (c : ℕ) : List ℕ :=
  if c < 0x10000 then [c] else [0xd800 + (c - 0x10000) / 1024, 0xdc00 + (c - 0x10000) % 1024]

def combine : List ℕ → Str
  | [] => []
  | [u] => [u]
  | u :: v :: us =>
    if isHigh u && isLow v then (0x10000 + (u - 0xd800) * 1024 + (v - 0xdc00)) :: combine us
    else u :: combine (v :: us)

def escapes : List (Char × ℕ) :=
  [('"', 34), ('\\', 92), ('n', 10), ('r', 13), ('t', 9), ('b', 8), ('f', 12)]

def hex (u : ℕ) : Word :=
  [Nat.digitChar (u / 4096 % 16), Nat.digitChar (u / 256 % 16), Nat.digitChar (u / 16 % 16),
    Nat.digitChar (u % 16)]

def escapeUnit (u : ℕ) : Word :=
  match escapes.find? (·.2 = u) with
  | some e => ['\\', e.1]
  | none => if 32 ≤ u ∧ u ≤ 126 then [Char.ofNat u] else '\\' :: 'u' :: hex u

/-- `py_encode_basestring_ascii`, less the opening quotation mark. -/
def encodeStr (s : Str) : Word := (s.flatMap codeUnits).flatMap escapeUnit ++ ['"']

def hexValue (c : Char) : Option ℕ :=
  if '0' ≤ c ∧ c ≤ '9' then some (c.toNat - 48)
  else if 'a' ≤ c ∧ c ≤ 'f' then some (c.toNat - 87)
  else if 'A' ≤ c ∧ c ≤ 'F' then some (c.toNat - 55)
  else none

def unhex (a b c d : Char) : Option ℕ := do
  let a ← hexValue a
  let b ← hexValue b
  let c ← hexValue c
  let d ← hexValue d
  pure (a * 4096 + b * 256 + c * 16 + d)

def consUnit (u : ℕ) (r : List ℕ × Word) : List ℕ × Word := (u :: r.1, r.2)

/-- What stands before the closing quotation mark, and what behind it. -/
def scanUnits : Word → Option (List ℕ × Word)
  | [] => none
  | '"' :: cs => some ([], cs)
  | '\\' :: 'u' :: a :: b :: c :: d :: cs => do
    let u ← unhex a b c d
    (scanUnits cs).map (consUnit u)
  | '\\' :: e :: cs => do
    let u ← (escapes.lookup e).or (if e = '/' then some 47 else none)
    (scanUnits cs).map (consUnit u)
  | c :: cs => if c.toNat < 32 then none else (scanUnits cs).map (consUnit c.toNat)

def decodeStr (cs : Word) : Option (Str × Word) := (scanUnits cs).map fun r => (combine r.1, r.2)

section Strings

variable {s : Str} {u : ℕ} {cs : Word}

lemma combine_cons {us : List ℕ} (h : ∀ v ∈ us.head?, (isHigh u && isLow v) = false) :
    combine (u :: us) = u :: combine us := by
  cases us with
  | nil => rfl
  | cons v us => rw [combine, h v rfl, if_neg Bool.false_ne_true]

lemma combine_pair {us : List ℕ} (hlow : 0x10000 ≤ u) (hhigh : u < 0x110000) :
    combine ((0xd800 + (u - 0x10000) / 1024) :: (0xdc00 + (u - 0x10000) % 1024) :: us) = u :: combine us := by
  have hpair : (isHigh (0xd800 + (u - 0x10000) / 1024) && isLow (0xdc00 + (u - 0x10000) % 1024)) = true := by
    simp only [isHigh, isLow, Bool.and_eq_true, decide_eq_true_eq]
    omega
  rw [combine, hpair, if_pos rfl, List.cons.injEq]
  exact ⟨by omega, rfl⟩

lemma ValidStr.tail (h : ValidStr (u :: s)) : ValidStr s :=
  ⟨fun d hd => h.bounded d (List.mem_cons_of_mem u hd), h.unpaired.of_cons⟩

lemma combine_units (h : ValidStr s) : combine (s.flatMap codeUnits) = s := by
  induction s with
  | nil => rfl
  | cons c s ih =>
    have hs := h.tail
    rw [List.flatMap_cons, codeUnits]
    split
    · rw [List.singleton_append, combine_cons, ih hs]
      intro v hv
      cases s with
      | nil => cases hv
      | cons d s =>
        rw [List.flatMap_cons, codeUnits] at hv
        split at hv
        · obtain rfl : d = v := by simpa using hv
          have hpair := (List.isChain_cons_cons.mp h.unpaired).1
          simpa using hpair
        · obtain rfl : 0xd800 + (d - 0x10000) / 1024 = v := by simpa using hv
          have hd := h.bounded d (by simp)
          simp only [isLow, Bool.and_eq_false_iff, decide_eq_false_iff_not]
          omega
    · have hc := h.bounded c List.mem_cons_self
      rw [List.cons_append, List.cons_append, List.nil_append, combine_pair (by omega) hc, ih hs]

lemma ValidStr.cons (hs : ValidStr s) (hu : u < 0x110000)
    (h : ∀ d ∈ s.head?, ¬ (isHigh u = true ∧ isLow d = true)) :
    ValidStr (u :: s) :=
  ⟨List.forall_mem_cons.mpr ⟨hu, hs.bounded⟩, List.isChain_cons.mpr ⟨h, hs.unpaired⟩⟩

lemma codeUnits_pair {v : ℕ} (hu : isHigh u = true) (hv : isLow v = true) :
    codeUnits (0x10000 + (u - 0xd800) * 1024 + (v - 0xdc00)) = codeUnits u ++ codeUnits v := by
  simp only [isHigh, isLow, Bool.and_eq_true, decide_eq_true_eq] at hu hv
  rw [codeUnits, if_neg (by omega), codeUnits, if_pos (by omega), codeUnits, if_pos (by omega),
    List.singleton_append, List.cons.injEq, List.cons.injEq]
  exact ⟨by omega, by omega, rfl⟩

/-- A pair of surrogates is written as the one character it stands for. -/
lemma exists_valid (h : ∀ c ∈ s, c < 0x110000) : ∃ t, ValidStr t ∧ encodeStr t = encodeStr s := by
  suffices hunits : ∃ t, ValidStr t ∧ t.flatMap codeUnits = s.flatMap codeUnits by
    obtain ⟨t, ht, heq⟩ := hunits
    exact ⟨t, ht, by rw [encodeStr, heq, encodeStr]⟩
  induction s with
  | nil => exact ⟨[], ⟨by simp, List.isChain_nil⟩, rfl⟩
  | cons c s ih =>
    rw [List.forall_mem_cons] at h
    obtain ⟨t, ht, heq⟩ := ih h.2
    by_cases hpair : ∀ d ∈ t.head?, ¬ (isHigh c = true ∧ isLow d = true)
    · exact ⟨c :: t, ht.cons h.1 hpair, by rw [List.flatMap_cons, heq, List.flatMap_cons]⟩
    · push Not at hpair
      obtain ⟨d, hd, hhigh, hlow⟩ := hpair
      obtain ⟨t, rfl⟩ : ∃ t', t = d :: t' := ⟨_, List.eq_cons_of_mem_head? hd⟩
      refine ⟨_, ht.tail.cons (u := 0x10000 + (c - 0xd800) * 1024 + (d - 0xdc00)) ?_ ?_, ?_⟩
      · simp only [isHigh, isLow, Bool.and_eq_true, decide_eq_true_eq] at hhigh hlow
        omega
      · intro e _
        simp only [isHigh, isLow, Bool.and_eq_true, decide_eq_true_eq] at hhigh hlow ⊢
        omega
      · rw [List.flatMap_cons, codeUnits_pair hhigh hlow, List.append_assoc, ← List.flatMap_cons, heq,
          List.flatMap_cons]

lemma hexValue_digitChar (h : u < 16) : hexValue (Nat.digitChar u) = some u := by
  interval_cases u <;> rfl

lemma unhex_hex (h : u < 65536) :
    unhex (Nat.digitChar (u / 4096 % 16)) (Nat.digitChar (u / 256 % 16)) (Nat.digitChar (u / 16 % 16))
      (Nat.digitChar (u % 16)) = some u := by
  simp only [unhex, hexValue_digitChar (Nat.mod_lt _ (by decide : 0 < 16)), Option.bind_eq_bind, Option.bind_some,
    Option.pure_def, Option.some.injEq]
  omega

lemma scanUnits_escapeUnit (h : u < 65536) (cs : Word) :
    scanUnits (escapeUnit u ++ cs) = (scanUnits cs).map (consUnit u) := by
  rw [escapeUnit]
  split
  · rename_i e he
    have hmem := List.mem_of_find?_eq_some he
    have hu : e.2 = u := by simpa using List.find?_some he
    subst hu
    simp only [escapes, List.mem_cons, List.not_mem_nil, or_false] at hmem
    rcases hmem with rfl | rfl | rfl | rfl | rfl | rfl | rfl <;> rfl
  · rename_i hnone
    have hother : u ≠ 34 ∧ u ≠ 92 := by
      rw [List.find?_eq_none] at hnone
      constructor
      · rintro rfl
        exact hnone ('"', 34) (by decide) rfl
      · rintro rfl
        exact hnone ('\\', 92) (by decide) rfl
    split
    · rename_i hprint
      have hchar : (Char.ofNat u).toNat = u := by
        obtain ⟨h32, h126⟩ := hprint
        interval_cases u <;> rfl
      have hquote : Char.ofNat u ≠ '"' := fun he => hother.1 (hchar ▸ congrArg Char.toNat he)
      have hslash : Char.ofNat u ≠ '\\' := fun he => hother.2 (hchar ▸ congrArg Char.toNat he)
      rw [List.singleton_append, scanUnits, hchar, if_neg (by omega)]
      · exact hquote
      · exact fun a b c d cs' he => absurd he hslash
      · exact fun e cs' he => absurd he hslash
    · rw [hex, List.cons_append, List.cons_append, List.cons_append, List.cons_append, List.cons_append,
        List.cons_append, List.nil_append, scanUnits, unhex_hex h]
      rfl

lemma codeUnits_lt (h : ValidStr s) : ∀ u ∈ s.flatMap codeUnits, u < 65536 := by
  intro u hu
  obtain ⟨c, hc, hu⟩ := List.mem_flatMap.mp hu
  have hbound := h.bounded c hc
  rw [codeUnits] at hu
  split at hu
  · rw [List.mem_singleton.mp hu]
    assumption
  · rcases List.mem_cons.mp hu with rfl | hu
    · omega
    · rw [List.mem_singleton.mp hu]
      omega

lemma scanUnits_escape {us : List ℕ} (h : ∀ u ∈ us, u < 65536) (cs : Word) :
    scanUnits (us.flatMap escapeUnit ++ '"' :: cs) = some (us, cs) := by
  induction us with
  | nil => rw [List.flatMap_nil, List.nil_append, scanUnits]
  | cons u us ih =>
    rw [List.flatMap_cons, List.append_assoc, scanUnits_escapeUnit (h u List.mem_cons_self),
      ih fun v hv => h v (List.mem_cons_of_mem u hv)]
    rfl

lemma decodeStr_encodeStr (h : ValidStr s) (cs : Word) : decodeStr (encodeStr s ++ cs) = some (s, cs) := by
  rw [decodeStr, encodeStr, List.append_assoc, List.singleton_append, scanUnits_escape (codeUnits_lt h),
    Option.map_some, combine_units h]

lemma valid_str (s : String) : ValidStr (str s) := by
  have hchar : ∀ c ∈ str s, c < 0xd800 ∨ 0xdfff < c ∧ c < 0x110000 := by
    intro c hc
    obtain ⟨d, -, rfl⟩ := List.mem_map.mp hc
    exact d.valid
  constructor
  · intro c hc
    have := hchar c hc
    omega
  · refine List.Pairwise.isChain (List.pairwise_of_forall_mem_list fun c hc d _ => ?_)
    have := hchar c hc
    simp only [isHigh, isLow, Bool.and_eq_true, decide_eq_true_eq]
    omega

lemma str_injective {s t : String} (h : str s = str t) : s = t :=
  String.toList_inj.mp (List.map_injective_iff.mpr (fun _ _ => Char.toNat_inj.mp) h)

lemma str_ne_nil {s : String} (h : s ≠ "") : str s ≠ [] := fun hnil =>
  h (str_injective (hnil.trans rfl))

end Strings

def decimal (n : ℤ) : Word := (if n < 0 then ['-'] else []) ++ Nat.toDigits 10 n.natAbs

def digits (cs : Word) : Word × Word := (cs.takeWhile Char.isDigit, cs.dropWhile Char.isDigit)

def scanSign (signs : List Char) (cs : Word) : Word × Word :=
  match cs with
  | [] => ([], [])
  | c :: cs => if c ∈ signs then ([c], cs) else ([], c :: cs)

def scanInt (cs : Word) : Option (Word × Word) :=
  match cs with
  | [] => none
  | c :: cs => if c = '0' then some (['0'], cs) else if c.isDigit then some (digits (c :: cs)) else none

def scanFrac (cs : Word) : Word × Word :=
  match cs with
  | [] => ([], [])
  | c :: ds => if c = '.' ∧ (digits ds).1 ≠ [] then (c :: (digits ds).1, (digits ds).2) else ([], cs)

def scanExp (cs : Word) : Word × Word :=
  match cs with
  | [] => ([], [])
  | c :: ds =>
    let sign := scanSign ['+', '-'] ds
    let exp := digits sign.2
    if (c = 'e' ∨ c = 'E') ∧ exp.1 ≠ [] then (c :: (sign.1 ++ exp.1), exp.2) else ([], cs)

/-- The integer part, the rest of the number, and what stands behind it. -/
def scanNumber (cs : Word) : Option (Word × Word × Word) := do
  let sign := scanSign ['-'] cs
  let int ← scanInt sign.2
  let frac := scanFrac int.2
  let exp := scanExp frac.2
  pure (sign.1 ++ int.1, frac.1 ++ exp.1, exp.2)

def intValue (cs : Word) : ℤ :=
  let sign := scanSign ['-'] cs
  if sign.1 = [] then Nat.ofDigitChars 10 sign.2 0 else - Nat.ofDigitChars 10 sign.2 0

def Digits (w : Word) : Prop := ∀ c ∈ w, c.isDigit = true

/-- The text of a number in its four parts. -/
structure Numeral (sign int frac exp : Word) : Prop where
  sign : sign = [] ∨ sign = ['-']
  int : int = ['0'] ∨ int ≠ [] ∧ int.head? ≠ some '0' ∧ Digits int
  frac : frac = [] ∨ ∃ ds, ds ≠ [] ∧ Digits ds ∧ frac = '.' :: ds
  exp : exp = [] ∨ ∃ e s ds, (e = 'e' ∨ e = 'E') ∧ (s = [] ∨ s = ['+'] ∨ s = ['-']) ∧ ds ≠ [] ∧ Digits ds ∧
    exp = e :: (s ++ ds)

/-- A number ends before the text. -/
def Stops (cs : Word) : Prop := ∀ c ∈ cs.head?, c.isDigit = false ∧ c ≠ '.' ∧ c ≠ 'e' ∧ c ≠ 'E'

section Numbers

variable {cs ds sign int frac exp : Word}

lemma digits_append (hds : Digits ds) (hcs : ∀ c ∈ cs.head?, c.isDigit = false) :
    digits (ds ++ cs) = (ds, cs) := by
  rw [digits, List.takeWhile_append_of_pos hds, List.dropWhile_append_of_pos hds]
  cases cs with
  | nil => simp
  | cons c cs =>
    have hc := hcs c rfl
    simp [hc]

lemma scanSign_of_notMem {signs : List Char} (h : ∀ c ∈ cs.head?, c ∉ signs) :
    scanSign signs cs = ([], cs) := by
  cases cs with
  | nil => rfl
  | cons c cs => rw [scanSign, if_neg (h c rfl)]

lemma scanSign_of_mem {signs : List Char} {c : Char} (h : c ∈ signs) :
    scanSign signs (c :: cs) = ([c], cs) := by
  rw [scanSign, if_pos h]

lemma ne_of_isDigit {c d : Char} (hc : c.isDigit = true) (hd : d.isDigit = false) : c ≠ d := by
  rintro rfl
  rw [hc] at hd
  cases hd

lemma Numeral.int_head (h : Numeral sign int frac exp) (cs : Word) : (int ++ cs).head? ≠ some '-' := by
  intro hc
  rcases h.int with rfl | ⟨hne, -, hdigits⟩
  · cases hc
  · cases int with
    | nil => exact hne rfl
    | cons c int =>
      obtain rfl : c = '-' := Option.some.inj hc
      exact absurd (hdigits '-' List.mem_cons_self) (by decide)

lemma scanInt_append (h : int = ['0'] ∨ int ≠ [] ∧ int.head? ≠ some '0' ∧ Digits int)
    (hcs : ∀ c ∈ cs.head?, c.isDigit = false) : scanInt (int ++ cs) = some (int, cs) := by
  rcases h with rfl | ⟨hne, hzero, hdigits⟩
  · rfl
  · cases int with
    | nil => exact (hne rfl).elim
    | cons c int =>
      have hc : c ≠ '0' := fun he => hzero (congrArg some he)
      rw [List.cons_append, scanInt, if_neg hc, if_pos (hdigits c List.mem_cons_self), ← List.cons_append,
        digits_append hdigits hcs]

lemma scanFrac_append (h : frac = [] ∨ ∃ ds, ds ≠ [] ∧ Digits ds ∧ frac = '.' :: ds)
    (hcs : ∀ c ∈ cs.head?, c.isDigit = false ∧ c ≠ '.') : scanFrac (frac ++ cs) = (frac, cs) := by
  rcases h with rfl | ⟨ds, hne, hds, rfl⟩
  · cases cs with
    | nil => rfl
    | cons c cs => rw [List.nil_append, scanFrac, if_neg fun h => (hcs c rfl).2 h.1]
  · rw [List.cons_append, scanFrac, digits_append hds fun c hc => (hcs c hc).1, if_pos ⟨rfl, hne⟩]

lemma scanExp_append (h : exp = [] ∨ ∃ e s ds, (e = 'e' ∨ e = 'E') ∧ (s = [] ∨ s = ['+'] ∨ s = ['-']) ∧ ds ≠ [] ∧
    Digits ds ∧ exp = e :: (s ++ ds)) (hcs : Stops cs) : scanExp (exp ++ cs) = (exp, cs) := by
  rcases h with rfl | ⟨e, s, ds, he, hs, hne, hds, rfl⟩
  · cases cs with
    | nil => rfl
    | cons c cs =>
      obtain ⟨-, -, hlower, hupper⟩ := hcs c rfl
      rw [List.nil_append, scanExp, if_neg fun h => h.1.elim hlower hupper]
  · have hsign : scanSign ['+', '-'] (s ++ (ds ++ cs)) = (s, ds ++ cs) := by
      rcases hs with rfl | rfl | rfl
      · apply scanSign_of_notMem
        intro c hc hmem
        cases ds with
        | nil => exact hne rfl
        | cons d ds =>
          obtain rfl : d = c := Option.some.inj hc
          have hd := hds d List.mem_cons_self
          rcases List.mem_cons.mp hmem with rfl | hmem
          · exact absurd hd (by decide)
          · obtain rfl := List.mem_singleton.mp hmem
            exact absurd hd (by decide)
      · exact scanSign_of_mem (by decide)
      · exact scanSign_of_mem (by decide)
    rw [List.cons_append, List.append_assoc, scanExp, hsign]
    simp only [digits_append hds fun c hc => (hcs c hc).1]
    rw [if_pos ⟨he, hne⟩]

lemma scanNumber_append (h : Numeral sign int frac exp) (hcs : Stops cs) :
    scanNumber (sign ++ (int ++ (frac ++ (exp ++ cs)))) = some (sign ++ int, frac ++ exp, cs) := by
  have hexp : ∀ c ∈ (exp ++ cs).head?, c.isDigit = false ∧ c ≠ '.' := by
    intro c hc
    rcases h.exp with rfl | ⟨e, s, ds, he, -, -, -, rfl⟩
    · exact ⟨(hcs c hc).1, (hcs c hc).2.1⟩
    · obtain rfl : e = c := Option.some.inj hc
      rcases he with rfl | rfl <;> decide
  have hfrac : ∀ c ∈ (frac ++ (exp ++ cs)).head?, c.isDigit = false := by
    intro c hc
    rcases h.frac with rfl | ⟨ds, -, -, rfl⟩
    · exact (hexp c hc).1
    · obtain rfl : '.' = c := Option.some.inj hc
      decide
  have hint : scanInt (int ++ (frac ++ (exp ++ cs))) = some (int, frac ++ (exp ++ cs)) := scanInt_append h.int hfrac
  have hsign : scanSign ['-'] (sign ++ (int ++ (frac ++ (exp ++ cs)))) = (sign, int ++ (frac ++ (exp ++ cs))) := by
    rcases h.sign with rfl | rfl
    · apply scanSign_of_notMem
      intro c hc hmem
      obtain rfl := List.mem_singleton.mp hmem
      exact h.int_head _ hc
    · exact scanSign_of_mem List.mem_cons_self
  simp only [scanNumber, hsign, hint, Option.bind_eq_bind, Option.bind_some, scanFrac_append h.frac hexp,
    scanExp_append h.exp hcs, Option.pure_def]

lemma head_toDigits {n : ℕ} (h : 0 < n) : (Nat.toDigits 10 n).head? ≠ some '0' := by
  induction n using Nat.strong_induction_on with
  | h n ih =>
    by_cases hn : n < 10
    · rw [Nat.toDigits_of_lt_base hn, List.head?_cons]
      intro he
      have hzero : n.digitChar = '0' := Option.some.inj he
      rw [Nat.digitChar_eq_zero] at hzero
      omega
    · rw [Nat.toDigits_of_base_le (by decide) (by omega), List.head?_append_of_ne_nil _ Nat.toDigits_ne_nil]
      exact ih (n / 10) (by omega) (by omega)

lemma numeral_decimal (n : ℤ) :
    Numeral (if n < 0 then ['-'] else []) (Nat.toDigits 10 n.natAbs) [] [] where
  sign := by
    split
    · exact Or.inr rfl
    · exact Or.inl rfl
  int := by
    by_cases hn : n.natAbs = 0
    · rw [hn]
      exact Or.inl rfl
    · exact Or.inr ⟨Nat.toDigits_ne_nil, head_toDigits (by omega),
        fun c hc => Nat.isDigit_of_mem_toDigits (by decide) (by decide) hc⟩
  frac := Or.inl rfl
  exp := Or.inl rfl

lemma scanNumber_decimal (n : ℤ) (hcs : Stops cs) :
    scanNumber (decimal n ++ cs) = some (decimal n, [], cs) := by
  rw [decimal, List.append_assoc]
  exact scanNumber_append (numeral_decimal n) hcs

lemma intValue_decimal (n : ℤ) : intValue (decimal n) = n := by
  rw [intValue, decimal]
  split
  · rename_i hneg
    rw [List.singleton_append, scanSign_of_mem List.mem_cons_self, if_neg (List.cons_ne_nil _ _),
      Nat.ofDigitChars_ten_toDigits]
    omega
  · rename_i hpos
    rw [List.nil_append, scanSign_of_notMem, if_pos rfl, Nat.ofDigitChars_ten_toDigits]
    · omega
    · intro c hc hmem
      obtain rfl := List.mem_singleton.mp hmem
      exact (numeral_decimal n).int_head [] (by rwa [List.append_nil])

/-- The text of a float, as `float.__repr__` gives it: with a fraction or an exponent. -/
def FloatText (w : Word) : Prop :=
  ∃ sign int frac exp, Numeral sign int frac exp ∧ frac ++ exp ≠ [] ∧ w = sign ++ (int ++ (frac ++ exp))

lemma scanNumber_float {w : Word} (h : FloatText w) (hcs : Stops cs) :
    ∃ int tail, tail ≠ [] ∧ w = int ++ tail ∧ scanNumber (w ++ cs) = some (int, tail, cs) := by
  obtain ⟨sign, int, frac, exp, hw, htail, rfl⟩ := h
  refine ⟨sign ++ int, frac ++ exp, htail, by simp only [List.append_assoc], ?_⟩
  simpa only [List.append_assoc] using scanNumber_append hw hcs

end Numbers

end OpsSentry.Foundation.JsonText
