import OpsSentry.Foundation.JsonLines

/-! `json.dumps` with `ensure_ascii=False`: a string's characters stand for themselves, less those
that JSON has to escape. -/

namespace OpsSentry.Foundation.JsonText

def escapeRaw (c : ℕ) : Word :=
  match escapes.find? (·.2 = c) with
  | some e => ['\\', e.1]
  | none => if c < 32 then '\\' :: 'u' :: hex c else [Char.ofNat c]

/-- `py_encode_basestring`, less the opening quotation mark. -/
def encodeRaw (s : Str) : Word := s.flatMap escapeRaw ++ ['"']

/-- No code point of the string is a surrogate. -/
def NoSurrogates (s : Str) : Prop := ∀ c ∈ s, c.isValidChar

lemma noSurrogates_str (s : String) : NoSurrogates (str s) := by
  intro c hc
  obtain ⟨d, -, rfl⟩ := List.mem_map.1 hc
  exact d.valid

section Strings

variable {s : Str} {c : ℕ}

lemma escapeRaw_of_lt (h : c < 32) : escapeRaw c = escapeUnit c := by
  rw [escapeRaw, escapeUnit]
  cases escapes.find? (·.2 = c) with
  | some e => rfl
  | none => exact (if_pos h).trans (if_neg (by omega)).symm

lemma escapeRaw_of_escape (h : c = 34 ∨ c = 92) : escapeRaw c = escapeUnit c := by
  rcases h with rfl | rfl <;> rfl

lemma find?_escapes (hc : 32 ≤ c) (hquote : c ≠ 34) (hslash : c ≠ 92) : escapes.find? (·.2 = c) = none := by
  rw [List.find?_eq_none]
  have hall : ∀ e ∈ escapes, e.2 < 32 ∨ e.2 = 34 ∨ e.2 = 92 := by decide
  intro e he heq
  have hec : e.2 = c := by simpa using heq
  have := hall e he
  omega

lemma escapeRaw_self (hc : 32 ≤ c) (hquote : c ≠ 34) (hslash : c ≠ 92) : escapeRaw c = [Char.ofNat c] := by
  rw [escapeRaw, find?_escapes hc hquote hslash]
  exact if_neg (by omega)

lemma toNat_ofNat (h : c.isValidChar) : (Char.ofNat c).toNat = c := by
  rw [Char.ofNat, dif_pos h]
  rfl

lemma scanUnits_escapeRaw (h : c.isValidChar) (cs : Word) :
    scanUnits (escapeRaw c ++ cs) = (scanUnits cs).map (consUnit c) := by
  by_cases hlow : c < 32
  · rw [escapeRaw_of_lt hlow, scanUnits_escapeUnit (by omega)]
  by_cases hescape : c = 34 ∨ c = 92
  · rw [escapeRaw_of_escape hescape, scanUnits_escapeUnit (by omega)]
  push Not at hlow hescape
  have hchar : (Char.ofNat c).toNat = c := toNat_ofNat h
  have hquote : Char.ofNat c ≠ '"' := fun he => hescape.1 (hchar ▸ congrArg Char.toNat he)
  have hslash : Char.ofNat c ≠ '\\' := fun he => hescape.2 (hchar ▸ congrArg Char.toNat he)
  rw [escapeRaw_self hlow hescape.1 hescape.2, List.singleton_append, scanUnits, hchar, if_neg (by omega)]
  · exact hquote
  · exact fun a b c d cs' he => absurd he hslash
  · exact fun e cs' he => absurd he hslash

lemma NoSurrogates.combine_self (h : NoSurrogates s) : combine s = s := by
  induction s with
  | nil => rfl
  | cons c s ih =>
    rw [NoSurrogates, List.forall_mem_cons] at h
    rw [combine_cons, ih h.2]
    intro d _
    have hc : isHigh c = false := by
      rcases h.1 with hc | hc <;> simp [isHigh] <;> omega
    rw [hc, Bool.false_and]

lemma decodeStr_encodeRaw (h : NoSurrogates s) (cs : Word) :
    decodeStr (encodeRaw s ++ cs) = some (s, cs) := by
  have hscan : scanUnits (s.flatMap escapeRaw ++ '"' :: cs) = some (s, cs) := by
    induction s with
    | nil => rw [List.flatMap_nil, List.nil_append, scanUnits]
    | cons c s ih =>
      rw [NoSurrogates, List.forall_mem_cons] at h
      rw [List.flatMap_cons, List.append_assoc, scanUnits_escapeRaw h.1, ih h.2]
      rfl
  rw [decodeStr, encodeRaw, List.append_assoc, List.singleton_append, hscan, Option.map_some, h.combine_self]

def InLine (c : Char) : Prop := c ≠ '\n' ∧ c ≠ '\r'

instance (c : Char) : Decidable (InLine c) := inferInstanceAs (Decidable (_ ∧ _))

lemma inLine_of_isPrintable {c : Char} (h : isPrintable c = true) : InLine c := by
  constructor <;> rintro rfl <;> exact absurd h (by decide)

/-- The line separators among the others, such as U+2028, are not what a file's lines end with. -/
lemma inLine_escapeRaw (c : ℕ) : ∀ d ∈ escapeRaw c, InLine d := by
  by_cases hlow : c < 32
  · rw [escapeRaw_of_lt hlow]
    exact (printable_escapeUnit c).all fun _ => inLine_of_isPrintable
  by_cases hescape : c = 34 ∨ c = 92
  · rw [escapeRaw_of_escape hescape]
    exact (printable_escapeUnit c).all fun _ => inLine_of_isPrintable
  push Not at hlow hescape
  rw [escapeRaw_self hlow hescape.1 hescape.2, List.forall_mem_singleton]
  by_cases hvalid : c.isValidChar
  · have hchar : (Char.ofNat c).toNat = c := toNat_ofNat hvalid
    constructor <;> intro he <;> rw [he] at hchar <;> rw [← hchar] at hlow <;> exact absurd hlow (by decide)
  · rw [Char.ofNat, dif_neg hvalid]
    decide

lemma inLine_encodeRaw (s : Str) : ∀ c ∈ encodeRaw s, InLine c := by
  rw [encodeRaw, List.forall_mem_append, List.forall_mem_singleton]
  refine ⟨fun d hd => ?_, by decide⟩
  obtain ⟨c, -, hc⟩ := List.mem_flatMap.1 hd
  exact inLine_escapeRaw c d hc

end Strings

def raw : Encoder := { encode := encodeRaw, Valid := NoSurrogates, decode_encode := decodeStr_encodeRaw }

lemma inLine_dumpsRaw {F : Type} (fl : Floats F) (x : Json F) : ∀ c ∈ dumpsWith raw fl x, InLine c :=
  forall_mem_dumpsWith fl (fun _ => inLine_of_isPrintable) inLine_encodeRaw x

end OpsSentry.Foundation.JsonText
