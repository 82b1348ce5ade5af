import OpsSentry.Foundation.JsonKeys
import OpsSentry.Foundation.Sections

/-! What `json.dumps` writes is one line: of printable characters, or, with `ensure_ascii=False`, of
those and what the strings hold. -/

namespace OpsSentry.Foundation.JsonText

open Sections (forall_mem_intercalate)

def isPrintable (c : Char) : Bool := 32 ≤ c.toNat && c.toNat ≤ 126

/-- A text of printable characters. -/
def Printable (w : Word) : Prop := ∀ c ∈ w, isPrintable c = true

section Printable

variable {v w : Word} {c : Char}

lemma printable_nil : Printable [] := List.forall_mem_nil _

lemma printable_cons_iff : Printable (c :: w) ↔ isPrintable c = true ∧ Printable w := List.forall_mem_cons

lemma printable_of_all (h : w.all isPrintable = true) : Printable w := List.all_eq_true.mp h

lemma printable_append_iff : Printable (v ++ w) ↔ Printable v ∧ Printable w := List.forall_mem_append

lemma isPrintable_of_isDigit (h : c.isDigit = true) : isPrintable c = true := by
  rw [Char.isDigit, Bool.and_eq_true, decide_eq_true_eq, decide_eq_true_eq] at h
  obtain ⟨hlow, hhigh⟩ := h
  have hlow' : 48 ≤ c.toNat := hlow
  have hhigh' : c.toNat ≤ 57 := hhigh
  rw [isPrintable, Bool.and_eq_true, decide_eq_true_eq, decide_eq_true_eq]
  omega

lemma printable_digits (h : Digits w) : Printable w := fun c hc => isPrintable_of_isDigit (h c hc)

lemma printable_numeral {sign int frac exp : Word} (h : Numeral sign int frac exp) :
    Printable (sign ++ (int ++ (frac ++ exp))) := by
  simp only [printable_append_iff]
  refine ⟨?_, ?_, ?_, ?_⟩
  · rcases h.sign with rfl | rfl
    · exact printable_nil
    · exact printable_cons_iff.mpr ⟨rfl, printable_nil⟩
  · rcases h.int with rfl | ⟨-, -, hdigits⟩
    · exact printable_cons_iff.mpr ⟨rfl, printable_nil⟩
    · exact printable_digits hdigits
  · rcases h.frac with rfl | ⟨ds, -, hdigits, rfl⟩
    · exact printable_nil
    · exact printable_cons_iff.mpr ⟨rfl, printable_digits hdigits⟩
  · rcases h.exp with rfl | ⟨e, s, ds, he, hs, -, hdigits, rfl⟩
    · exact printable_nil
    · rw [printable_cons_iff, printable_append_iff]
      refine ⟨?_, ?_, printable_digits hdigits⟩
      · rcases he with rfl | rfl <;> rfl
      · rcases hs with rfl | rfl | rfl
        · exact printable_nil
        · exact printable_cons_iff.mpr ⟨rfl, printable_nil⟩
        · exact printable_cons_iff.mpr ⟨rfl, printable_nil⟩

lemma printable_decimal (n : ℤ) : Printable (decimal n) := by
  have hnumeral := printable_numeral (numeral_decimal n)
  rw [List.append_nil, List.append_nil] at hnumeral
  exact hnumeral

lemma printable_hex (u : ℕ) : Printable (hex u) := by
  have hdigit : ∀ d < 16, isPrintable (Nat.digitChar d) = true := by decide
  have hmod (n : ℕ) : isPrintable (Nat.digitChar (n % 16)) = true := hdigit _ (Nat.mod_lt _ (by decide))
  intro c hc
  simp only [hex, List.mem_cons, List.not_mem_nil, or_false] at hc
  rcases hc with rfl | rfl | rfl | rfl <;> exact hmod _

lemma printable_escapeUnit (u : ℕ) : Printable (escapeUnit u) := by
  rw [escapeUnit]
  split
  · rename_i e he
    have hall : ∀ e ∈ escapes, isPrintable e.1 = true := by decide
    rw [printable_cons_iff, printable_cons_iff]
    exact ⟨rfl, hall e (List.mem_of_find?_eq_some he), printable_nil⟩
  · split
    · rename_i hu
      rw [printable_cons_iff]
      refine ⟨?_, printable_nil⟩
      have hchar : ∀ u < 127, 32 ≤ u → isPrintable (Char.ofNat u) = true := by decide
      exact hchar u (by omega) hu.1
    · rw [printable_cons_iff, printable_cons_iff]
      exact ⟨rfl, rfl, printable_hex u⟩

lemma printable_encodeStr (s : Str) : Printable (encodeStr s) := by
  rw [encodeStr, printable_append_iff]
  refine ⟨fun c hc => ?_, printable_cons_iff.mpr ⟨rfl, printable_nil⟩⟩
  obtain ⟨u, -, hu⟩ := List.mem_flatMap.mp hc
  exact printable_escapeUnit u c hu

end Printable

section Dumps

variable {F : Type} {enc : Encoder} (fl : Floats F)

section Characters

variable {p : Char → Prop}

lemma Printable.all {w : Word} (h : Printable w) (hp : ∀ c, isPrintable c = true → p c) : ∀ c ∈ w, p c :=
  fun c hc => hp c (h c hc)

mutual

lemma forall_mem_dumpsWith (hp : ∀ c, isPrintable c = true → p c) (henc : ∀ s, ∀ c ∈ enc.encode s, p c)
    (x : Json F) : ∀ c ∈ dumpsWith enc fl x, p c := by
  have hcomma : ∀ c ∈ ", ".toList, p c := (printable_of_all (by decide)).all hp
  cases x with
  | null => exact (printable_of_all (w := "null".toList) (by decide)).all hp
  | bool b =>
    cases b with
    | false => exact (printable_of_all (w := "false".toList) (by decide)).all hp
    | true => exact (printable_of_all (w := "true".toList) (by decide)).all hp
  | int n => exact (printable_decimal n).all hp
  | float x =>
    obtain ⟨sign, int, frac, exp, hnumeral, -, htext⟩ := fl.float_text x
    rw [dumpsWith_float, htext]
    exact (printable_numeral hnumeral).all hp
  | str s => exact List.forall_mem_cons.mpr ⟨hp _ rfl, henc s⟩
  | arr xs =>
    rw [dumpsWith_arr, List.forall_mem_cons, List.forall_mem_append, forall_mem_intercalate hcomma]
    exact ⟨hp _ rfl, forall_mem_dumpsListWith hp henc xs, List.forall_mem_singleton.mpr (hp _ rfl)⟩
  | obj kvs =>
    rw [dumpsWith_obj, List.forall_mem_cons, List.forall_mem_append, forall_mem_intercalate hcomma]
    exact ⟨hp _ rfl, forall_mem_dumpsFieldsWith hp henc kvs, List.forall_mem_singleton.mpr (hp _ rfl)⟩

lemma forall_mem_dumpsListWith (hp : ∀ c, isPrintable c = true → p c) (henc : ∀ s, ∀ c ∈ enc.encode s, p c)
    (xs : List (Json F)) : ∀ w ∈ dumpsListWith enc fl xs, ∀ c ∈ w, p c := by
  cases xs with
  | nil => exact List.forall_mem_nil _
  | cons x xs =>
    rw [dumpsListWith]
    exact List.forall_mem_cons.mpr ⟨forall_mem_dumpsWith hp henc x, forall_mem_dumpsListWith hp henc xs⟩

lemma forall_mem_dumpsFieldsWith (hp : ∀ c, isPrintable c = true → p c)
    (henc : ∀ s, ∀ c ∈ enc.encode s, p c)
    (kvs : List (Str × Json F)) : ∀ w ∈ dumpsFieldsWith enc fl kvs, ∀ c ∈ w, p c := by
  cases kvs with
  | nil => exact List.forall_mem_nil _
  | cons q kvs =>
    rw [dumpsFieldsWith]
    refine List.forall_mem_cons.mpr ⟨?_, forall_mem_dumpsFieldsWith hp henc kvs⟩
    have hcolon : ∀ c ∈ ": ".toList, p c := (printable_of_all (by decide)).all hp
    rw [List.forall_mem_cons, List.forall_mem_append, List.forall_mem_append]
    exact ⟨hp _ rfl, henc q.1, hcolon, forall_mem_dumpsWith hp henc q.2⟩

end

end Characters

lemma printable_dumps (x : Json F) : Printable (dumps fl x) := by
  rw [dumps_eq]
  have henc : ∀ s, ∀ c ∈ ascii.encode s, isPrintable c = true := printable_encodeStr
  exact forall_mem_dumpsWith fl (fun _ hc => hc) henc x

lemma printable_dumpsSorted (x : Json F) : Printable (dumpsSorted fl x) := printable_dumps fl (sortKeys x)

end Dumps

lemma Printable.notMem {w : Word} (h : Printable w) {c : Char} (hc : isPrintable c = false) : c ∉ w := by
  intro hmem
  rw [h c hmem] at hc
  cases hc

end OpsSentry.Foundation.JsonText
