import OpsSentry.Foundation.JsonLexemes

/-! Query strings, as `urllib.parse.urlencode` writes them and `parse_qsl` reads them. -/

namespace OpsSentry.Foundation.Urlencoded

open JsonText (Word hexValue)

abbrev Bytes := List UInt8

def hexDigits : Word := "0123456789ABCDEF".toList

def hexDigit (n : ℕ) : Char := hexDigits.getD n '0'

/-- Letters, digits and `_.-~` stand for themselves. -/
def safe (n : ℕ) : Bool :=
  (48 ≤ n && n ≤ 57) || (65 ≤ n && n ≤ 90) || (97 ≤ n && n ≤ 122) || n = 95 || n = 46 || n = 45 || n = 126

def quoteByte (b : UInt8) : Word :=
  if b.toNat = 32 then ['+']
  else if safe b.toNat then [Char.ofNat b.toNat]
  else ['%', hexDigit (b.toNat / 16), hexDigit (b.toNat % 16)]

def quotePlus (bs : Bytes) : Word := bs.flatMap quoteByte

def field (p : Bytes × Bytes) : Word := quotePlus p.1 ++ '=' :: quotePlus p.2

def urlencode (query : List (Bytes × Bytes)) : Word := ['&'].intercalate (query.map field)

/-- `unquote_plus`: a `%` without two hexadecimal digits is kept. -/
def unquotePlus : Word → Bytes
  | c :: a :: b :: cs =>
    if c = '%' then
      match hexValue a, hexValue b with
      | some h, some l => UInt8.ofNat (h * 16 + l) :: unquotePlus cs
      | _, _ => 37 :: unquotePlus (a :: b :: cs)
    else if c = '+' then 32 :: unquotePlus (a :: b :: cs)
    else String.utf8EncodeChar c ++ unquotePlus (a :: b :: cs)
  | c :: cs => (if c = '+' then [32] else String.utf8EncodeChar c) ++ unquotePlus cs
  | [] => []

/-- One field; a blank value is left out. -/
def readField (name_value : Word) : Option (Bytes × Bytes) :=
  let value := (name_value.dropWhile (· ≠ '=')).drop 1
  if value = [] then none else some (unquotePlus (name_value.takeWhile (· ≠ '=')), unquotePlus value)

def parseQsl (qs : Word) : List (Bytes × Bytes) := (qs.splitOn '&').filterMap readField

lemma hexValue_hexDigit : ∀ n < 16, hexValue (hexDigit n) = some n := by decide +kernel

lemma hexDigit_plain : ∀ n < 16, hexDigit n ≠ '&' ∧ hexDigit n ≠ '=' := by decide +kernel

lemma safe_char : ∀ n < 256, safe n = true → Char.ofNat n ≠ '%' ∧ Char.ofNat n ≠ '+' ∧ Char.ofNat n ≠ '&' ∧
    Char.ofNat n ≠ '=' ∧ String.utf8EncodeChar (Char.ofNat n) = [UInt8.ofNat n] := by decide +kernel

lemma quoteByte_plain (b : UInt8) : ∀ c ∈ quoteByte b, c ≠ '&' ∧ c ≠ '=' := by
  have hb := b.toNat_lt
  rw [quoteByte]
  split
  · simp
  · split
    · rename_i hsafe
      obtain ⟨-, -, hamp, heq, -⟩ := safe_char _ hb hsafe
      simpa using ⟨hamp, heq⟩
    · have hhigh := hexDigit_plain (b.toNat / 16) (by omega)
      have hlow := hexDigit_plain (b.toNat % 16) (by omega)
      simp [hhigh, hlow]

lemma quotePlus_plain (bs : Bytes) : ∀ c ∈ quotePlus bs, c ≠ '&' ∧ c ≠ '=' := by
  intro c hc
  obtain ⟨b, -, hb⟩ := List.mem_flatMap.mp hc
  exact quoteByte_plain b c hb

lemma quoteByte_ne_nil (b : UInt8) : quoteByte b ≠ [] := by
  rw [quoteByte]
  split
  · simp
  · split <;> simp

lemma unquotePlus_cons {c : Char} (hc : c ≠ '%') (hc' : c ≠ '+') (cs : Word) :
    unquotePlus (c :: cs) = String.utf8EncodeChar c ++ unquotePlus cs := by
  cases cs with
  | nil => simp [unquotePlus, hc']
  | cons a cs =>
    cases cs with
    | nil => simp [unquotePlus, hc']
    | cons b cs => rw [unquotePlus, if_neg hc, if_neg hc']

lemma unquotePlus_plus (cs : Word) : unquotePlus ('+' :: cs) = 32 :: unquotePlus cs := by
  cases cs with
  | nil => rfl
  | cons a cs =>
    cases cs with
    | nil => rfl
    | cons b cs => rfl

lemma unquotePlus_quoteByte (b : UInt8) (cs : Word) : unquotePlus (quoteByte b ++ cs) = b :: unquotePlus cs := by
  have hb := b.toNat_lt
  rw [quoteByte]
  split
  · rename_i hspace
    rw [List.singleton_append, unquotePlus_plus]
    exact congrArg (· :: _) (UInt8.toNat_inj.mp hspace.symm)
  · split
    · rename_i hsafe
      obtain ⟨hpercent, hplus, -, -, hencode⟩ := safe_char _ hb hsafe
      rw [List.singleton_append, unquotePlus_cons hpercent hplus, hencode, UInt8.ofNat_toNat]
      rfl
    · have hsum : b.toNat / 16 * 16 + b.toNat % 16 = b.toNat := by omega
      rw [List.cons_append, List.cons_append, List.singleton_append, unquotePlus, if_pos rfl,
        hexValue_hexDigit _ (by omega), hexValue_hexDigit _ (by omega)]
      dsimp only
      rw [hsum, UInt8.ofNat_toNat]

lemma unquotePlus_quotePlus (bs : Bytes) : unquotePlus (quotePlus bs) = bs := by
  induction bs with
  | nil => rfl
  | cons b bs ih => rw [quotePlus, List.flatMap_cons, unquotePlus_quoteByte, ← quotePlus, ih]

lemma readField_field {p : Bytes × Bytes} (h : p.2 ≠ []) : readField (field p) = some p := by
  have hname : ∀ c ∈ quotePlus p.1, decide (c ≠ '=') = true := fun c hc => decide_eq_true (quotePlus_plain p.1 c hc).2
  have htake : (field p).takeWhile (· ≠ '=') = quotePlus p.1 := by
    rw [field, List.takeWhile_append_of_pos hname]
    simp
  have hdrop : (field p).dropWhile (· ≠ '=') = '=' :: quotePlus p.2 := by
    rw [field, List.dropWhile_append_of_pos hname]
    simp
  have hvalue : quotePlus p.2 ≠ [] := by
    cases hp : p.2 with
    | nil => exact absurd hp h
    | cons b bs =>
      rw [quotePlus, List.flatMap_cons]
      exact List.append_ne_nil_of_left_ne_nil (quoteByte_ne_nil b) _
  rw [readField, htake, hdrop, List.drop_one, List.tail_cons, if_neg hvalue, unquotePlus_quotePlus, unquotePlus_quotePlus]

/-- Pairs without a blank value are read as they were written. -/
theorem parseQsl_urlencode {query : List (Bytes × Bytes)} (h : ∀ p ∈ query, p.2 ≠ []) :
    parseQsl (urlencode query) = query := by
  cases hquery : query with
  | nil => rfl
  | cons p ps =>
    rw [← hquery]
    have hplain : ∀ w ∈ query.map field, '&' ∉ w := by
      intro w hw hmem
      obtain ⟨q, -, rfl⟩ := List.mem_map.mp hw
      rcases List.mem_append.mp hmem with hmem | hmem
      · exact (quotePlus_plain q.1 _ hmem).1 rfl
      · rcases List.mem_cons.mp hmem with hmem | hmem
        · cases hmem
        · exact (quotePlus_plain q.2 _ hmem).1 rfl
    have hne : query.map field ≠ [] := by simp [hquery]
    rw [parseQsl, urlencode, List.splitOn_intercalate '&' hplain hne, List.filterMap_map]
    have hread : ∀ q ∈ query, (readField ∘ field) q = some q := fun q hq => readField_field (h q hq)
    rw [List.filterMap_congr hread, List.filterMap_some]

end OpsSentry.Foundation.Urlencoded
