import Mathlib.Data.List.Basic
import Mathlib.Tactic.Common

/-! Base64 with padding. -/

namespace OpsSentry.Foundation.Base64

def alphabet : List Char := "ABCDEFGHIJKLMNOPQRSTUVWXYZabcdefghijklmnopqrstuvwxyz0123456789+/".toList

def digit (n : ℕ) : Char := alphabet.getD n '='

def value (c : Char) : Option ℕ := alphabet.idxOf? c

def encode : List UInt8 → List Char
  | [] => []
  | [a] => [digit (a.toNat / 4), digit (a.toNat % 4 * 16), '=', '=']
  | [a, b] => [digit (a.toNat / 4), digit (a.toNat % 4 * 16 + b.toNat / 16), digit (b.toNat % 16 * 4), '=']
  | a :: b :: c :: bs =>
    digit (a.toNat / 4) :: digit (a.toNat % 4 * 16 + b.toNat / 16) :: digit (b.toNat % 16 * 4 + c.toNat / 64) ::
      digit (c.toNat % 64) :: encode bs

def byte (n : ℕ) : UInt8 := UInt8.ofNat n

/-- The bytes of four digits, of which the last two may be padding. -/
def quantum (a b c d : Char) : Option (List UInt8) := do
  let w ← value a
  let x ← value b
  let first := byte (w * 4 + x / 16)
  if c = '=' then if d = '=' then some [first] else none
  else
    let y ← value c
    let second := byte (x % 16 * 16 + y / 4)
    if d = '=' then some [first, second]
    else
      let z ← value d
      pure [first, second, byte (y % 4 * 64 + z)]

def decode : List Char → Option (List UInt8)
  | [] => some []
  | a :: b :: c :: d :: cs => do
    let bytes ← quantum a b c d
    let rest ← decode cs
    if d = '=' ∧ cs ≠ [] then none else pure (bytes ++ rest)
  | _ => none

lemma value_digit : ∀ n < 64, value (digit n) = some n := by decide +kernel

lemma digit_ne_pad : ∀ n < 64, digit n ≠ '=' := by decide +kernel

lemma digit_ascii : ∀ n < 64, (digit n).toNat < 128 := by decide +kernel

lemma byte_toNat {a : UInt8} {n : ℕ} (h : n = a.toNat) : byte n = a := by
  rw [byte, h, UInt8.ofNat_toNat]

section Quantum

variable (a b c : UInt8)

lemma quantum_one : quantum (digit (a.toNat / 4)) (digit (a.toNat % 4 * 16)) '=' '=' = some [a] := by
  have ha := a.toNat_lt
  have hfirst : byte (a.toNat / 4 * 4 + a.toNat % 4 * 16 / 16) = a := byte_toNat (by omega)
  rw [quantum, value_digit _ (by omega), value_digit _ (by omega)]
  simp only [Option.bind_eq_bind, Option.bind_some, if_true, hfirst]

lemma quantum_two : quantum (digit (a.toNat / 4)) (digit (a.toNat % 4 * 16 + b.toNat / 16)) (digit (b.toNat % 16 * 4)) '=' =
    some [a, b] := by
  have ha := a.toNat_lt
  have hb := b.toNat_lt
  have hfirst : byte (a.toNat / 4 * 4 + (a.toNat % 4 * 16 + b.toNat / 16) / 16) = a := byte_toNat (by omega)
  have hsecond : byte ((a.toNat % 4 * 16 + b.toNat / 16) % 16 * 16 + b.toNat % 16 * 4 / 4) = b := byte_toNat (by omega)
  have hpad := digit_ne_pad (b.toNat % 16 * 4) (by omega)
  rw [quantum, value_digit _ (by omega), value_digit _ (by omega), value_digit _ (by omega)]
  simp only [Option.bind_eq_bind, Option.bind_some, if_true, if_neg hpad, hfirst, hsecond]

lemma quantum_three : quantum (digit (a.toNat / 4)) (digit (a.toNat % 4 * 16 + b.toNat / 16))
    (digit (b.toNat % 16 * 4 + c.toNat / 64)) (digit (c.toNat % 64)) = some [a, b, c] := by
  have ha := a.toNat_lt
  have hb := b.toNat_lt
  have hc := c.toNat_lt
  have hfirst : byte (a.toNat / 4 * 4 + (a.toNat % 4 * 16 + b.toNat / 16) / 16) = a := byte_toNat (by omega)
  have hsecond : byte ((a.toNat % 4 * 16 + b.toNat / 16) % 16 * 16 + (b.toNat % 16 * 4 + c.toNat / 64) / 4) = b :=
    byte_toNat (by omega)
  have hthird : byte ((b.toNat % 16 * 4 + c.toNat / 64) % 4 * 64 + c.toNat % 64) = c := byte_toNat (by omega)
  have hpad := digit_ne_pad (b.toNat % 16 * 4 + c.toNat / 64) (by omega)
  have hpad' := digit_ne_pad (c.toNat % 64) (by omega)
  rw [quantum, value_digit _ (by omega), value_digit _ (by omega), value_digit _ (by omega), value_digit _ (by omega)]
  simp only [Option.bind_eq_bind, Option.bind_some, if_neg hpad, if_neg hpad', hfirst, hsecond, hthird, Option.pure_def]

end Quantum

theorem decode_encode (bs : List UInt8) : decode (encode bs) = some bs := by
  induction bs using encode.induct with
  | case1 => rfl
  | case2 a => simp [encode, decode, quantum_one]
  | case3 a b => simp [encode, decode, quantum_two]
  | case4 a b c bs ih =>
    have hpad := digit_ne_pad (c.toNat % 64) (by have := c.toNat_lt; omega)
    simp [encode, decode, quantum_three, ih, hpad]

lemma encode_injective : Function.Injective encode := by
  intro bs cs h
  have hdecode := congrArg decode h
  rwa [decode_encode, decode_encode, Option.some.injEq] at hdecode

lemma encode_ne_nil {bs : List UInt8} (h : bs ≠ []) : encode bs ≠ [] :=
  fun hempty => h (encode_injective hempty)

lemma encode_ascii (bs : List UInt8) : ∀ c ∈ encode bs, c.toNat < 128 := by
  induction bs using encode.induct with
  | case1 => simp [encode]
  | case2 a =>
    have ha := a.toNat_lt
    simp only [encode, List.forall_mem_cons, List.not_mem_nil, false_implies, implies_true, and_true]
    exact ⟨digit_ascii _ (by omega), digit_ascii _ (by omega), by decide, by decide⟩
  | case3 a b =>
    have ha := a.toNat_lt
    have hb := b.toNat_lt
    simp only [encode, List.forall_mem_cons, List.not_mem_nil, false_implies, implies_true, and_true]
    exact ⟨digit_ascii _ (by omega), digit_ascii _ (by omega), digit_ascii _ (by omega), by decide⟩
  | case4 a b c bs ih =>
    have ha := a.toNat_lt
    have hb := b.toNat_lt
    have hc := c.toNat_lt
    simp only [encode, List.forall_mem_cons]
    exact ⟨digit_ascii _ (by omega), digit_ascii _ (by omega), digit_ascii _ (by omega), digit_ascii _ (by omega), ih⟩

end OpsSentry.Foundation.Base64
