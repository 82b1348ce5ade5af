import Mathlib.Data.Int.Notation
import Mathlib.Tactic.Common

/-! Python strings: those that have a UTF-8 encoding, and those with a lone surrogate, which have none. -/

namespace OpsSentry.Foundation.Strings

def isSurrogate (u : ℕ) : Bool := 0xd800 ≤ u && u < 0xe000

/-- The code points of a string that is not encodable. -/
structure Lone where
  points : List ℕ
  surrogate : points.any isSurrogate = true
deriving DecidableEq, Repr

inductive PyStr
  | text (s : String)
  | lone (s : Lone)
deriving DecidableEq, Repr

instance : Coe String PyStr := ⟨.text⟩

def hex (u : ℕ) : String := String.ofList (Nat.toDigits 16 u)

namespace Lone

/-- As `backslashreplace` writes it. -/
def shown (s : Lone) : String :=
  String.join (s.points.map fun u => if isSurrogate u then "\\u" ++ hex u else String.singleton (Char.ofNat u))

/-- What `str` gives of the `UnicodeEncodeError`. -/
def message (s : Lone) : String :=
  let start := s.points.findIdx isSurrogate
  match (s.points.drop start).takeWhile isSurrogate with
  | [u] => s!"'utf-8' codec can't encode character '\\u{hex u}' in position {start}: surrogates not allowed"
  | us =>
    s!"'utf-8' codec can't encode characters in position {start}-{start + us.length - 1}: surrogates not allowed"

end Lone

namespace PyStr

def encode : PyStr → Except Lone String
  | text s => .ok s
  | lone s => .error s

/-- The string in the text of an error, where a surrogate stands as its escape. -/
def shown : PyStr → String
  | text s => s
  | lone s => s.shown

/-- The string of these code points. -/
def ofPoints (points : List ℕ) : PyStr :=
  if h : points.any isSurrogate = true then .lone ⟨points, h⟩ else .text (String.ofList (points.map Char.ofNat))

def points : PyStr → List ℕ
  | text s => s.toList.map Char.toNat
  | lone s => s.points

@[simp] lemma encode_text (s : String) : encode s = .ok s := rfl
@[simp] lemma encode_lone (s : Lone) : encode (lone s) = .error s := rfl
@[simp] lemma shown_text (s : String) : shown s = s := rfl

lemma encode_eq_ok {s : PyStr} {t : String} : s.encode = .ok t ↔ s = text t := by
  cases s <;> simp

lemma not_isSurrogate_toNat (c : Char) : isSurrogate c.toNat = false := by
  have hvalid := c.valid
  simp only [UInt32.isValidChar, Nat.isValidChar] at hvalid
  change c.toNat < 0xd800 ∨ 0xdfff < c.toNat ∧ c.toNat < 0x110000 at hvalid
  rw [isSurrogate]
  simp
  omega

@[simp] lemma ofPoints_points (s : PyStr) : ofPoints s.points = s := by
  cases s with
  | text s =>
    have hnone : ¬ (s.toList.map Char.toNat).any isSurrogate = true := by
      simp [not_isSurrogate_toNat]
    rw [points, ofPoints, dif_neg hnone, List.map_map]
    have hid : Char.ofNat ∘ Char.toNat = id := funext fun c => Char.ofNat_toNat c
    rw [hid, List.map_id, String.ofList_toList]
  | lone s => exact dif_pos s.surrogate

lemma points_injective : Function.Injective points := Function.LeftInverse.injective ofPoints_points

end PyStr

example : Lone.message ⟨[97, 0xd800], rfl⟩ =
    "'utf-8' codec can't encode character '\\ud800' in position 1: surrogates not allowed" := by decide +kernel

end OpsSentry.Foundation.Strings
