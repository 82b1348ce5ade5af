import Mathlib.Algebra.BigOperators.Group.List.Basic
import Mathlib.Tactic.Common
import Mathlib.Tactic.IntervalCases
import Mathlib.Tactic.Linarith

/-! Decoding UTF-8: a byte sequence as characters and ill-formed pieces. A piece that is ill-formed
is as long as a character could still begin that way, and a replacement character stands for it. -/

namespace OpsSentry.Foundation.Utf8

/-- A character that has begun: its bits and bytes so far, the bounds of its next byte, and how many
bytes follow behind that. -/
structure Begun where
  bits : ℕ
  taken : ℕ
  low : ℕ
  high : ℕ
  more : ℕ

inductive Piece
  | char (c : Char)
  | bad (taken : ℕ)

namespace Piece

def size : Piece → ℕ
  | char c => c.utf8Size
  | bad taken => taken

def replaced : Piece → Char
  | char c => c
  | bad _ => '\ufffd'

/-- How many bytes a replacement character has more than what it replaces. -/
def growth : Piece → ℕ
  | char _ => 0
  | bad taken => 3 - taken

def valid : Piece → Option Char
  | char c => some c
  | bad _ => none

@[simp] lemma size_char (c : Char) : (char c).size = c.utf8Size := rfl
@[simp] lemma size_bad (n : ℕ) : (bad n).size = n := rfl
@[simp] lemma replaced_char (c : Char) : (char c).replaced = c := rfl
@[simp] lemma growth_char (c : Char) : (char c).growth = 0 := rfl
@[simp] lemma valid_char (c : Char) : (char c).valid = some c := rfl

lemma size_replaced {x : Piece} (h : x.size ≤ 3 ∨ ∃ c, x = char c) :
    x.replaced.utf8Size = x.size + x.growth := by
  cases x with
  | char c => simp
  | bad n =>
    have hn : n ≤ 3 := by simpa using h
    have hs : (bad n).replaced.utf8Size = 3 := rfl
    simp only [hs, size_bad, growth]
    omega

end Piece

def lead (b : ℕ) : Option Begun :=
  if 0xC2 ≤ b ∧ b ≤ 0xDF then some ⟨b - 0xC0, 1, 0x80, 0xBF, 0⟩
  else if b = 0xE0 then some ⟨0, 1, 0xA0, 0xBF, 1⟩
  else if b = 0xED then some ⟨13, 1, 0x80, 0x9F, 1⟩
  else if 0xE1 ≤ b ∧ b ≤ 0xEF then some ⟨b - 0xE0, 1, 0x80, 0xBF, 1⟩
  else if b = 0xF0 then some ⟨0, 1, 0x90, 0xBF, 2⟩
  else if 0xF1 ≤ b ∧ b ≤ 0xF3 then some ⟨b - 0xF0, 1, 0x80, 0xBF, 2⟩
  else if b = 0xF4 then some ⟨4, 1, 0x80, 0x8F, 2⟩
  else none

def start (b : ℕ) : List Piece × Option Begun :=
  if b < 0x80 then ([.char (Char.ofNat b)], none)
  else
    match lead b with
    | some p => ([], some p)
    | none => ([.bad 1], none)

namespace Begun

def bitsWith (p : Begun) (b : ℕ) : ℕ := p.bits * 64 + (b - 0x80)

def next (p : Begun) (b : ℕ) : Begun := ⟨p.bitsWith b, p.taken + 1, 0x80, 0xBF, p.more - 1⟩

def step (p : Begun) (b : ℕ) : List Piece × Option Begun :=
  if p.low ≤ b ∧ b ≤ p.high then
    if p.more = 0 then ([.char (Char.ofNat (p.bitsWith b))], none) else ([], some (p.next b))
  else (.bad p.taken :: (start b).1, (start b).2)

/-- Every way to go on gives a scalar value that takes as many bytes as are counted. -/
structure Sound (p : Begun) : Prop where
  bytes : p.taken + p.more ≤ 3
  low : 0x80 ≤ p.low
  high : p.high ≤ 0xBF
  begun : 0 < p.taken
  value : ∀ v, p.bitsWith p.low * 64 ^ p.more ≤ v → v < (p.bitsWith p.high + 1) * 64 ^ p.more →
    v.isValidChar ∧ (Char.ofNat v).utf8Size = p.taken + p.more + 1

end Begun

def step : Option Begun → ℕ → List Piece × Option Begun
  | none, b => start b
  | some p, b => p.step b

def pieces : Option Begun → List UInt8 → List Piece
  | none, [] => []
  | some p, [] => [.bad p.taken]
  | p, b :: bs => (step p b.toNat).1 ++ pieces (step p b.toNat).2 bs

def decode (bs : List UInt8) : List Char := (pieces none bs).map Piece.replaced

/-- The characters of a sequence without an ill-formed piece. -/
def decodeStrict (bs : List UInt8) : Option (List Char) := (pieces none bs).mapM Piece.valid

def growth (bs : List UInt8) : ℕ := ((pieces none bs).map Piece.growth).sum

section Values

lemma toNat_ofNat {v : ℕ} (h : v.isValidChar) : (Char.ofNat v).val.toNat = v := by
  rw [Char.ofNat, dif_pos h]
  rfl

lemma utf8Size_eq (c : Char) : c.utf8Size =
    if c.val.toNat ≤ 0x7F then 1 else if c.val.toNat ≤ 0x7FF then 2
    else if c.val.toNat ≤ 0xFFFF then 3 else 4 := rfl

lemma utf8Size_ofNat {v : ℕ} (h : v.isValidChar) : (Char.ofNat v).utf8Size =
    if v ≤ 0x7F then 1 else if v ≤ 0x7FF then 2 else if v ≤ 0xFFFF then 3 else 4 := by
  rw [utf8Size_eq, toNat_ofNat h]

end Values

section Sizes

variable {p : Begun} {b : ℕ}

lemma Begun.Sound.of_bounds {bits low high more : ℕ} (hmore : more ≤ 2) (hlow : 0x80 ≤ low)
    (hhigh : high ≤ 0xBF)
    (h : ∀ v, (bits * 64 + (low - 0x80)) * 64 ^ more ≤ v → v < (bits * 64 + (high - 0x80) + 1) * 64 ^ more →
      v.isValidChar ∧ (Char.ofNat v).utf8Size = more + 2) : Begun.Sound ⟨bits, 1, low, high, more⟩ where
  bytes := by show 1 + more ≤ 3; omega
  low := hlow
  high := hhigh
  begun := Nat.one_pos
  value v h₁ h₂ := by
    obtain ⟨hv, hs⟩ := h v h₁ h₂
    exact ⟨hv, by simpa [Nat.add_comm, Nat.add_left_comm] using hs⟩

lemma lead_sound (h : lead b = some p) : p.Sound := by
  unfold lead at h
  split_ifs at h
  all_goals
    obtain rfl := Option.some.inj h
    refine Begun.Sound.of_bounds (by omega) (by omega) (by omega) fun v h₁ h₂ => ?_
    norm_num at h₁ h₂
    have hv : v.isValidChar := by simp only [Nat.isValidChar]; omega
    refine ⟨hv, ?_⟩
    rw [utf8Size_ofNat hv]
    split_ifs <;> omega

namespace Begun

lemma bitsWith_mono {a b : ℕ} (h : a ≤ b) : p.bitsWith a ≤ p.bitsWith b :=
  Nat.add_le_add_left (Nat.sub_le_sub_right h _) _

lemma bitsWith_low {q : Begun} {k : ℕ} (h : q.bits = k) : q.bitsWith 0x80 = k * 64 := by
  unfold bitsWith
  rw [h, Nat.sub_self, Nat.add_zero]

lemma bitsWith_high {q : Begun} {k : ℕ} (h : q.bits = k) : q.bitsWith 0xBF + 1 = (k + 1) * 64 := by
  unfold bitsWith
  rw [h, Nat.add_mul, Nat.add_assoc]

lemma next_first : (p.next b).bitsWith (p.next b).low = p.bitsWith b * 64 := bitsWith_low rfl

lemma next_last : (p.next b).bitsWith (p.next b).high + 1 = (p.bitsWith b + 1) * 64 := bitsWith_high rfl

lemma Sound.next (hp : p.Sound) (hm : p.more ≠ 0) (hl : p.low ≤ b) (hh : b ≤ p.high) :
    (p.next b).Sound where
  bytes := by
    have := hp.bytes
    show p.taken + 1 + (p.more - 1) ≤ 3
    omega
  low := Nat.le_refl _
  high := Nat.le_refl _
  begun := Nat.succ_pos _
  value v h₁ h₂ := by
    obtain ⟨m, hm'⟩ := Nat.exists_eq_succ_of_ne_zero hm
    have hmore : (p.next b).more = m := by simp [Begun.next, hm']
    have hpow : (64 : ℕ) ^ p.more = 64 * 64 ^ m := by rw [hm', Nat.pow_succ, Nat.mul_comm]
    rw [next_first, hmore] at h₁
    rw [next_last, hmore] at h₂
    have hle : p.bitsWith p.low * 64 ^ p.more ≤ v := by
      calc p.bitsWith p.low * 64 ^ p.more ≤ p.bitsWith b * 64 ^ p.more := Nat.mul_le_mul_right _ (bitsWith_mono hl)
        _ = p.bitsWith b * 64 * 64 ^ m := by rw [hpow, Nat.mul_assoc]
        _ ≤ v := h₁
    have hlt : v < (p.bitsWith p.high + 1) * 64 ^ p.more := by
      calc v < (p.bitsWith b + 1) * 64 * 64 ^ m := h₂
        _ = (p.bitsWith b + 1) * 64 ^ p.more := by rw [hpow, Nat.mul_assoc]
        _ ≤ _ := Nat.mul_le_mul_right _ (Nat.succ_le_succ (bitsWith_mono hh))
    obtain ⟨hv, hs⟩ := hp.value v hle hlt
    refine ⟨hv, ?_⟩
    rw [hs, hmore, hm']
    show p.taken + (m + 1) + 1 = p.taken + 1 + m + 1
    omega

end Begun

def taken : Option Begun → ℕ
  | none => 0
  | some p => p.taken

def Sound (p : Option Begun) : Prop := ∀ q ∈ p, Begun.Sound q

lemma sound_none : Sound none := fun _ h => by cases h

/-- What every piece is: a character, or at most three bytes. -/
def Short (x : Piece) : Prop := x.size ≤ 3 ∨ ∃ c, x = .char c

/-- One byte: sound states stay sound, and no byte is lost. -/
structure StepSpec (before : ℕ) (r : List Piece × Option Begun) : Prop where
  sound : Sound r.2
  short : ∀ x ∈ r.1, Short x
  size : (r.1.map Piece.size).sum + taken r.2 = before + 1

lemma lead_taken (h : lead b = some p) : p.taken = 1 := by
  unfold lead at h
  split_ifs at h
  all_goals
    obtain rfl := Option.some.inj h
    rfl

lemma start_spec : StepSpec 0 (start b) := by
  unfold start
  split_ifs with hb
  · have hv : b.isValidChar := by simp only [Nat.isValidChar]; omega
    have hs : (Char.ofNat b).utf8Size = 1 := by rw [utf8Size_ofNat hv, if_pos (by omega)]
    exact ⟨sound_none, by simp [Short], by simp [taken, hs]⟩
  · cases hp : lead b with
    | none => exact ⟨sound_none, by simp [Short], by simp [taken]⟩
    | some p => exact ⟨by simpa [Sound] using lead_sound hp, by simp, by simp [taken, lead_taken hp]⟩

lemma Begun.Sound.step (hp : p.Sound) : StepSpec p.taken (p.step b) := by
  unfold Begun.step
  split_ifs with hb hm
  · have hv := hp.value (p.bitsWith b)
    simp only [hm, Nat.pow_zero, Nat.mul_one, Nat.add_zero] at hv
    obtain ⟨-, hs⟩ := hv (bitsWith_mono hb.1) (Nat.lt_succ_of_le (bitsWith_mono hb.2))
    exact ⟨sound_none, by simp [Short], by simp [Utf8.taken, hs]⟩
  · exact ⟨by simpa [Utf8.Sound] using hp.next hm hb.1 hb.2, by simp, by simp [Utf8.taken, Begun.next]⟩
  · obtain ⟨hsound, hshort, hsize⟩ := start_spec (b := b)
    refine ⟨hsound, ?_, ?_⟩
    · have := hp.bytes
      intro x hx
      rcases List.mem_cons.mp hx with rfl | hx
      · exact Or.inl (by simp only [Piece.size_bad]; omega)
      · exact hshort x hx
    · simp only [List.map_cons, List.sum_cons, Piece.size_bad]
      omega

lemma step_spec {p : Option Begun} (hp : Sound p) : StepSpec (taken p) (step p b) := by
  cases p with
  | none => exact start_spec
  | some p => exact (hp p rfl).step

lemma pieces_short {p : Option Begun} (hp : Sound p) (bs : List UInt8) : ∀ x ∈ pieces p bs, Short x := by
  induction bs generalizing p with
  | nil =>
    cases p with
    | none => simp [pieces]
    | some p =>
      have := (hp p rfl).bytes
      simp only [pieces, List.mem_singleton, forall_eq]
      exact Or.inl (by simp only [Piece.size_bad]; omega)
  | cons b bs ih =>
    have hs := step_spec (b := b.toNat) hp
    intro x hx
    rcases List.mem_append.mp (by simpa only [pieces] using hx) with hx | hx
    · exact hs.short x hx
    · exact ih hs.sound x hx

lemma pieces_size {p : Option Begun} (hp : Sound p) (bs : List UInt8) :
    ((pieces p bs).map Piece.size).sum = taken p + bs.length := by
  induction bs generalizing p with
  | nil => cases p <;> simp [pieces, taken]
  | cons b bs ih =>
    have hs := step_spec (b := b.toNat) hp
    have hsize := hs.size
    simp only [pieces, List.map_append, List.sum_append, ih hs.sound, List.length_cons]
    omega

lemma sum_replaced {xs : List Piece} (h : ∀ x ∈ xs, Short x) :
    (xs.map (Char.utf8Size ∘ Piece.replaced)).sum = (xs.map Piece.size).sum + (xs.map Piece.growth).sum := by
  induction xs with
  | nil => rfl
  | cons x xs ih =>
    have hx := Piece.size_replaced (h x List.mem_cons_self)
    have ih := ih fun y hy => h y (List.mem_cons_of_mem _ hy)
    simp only [List.map_cons, List.sum_cons, Function.comp_apply, hx, ih]
    omega

/-- Encoding the decoded text again. -/
theorem size_decode (bs : List UInt8) : ((decode bs).map Char.utf8Size).sum = bs.length + growth bs := by
  have hs := pieces_size sound_none bs
  rw [decode, List.map_map, sum_replaced (pieces_short sound_none bs), hs, growth]
  simp [taken]

end Sizes

lemma utf8ByteSize_ofList (cs : List Char) :
    (String.ofList cs).utf8ByteSize = (cs.map Char.utf8Size).sum := by
  induction cs with
  | nil => rfl
  | cons c cs ih =>
    have h : String.ofList (c :: cs) = String.singleton c ++ String.ofList cs := by
      apply String.toList_injective
      simp
    rw [h, String.utf8ByteSize_append, String.utf8ByteSize_singleton, ih, List.map_cons, List.sum_cons]

section Encoded

variable {p : Begun} {bs : List UInt8} {a k m l n : ℕ}

lemma pieces_cons {q : Option Begun} (hn : n < 256) :
    pieces q (UInt8.ofNat n :: bs) = (step q n).1 ++ pieces (step q n).2 bs := by
  rw [pieces, UInt8.toNat_ofNat_of_lt' hn]

lemma pieces_ascii (hn : n < 0x80) :
    pieces none (UInt8.ofNat n :: bs) = .char (Char.ofNat n) :: pieces none bs := by
  rw [pieces_cons (by omega), step, start, if_pos hn]
  rfl

lemma pieces_lead (hn : 0x80 ≤ n) (hb : n < 256) (h : lead n = some p) :
    pieces none (UInt8.ofNat n :: bs) = pieces (some p) bs := by
  rw [pieces_cons hb, step, start, if_neg (by omega), h]
  rfl

lemma bitsWith_add : p.bitsWith (l + 0x80) = p.bits * 64 + l := by
  unfold Begun.bitsWith
  rw [Nat.add_sub_cancel]

lemma pieces_more (hl : p.low ≤ l + 0x80) (hh : l + 0x80 ≤ p.high) (hb : l < 64) (hm : p.more ≠ 0) :
    pieces (some p) (UInt8.ofNat (l + 0x80) :: bs) =
      pieces (some ⟨p.bits * 64 + l, p.taken + 1, 0x80, 0xBF, p.more - 1⟩) bs := by
  rw [pieces_cons (by omega), step, Begun.step, if_pos ⟨hl, hh⟩, if_neg hm, Begun.next, bitsWith_add,
    List.nil_append]

lemma pieces_last (hl : p.low ≤ l + 0x80) (hh : l + 0x80 ≤ p.high) (hb : l < 64) (hm : p.more = 0) :
    pieces (some p) (UInt8.ofNat (l + 0x80) :: bs) = .char (Char.ofNat (p.bits * 64 + l)) :: pieces none bs := by
  rw [pieces_cons (by omega), step, Begun.step, if_pos ⟨hl, hh⟩, if_pos hm, bitsWith_add,
    List.singleton_append]

lemma pieces_two (ha : 2 ≤ a) (ha' : a < 32) (hl : l < 64) :
    pieces none (UInt8.ofNat (a + 0xC0) :: UInt8.ofNat (l + 0x80) :: bs) =
      .char (Char.ofNat (a * 64 + l)) :: pieces none bs := by
  have h : lead (a + 0xC0) = some ⟨a, 1, 0x80, 0xBF, 0⟩ := by
    rw [lead, if_pos (by omega), Nat.add_sub_cancel]
  rw [pieces_lead (by omega) (by omega) h, pieces_last (by simp) (by show _ ≤ 0xBF; omega) hl rfl]

lemma lead_three (ha : a < 16) :
    lead (a + 0xE0) = some ⟨a, 1, if a = 0 then 0xA0 else 0x80, if a = 13 then 0x9F else 0xBF, 1⟩ := by
  interval_cases a <;> rfl

lemma pieces_three (ha : a < 16) (h₀ : a = 0 → 32 ≤ m) (h₁ : a = 13 → m < 32) (hm : m < 64) (hl : l < 64) :
    pieces none (UInt8.ofNat (a + 0xE0) :: UInt8.ofNat (m + 0x80) :: UInt8.ofNat (l + 0x80) :: bs) =
      .char (Char.ofNat ((a * 64 + m) * 64 + l)) :: pieces none bs := by
  have hlow : (if a = 0 then 0xA0 else 0x80) ≤ m + 0x80 := by split_ifs with h <;> omega
  have hhigh : m + 0x80 ≤ if a = 13 then 0x9F else 0xBF := by split_ifs with h <;> omega
  rw [pieces_lead (by omega) (by omega) (lead_three ha), pieces_more hlow hhigh hm (by simp),
    pieces_last (by simp) (by show _ ≤ 0xBF; omega) hl (by simp)]

lemma lead_four (ha : a < 5) :
    lead (a + 0xF0) = some ⟨a, 1, if a = 0 then 0x90 else 0x80, if a = 4 then 0x8F else 0xBF, 2⟩ := by
  interval_cases a <;> rfl

lemma pieces_four (ha : a < 5) (h₀ : a = 0 → 16 ≤ k) (h₁ : a = 4 → k < 16) (hk : k < 64) (hm : m < 64)
    (hl : l < 64) :
    pieces none (UInt8.ofNat (a + 0xF0) :: UInt8.ofNat (k + 0x80) :: UInt8.ofNat (m + 0x80) ::
      UInt8.ofNat (l + 0x80) :: bs) = .char (Char.ofNat (((a * 64 + k) * 64 + m) * 64 + l)) :: pieces none bs := by
  have hlow : (if a = 0 then 0x90 else 0x80) ≤ k + 0x80 := by split_ifs with h <;> omega
  have hhigh : k + 0x80 ≤ if a = 4 then 0x8F else 0xBF := by split_ifs with h <;> omega
  rw [pieces_lead (by omega) (by omega) (lead_four ha), pieces_more hlow hhigh hk (by simp),
    pieces_more (by simp) (by show _ ≤ 0xBF; omega) hm (by simp),
    pieces_last (by simp) (by show _ ≤ 0xBF; omega) hl (by simp)]

lemma pieces_encoded (c : Char) (bs : List UInt8) :
    pieces none (String.utf8EncodeChar c ++ bs) = .char c :: pieces none bs := by
  have hc : Char.ofNat c.val.toNat = c := Char.ofNat_toNat c
  have hv : c.val.toNat.isValidChar := c.valid
  unfold String.utf8EncodeChar
  generalize c.val.toNat = v at hc hv
  simp only [Nat.isValidChar] at hv
  dsimp only
  split_ifs with h₁ h₂ h₃
  · rw [List.singleton_append, pieces_ascii (by omega), hc]
  · rw [List.cons_append, List.singleton_append, pieces_two (by omega) (by omega) (by omega),
      show v / 64 % 0x20 * 64 + v % 0x40 = v by omega, hc]
  · rw [List.cons_append, List.cons_append, List.singleton_append,
      pieces_three (by omega) (by omega) (by omega) (by omega) (by omega),
      show (v / 4096 % 0x10 * 64 + v / 64 % 0x40) * 64 + v % 0x40 = v by omega, hc]
  · rw [List.cons_append, List.cons_append, List.cons_append, List.singleton_append,
      pieces_four (by omega) (by omega) (by omega) (by omega) (by omega) (by omega),
      show ((v / 262144 % 0x08 * 64 + v / 4096 % 0x40) * 64 + v / 64 % 0x40) * 64 + v % 0x40 = v by omega, hc]

def encode (cs : List Char) : List UInt8 := cs.flatMap String.utf8EncodeChar

lemma pieces_encode (cs : List Char) : pieces none (encode cs) = cs.map .char := by
  induction cs with
  | nil => rfl
  | cons c cs ih =>
    have h : encode (c :: cs) = String.utf8EncodeChar c ++ encode cs := rfl
    rw [h, pieces_encoded, ih, List.map_cons]

theorem decode_encode (cs : List Char) : decode (encode cs) = cs := by
  rw [decode, pieces_encode, List.map_map]
  exact List.map_id cs

theorem decodeStrict_encode (cs : List Char) : decodeStrict (encode cs) = some cs := by
  rw [decodeStrict, pieces_encode]
  induction cs with
  | nil => rfl
  | cons c cs ih => simp [ih]

lemma growth_encode (cs : List Char) : growth (encode cs) = 0 := by
  rw [growth, pieces_encode, List.map_map]
  simp [Function.comp_def]

end Encoded

section Suffixes

variable {bs lost rest : List UInt8} {cs : List Char}

def IsTail (b : UInt8) : Prop := 0x80 ≤ b.toNat ∧ b.toNat < 0xC0

instance (b : UInt8) : Decidable (IsTail b) := inferInstanceAs (Decidable (_ ∧ _))

lemma isTail_ofNat {l : ℕ} (h : l < 64) : IsTail (UInt8.ofNat (l + 0x80)) := by
  rw [IsTail, UInt8.toNat_ofNat_of_lt' (show l + 0x80 < UInt8.size by simp [UInt8.size]; omega)]
  omega

lemma decode_tails {tails : List UInt8} (h : ∀ b ∈ tails, IsTail b) (bs : List UInt8) :
    decode (tails ++ bs) = List.replicate tails.length '\ufffd' ++ decode bs := by
  induction tails with
  | nil => rfl
  | cons b tails ih =>
    obtain ⟨⟨hlow, hhigh⟩, htails⟩ := List.forall_mem_cons.mp h
    have hlead : lead b.toNat = none := by
      unfold lead
      split_ifs <;> first | rfl | omega
    have hstart : start b.toNat = ([.bad 1], none) := by
      rw [start, if_neg (by omega), hlead]
    have hpieces : pieces none (b :: (tails ++ bs)) = .bad 1 :: pieces none (tails ++ bs) := by
      rw [pieces, step, hstart]
      rfl
    have hrest := ih htails
    rw [decode] at hrest ⊢
    rw [List.cons_append, hpieces, List.map_cons, hrest, List.length_cons, List.replicate_succ]
    rfl

lemma encodeChar_tails (c : Char) : ∃ b tails, String.utf8EncodeChar c = b :: tails ∧ ∀ b ∈ tails, IsTail b := by
  unfold String.utf8EncodeChar
  generalize c.val.toNat = v
  dsimp only
  split_ifs
  all_goals
    refine ⟨_, _, rfl, ?_⟩
    simp only [List.forall_mem_cons, List.not_mem_nil, false_implies, implies_true, and_true]
  · exact isTail_ofNat (by omega)
  · exact ⟨isTail_ofNat (by omega), isTail_ofNat (by omega)⟩
  · exact ⟨isTail_ofNat (by omega), isTail_ofNat (by omega), isTail_ofNat (by omega)⟩

/-- Where an encoded text is cut: between two characters, or inside of one. -/
lemma encode_split (h : lost ++ rest = encode cs) : (∃ ds es, cs = ds ++ es ∧ lost = encode ds ∧ rest = encode es) ∨
    ∃ ds c es pre tails, cs = ds ++ c :: es ∧ String.utf8EncodeChar c = pre ++ tails ∧ pre ≠ [] ∧ tails ≠ [] ∧
      lost = encode ds ++ pre ∧ rest = tails ++ encode es := by
  induction cs generalizing lost with
  | nil =>
    obtain ⟨rfl, rfl⟩ := List.append_eq_nil_iff.mp h
    exact Or.inl ⟨[], [], rfl, rfl, rfl⟩
  | cons c cs ih =>
    have hcons : encode (c :: cs) = String.utf8EncodeChar c ++ encode cs := rfl
    rw [hcons, List.append_eq_append_iff] at h
    rcases h with ⟨tails, hchar, rfl⟩ | ⟨lost, rfl, hrest⟩
    · by_cases hlost : lost = []
      · subst hlost
        exact Or.inl ⟨[], c :: cs, rfl, rfl, by rw [hcons, hchar]; rfl⟩
      · by_cases htails : tails = []
        · subst htails
          refine Or.inl ⟨[c], cs, rfl, ?_, rfl⟩
          rw [List.append_nil] at hchar
          rw [← hchar]
          exact (List.append_nil _).symm
        · exact Or.inr ⟨[], c, cs, lost, tails, rfl, hchar, hlost, htails, rfl, rfl⟩
    · rcases ih hrest.symm with ⟨ds, es, rfl, rfl, rfl⟩ | ⟨ds, d, es, pre, tails, rfl, hchar, hpre, htails, rfl, rfl⟩
      · exact Or.inl ⟨c :: ds, es, rfl, rfl, rfl⟩
      · refine Or.inr ⟨c :: ds, d, es, pre, tails, rfl, hchar, hpre, htails, ?_, rfl⟩
        rw [← List.append_assoc]
        rfl

/-- The end of one or two replacement characters, which is decoded to as many of them. -/
def Disguised (lost rest : List UInt8) : Prop :=
  (lost = [0xEF, 0xBF] ∧ [0xBD] <+: rest) ∨ lost = [0xEF, 0xBF, 0xBD, 0xEF] ∧ [0xBF, 0xBD] <+: rest

instance (lost rest : List UInt8) : Decidable (Disguised lost rest) :=
  inferInstanceAs (Decidable (_ ∧ _ ∨ _ ∧ _))

lemma decode_of_disguised (h : Disguised lost rest) : decode rest = decode (lost ++ rest) := by
  have hchar : ∀ bs, decode ([0xEF, 0xBF, 0xBD] ++ bs) = '\ufffd' :: decode bs := by
    intro bs
    have hbytes : String.utf8EncodeChar '\ufffd' = [0xEF, 0xBF, 0xBD] := by decide
    rw [decode, ← hbytes, pieces_encoded]
    rfl
  rcases h with ⟨rfl, bs, rfl⟩ | ⟨rfl, bs, rfl⟩
  · rw [decode_tails (by simp [IsTail])]
    exact (hchar bs).symm
  · rw [decode_tails (by simp [IsTail])]
    have htwice := hchar ([0xEF, 0xBF, 0xBD] ++ bs)
    rw [hchar] at htwice
    exact htwice.symm

/-- The end of an encoded text reads like the whole only by chance. -/
lemma decode_rest_iff (h : lost ++ rest = encode cs) : decode rest = cs ↔ lost = [] ∨ Disguised lost rest := by
  constructor
  · intro hsame
    rcases encode_split h with ⟨ds, es, rfl, rfl, rfl⟩ | ⟨ds, c, es, pre, tails, rfl, hchar, hpre, htails, rfl, rfl⟩
    · rw [decode_encode, List.self_eq_append_left] at hsame
      subst hsame
      exact Or.inl rfl
    · right
      have htail : ∀ b ∈ tails, IsTail b := by
        obtain ⟨b, bs, hbytes, hbs⟩ := encodeChar_tails c
        obtain ⟨x, pre, rfl⟩ := List.exists_cons_of_ne_nil hpre
        rw [hbytes, List.cons_append] at hchar
        intro y hy
        exact hbs y ((List.cons.inj hchar).2 ▸ List.mem_append_right _ hy)
      rw [decode_tails htail, decode_encode] at hsame
      have hfill : List.replicate tails.length '\ufffd' = ds ++ [c] := by
        have happend : List.replicate tails.length '\ufffd' ++ es = ds ++ [c] ++ es := by simpa using hsame
        exact List.append_cancel_right happend
      obtain ⟨hlength, hds, hc⟩ := List.append_eq_replicate_iff.mp hfill.symm
      obtain rfl : c = '\ufffd' := by simpa using hc
      have hbytes : String.utf8EncodeChar '\ufffd' = [0xEF, 0xBF, 0xBD] := by decide
      rw [hbytes] at hchar
      rcases pre with _ | ⟨x, _ | ⟨y, pre⟩⟩
      · exact absurd rfl hpre
      · obtain ⟨rfl, rfl⟩ : 0xEF = x ∧ [0xBF, 0xBD] = tails := by simpa using hchar
        obtain rfl : ds = ['\ufffd'] := by
          rw [hds]
          have hone : ds.length = 1 := by simpa using hlength
          rw [hone]
          rfl
        exact Or.inr ⟨by decide, List.prefix_append _ _⟩
      · obtain ⟨rfl, rfl, hrest⟩ : 0xEF = x ∧ 0xBF = y ∧ [0xBD] = pre ++ tails := by simpa using hchar
        obtain ⟨rfl, rfl⟩ : pre = [] ∧ tails = [0xBD] := by
          rcases List.append_eq_singleton_iff.mp hrest.symm with hpair | ⟨-, hnil⟩
          · exact hpair
          · exact absurd hnil htails
        obtain rfl : ds = [] := by simpa using hlength
        exact Or.inl ⟨rfl, List.prefix_append _ _⟩
  · rintro (rfl | hdisguised)
    · rw [List.nil_append] at h
      rw [h, decode_encode]
    · rw [decode_of_disguised hdisguised, h, decode_encode]

end Suffixes

end OpsSentry.Foundation.Utf8
