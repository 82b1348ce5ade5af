import OpsSentry.Foundation.Json
import OpsSentry.Foundation.Programs

/-! `json.loads` with all that it raises: for a text that is no JSON, for an integer of too many
digits and for containers that nest too deeply. It reads `NaN` and the infinities too. -/

namespace OpsSentry.Foundation.JsonLoads

open JsonText
open Programs (bind_eq_ok)

inductive LoadsError
  | decode
  | digits
  | recursion
deriving DecidableEq

/-- A `float`, finite or not. -/
inductive Number (F : Type)
  | finite (x : F)
  | nan
  | infinity (negative : Bool)

/-- `float` of the text of a number; a number that is too large is infinite. -/
structure Reals {F : Type} (fl : Floats F) where
  float : Word → Number F
  float_repr : ∀ x, float (fl.repr x) = .finite x

/-- `sys.int_info.default_max_str_digits`. -/
def maxStrDigits : ℕ := 4300

abbrev Result (α : Type) := Except LoadsError α

def orDecode {α : Type} : Option α → Result α
  | some x => .ok x
  | none => .error .decode

section Reader

variable {F : Type}

/-- A value of a JSON text, and what stands behind it. -/
abbrev Read (F : Type) := Result (Json (Number F) × Word)

def constant : Word → Option (Json (Number F) × Word)
  | 'n' :: 'u' :: 'l' :: 'l' :: cs => some (.null, cs)
  | 't' :: 'r' :: 'u' :: 'e' :: cs => some (.bool true, cs)
  | 'f' :: 'a' :: 'l' :: 's' :: 'e' :: cs => some (.bool false, cs)
  | 'N' :: 'a' :: 'N' :: cs => some (.float .nan, cs)
  | 'I' :: 'n' :: 'f' :: 'i' :: 'n' :: 'i' :: 't' :: 'y' :: cs => some (.float (.infinity false), cs)
  | '-' :: 'I' :: 'n' :: 'f' :: 'i' :: 'n' :: 'i' :: 't' :: 'y' :: cs => some (.float (.infinity true), cs)
  | _ => none

def number (float : Word → Number F) (int rest cs : Word) : Read F :=
  if rest = [] then
    if int.countP Char.isDigit ≤ maxStrDigits then .ok (.int (intValue int), cs) else .error .digits
  else .ok (.float (float (int ++ rest)), cs)

section Containers

variable {α : Type} (close : Char) (item : Word → Result (α × Word))

/-- The items of a container, at least one, with the commas between them and the bracket behind. -/
def items : ℕ → Word → Result (List α × Word)
  | 0, _ => .error .decode
  | n + 1, cs => do
    let (x, cs) ← item cs
    match skip cs with
    | [] => .error .decode
    | c :: cs =>
      if c = close then .ok ([x], cs)
      else if c = ',' then (items n (skip cs)).map fun r => (x :: r.1, r.2)
      else .error .decode

def sequence (cs : Word) : Result (List α × Word) :=
  match skip cs with
  | [] => .error .decode
  | c :: rest => if c = close then .ok ([], rest) else items close item cs.length (c :: rest)

end Containers

variable (value : Word → Read F)

def field (cs : Word) : Result ((Str × Json (Number F)) × Word) :=
  match cs with
  | '"' :: cs => do
    let (k, cs) ← orDecode (decodeStr cs)
    match skip cs with
    | ':' :: cs => (value (skip cs)).map fun r => ((k, r.1), r.2)
    | _ => .error .decode
  | _ => .error .decode

/-- An array or an object, behind its bracket. -/
def container (bracket : Char) (cs : Word) : Read F :=
  if bracket = '[' then (sequence ']' value cs).map fun r => (.arr r.1, r.2)
  else (sequence '}' (field value) cs).map fun r => (.obj (dict r.1), r.2)

def scanOnce (float : Word → Number F) (inner : Char → Word → Read F) (cs : Word) : Read F :=
  match cs with
  | '"' :: cs => orDecode ((decodeStr cs).map fun r => (.str r.1, r.2))
  | '[' :: cs => inner '[' cs
  | '{' :: cs => inner '{' cs
  | cs =>
    match scanNumber cs with
    | some (int, rest, cs) => number float int rest cs
    | none => orDecode (constant cs)

/-- A value with containers at most `depth` deep. -/
def parseValue (float : Word → Number F) : ℕ → Word → Read F
  | 0 => scanOnce float fun _ _ => .error .recursion
  | depth + 1 => scanOnce float (container (parseValue float depth))

/-- `json.loads` where the stack has room for `limit` containers in each other. -/
def loads (float : Word → Number F) (limit : ℕ) (cs : Word) : Result (Json (Number F)) := do
  let (x, rest) ← parseValue float limit (skip cs)
  if skip rest = [] then .ok x else .error .decode

end Reader

/-- An interpreter whose stack has room for a few containers in each other. -/
structure Interpreter {F : Type} (fl : Floats F) extends Reals fl where
  limit : ℕ
  room : 2 ≤ limit

def Interpreter.loads {F : Type} {fl : Floats F} (py : Interpreter fl) (cs : Word) : Result (Json (Number F)) :=
  JsonLoads.loads py.float py.limit cs

section Enough

variable {F : Type} {float : Word → Number F} {value : Word → Read F} {cs rest : Word} {n : ℕ}

lemma skip_length_le (cs : Word) : (skip cs).length ≤ cs.length := (List.dropWhile_suffix _).length_le

lemma scanUnits_length {us : List ℕ} (h : scanUnits cs = some (us, rest)) : rest.length < cs.length := by
  induction cs using scanUnits.induct generalizing us with
  | case1 => cases h
  | case2 cs =>
    cases h
    simp
  | case3 a b c d cs ih =>
    simp only [scanUnits, Option.bind_eq_bind, Option.bind_eq_some_iff, Option.map_eq_some_iff] at h
    obtain ⟨u, -, r, hr, heq⟩ := h
    cases heq
    have := ih hr
    simp only [List.length_cons]
    omega
  | case4 e cs hne ih =>
    simp only [scanUnits, Option.bind_eq_bind, Option.bind_eq_some_iff, Option.map_eq_some_iff] at h
    obtain ⟨u, -, r, hr, heq⟩ := h
    cases heq
    have := ih hr
    simp only [List.length_cons]
    omega
  | case5 c cs hquote hunicode hescape hc =>
    rw [scanUnits, if_pos hc] at h
    · cases h
    all_goals assumption
  | case6 c cs hquote hunicode hescape hc ih =>
    rw [scanUnits, if_neg hc] at h
    · obtain ⟨r, hr, heq⟩ := Option.map_eq_some_iff.mp h
      cases heq
      have := ih hr
      simp only [List.length_cons]
      omega
    all_goals assumption

lemma decodeStr_length {s : Str} (h : decodeStr cs = some (s, rest)) : rest.length < cs.length := by
  obtain ⟨r, hr, heq⟩ := Option.map_eq_some_iff.mp h
  cases heq
  exact scanUnits_length hr

lemma scanSign_length_le (signs : List Char) (cs : Word) : (scanSign signs cs).2.length ≤ cs.length := by
  cases cs with
  | nil => rfl
  | cons c cs =>
    rw [scanSign]
    split <;> simp

lemma digits_length_le (cs : Word) : (digits cs).2.length ≤ cs.length := (List.dropWhile_suffix _).length_le

lemma scanInt_length {int : Word} (h : scanInt cs = some (int, rest)) : rest.length < cs.length := by
  cases cs with
  | nil => cases h
  | cons c cs =>
    rw [scanInt] at h
    split at h
    · cases h
      simp
    · split at h
      · rename_i hc
        have hdrop : (digits (c :: cs)).2 = (digits cs).2 := by simp [digits, hc]
        obtain rfl : (digits (c :: cs)).2 = rest := congrArg Prod.snd (Option.some.inj h)
        have := digits_length_le cs
        rw [hdrop, List.length_cons]
        omega
      · cases h

lemma scanFrac_length_le (cs : Word) : (scanFrac cs).2.length ≤ cs.length := by
  cases cs with
  | nil => rfl
  | cons c cs =>
    rw [scanFrac]
    split
    · exact (digits_length_le cs).trans (Nat.le_succ _)
    · exact le_refl _

lemma scanExp_length_le (cs : Word) : (scanExp cs).2.length ≤ cs.length := by
  cases cs with
  | nil => rfl
  | cons c cs =>
    have hsign := scanSign_length_le ['+', '-'] cs
    have hdigits := digits_length_le (scanSign ['+', '-'] cs).2
    simp only [scanExp]
    split
    · simp only [List.length_cons]
      omega
    · exact le_refl _

lemma scanNumber_length {int tail : Word} (h : scanNumber cs = some (int, tail, rest)) :
    rest.length < cs.length := by
  simp only [scanNumber, Option.bind_eq_bind, Option.bind_eq_some_iff, Option.pure_def, Option.some.injEq,
    Prod.mk.injEq] at h
  obtain ⟨r, hr, -, -, rfl⟩ := h
  have hsign := scanSign_length_le ['-'] cs
  have hint : r.2.length < (scanSign ['-'] cs).2.length := scanInt_length hr
  have hfrac := scanFrac_length_le r.2
  have hexp := scanExp_length_le (scanFrac r.2).2
  omega

lemma constant_length {x : Json (Number F)} (h : constant cs = some (x, rest)) :
    rest.length < cs.length := by
  unfold constant at h
  split at h
  all_goals cases h
  all_goals
    simp only [List.length_cons]
    omega

lemma orDecode_ok {α : Type} {o : Option α} {x : α} (h : orDecode o = .ok x) : o = some x := by
  cases o with
  | none => cases h
  | some y => exact congrArg some (Except.ok.inj h)

lemma map_ok {α β : Type} {r : Result α} {f : α → β} {y : β} (h : r.map f = .ok y) :
    ∃ x, r = .ok x ∧ f x = y := by
  cases r with
  | error e => cases h
  | ok x => exact ⟨x, rfl, Except.ok.inj h⟩

section Items

variable {α : Type} {close : Char} {item : Word → Result (α × Word)} {xs : List α} {n : ℕ}

/-- An item is not empty. -/
def Consumes (item : Word → Result (α × Word)) : Prop := ∀ cs x rest, item cs = .ok (x, rest) → rest.length < cs.length

lemma items_length (hitem : Consumes item) (h : items close item n cs = .ok (xs, rest)) :
    rest.length < cs.length := by
  induction n generalizing cs xs with
  | zero => cases h
  | succ n ih =>
    obtain ⟨⟨x, cs₁⟩, hx, h⟩ := bind_eq_ok h
    have hlt := hitem _ _ _ hx
    have hskip := skip_length_le cs₁
    simp only at h
    split at h
    · cases h
    · rename_i c cs₂ hrest
      rw [hrest, List.length_cons] at hskip
      split_ifs at h
      · cases h
        omega
      · obtain ⟨r, hr, heq⟩ := map_ok h
        cases heq
        have := ih hr
        have := skip_length_le cs₂
        omega

/-- The length of a text is room enough for the items in it. -/
lemma items_enough (hitem : Consumes item) (hnil : item [] = .error .decode) (h : cs.length ≤ n) :
    items close item n cs = items close item (n + 1) cs := by
  induction n generalizing cs with
  | zero =>
    obtain rfl := List.length_eq_zero_iff.mp (Nat.le_zero.mp h)
    rw [items, items, hnil]
    rfl
  | succ n ih =>
    have hstep : ∀ m, items close item (m + 1) cs = (item cs).bind fun r => match skip r.2 with
        | [] => .error .decode
        | c :: cs => if c = close then .ok ([r.1], cs)
          else if c = ',' then (items close item m (skip cs)).map fun q => (r.1 :: q.1, q.2) else .error .decode :=
      fun m => rfl
    rw [hstep, hstep]
    cases hx : item cs with
    | error e => rfl
    | ok r =>
      have hlt := hitem _ _ _ hx
      have hskip := skip_length_le r.2
      simp only [Except.bind]
      cases hrest : skip r.2 with
      | nil => rfl
      | cons c cs' =>
        have := skip_length_le cs'
        rw [hrest, List.length_cons] at hskip
        simp only
        rw [ih (by omega)]

lemma sequence_length (hitem : Consumes item) (h : sequence close item cs = .ok (xs, rest)) :
    rest.length < cs.length := by
  have hskip := skip_length_le cs
  rw [sequence] at h
  split at h
  · cases h
  · rename_i c cs' hrest
    rw [hrest, List.length_cons] at hskip
    split_ifs at h
    · cases h
      omega
    · have := items_length hitem h
      rw [List.length_cons] at this
      omega

end Items

lemma field_consumes (hvalue : Consumes value) : Consumes (field value) := by
  intro cs x rest h
  rw [field.eq_def] at h
  split at h
  · rename_i cs
    obtain ⟨⟨k, cs₁⟩, hk, h⟩ := bind_eq_ok h
    have hkey := decodeStr_length (orDecode_ok hk)
    have hskip := skip_length_le cs₁
    simp only at h
    split at h
    · rename_i cs₂ hcolon
      obtain ⟨r, hr, heq⟩ := map_ok h
      cases heq
      have hlt := hvalue _ _ _ hr
      have hskip₂ := skip_length_le cs₂
      rw [hcolon, List.length_cons] at hskip
      rw [List.length_cons]
      omega
    · cases h
  · cases h

lemma container_length (hvalue : Consumes value) {c : Char} {x : Json (Number F)}
    (h : container value c cs = .ok (x, rest)) : rest.length < cs.length := by
  rw [container] at h
  split at h
  · obtain ⟨r, hr, heq⟩ := map_ok h
    cases heq
    exact sequence_length hvalue hr
  · obtain ⟨r, hr, heq⟩ := map_ok h
    cases heq
    exact sequence_length (field_consumes hvalue) hr

lemma scanOnce_consumes {inner : Char → Word → Read F}
    (hinner : ∀ c cs x rest, inner c cs = .ok (x, rest) → rest.length < cs.length) : Consumes (scanOnce float inner) := by
  intro cs x rest h
  rw [scanOnce.eq_def] at h
  split at h
  · obtain ⟨r, hr, heq⟩ := Option.map_eq_some_iff.mp (orDecode_ok h)
    cases heq
    exact (decodeStr_length hr).trans (Nat.lt_succ_self _)
  · exact (hinner _ _ _ _ h).trans (Nat.lt_succ_self _)
  · exact (hinner _ _ _ _ h).trans (Nat.lt_succ_self _)
  · split at h
    · rename_i int tail cs' hnumber
      have hlt := scanNumber_length hnumber
      rw [number] at h
      split at h
      · split at h
        · cases h
          exact hlt
        · cases h
      · cases h
        exact hlt
    · exact constant_length (orDecode_ok h)

lemma parseValue_consumes (float : Word → Number F) (depth : ℕ) : Consumes (parseValue float depth) := by
  induction depth with
  | zero =>
    apply scanOnce_consumes
    intro c cs x rest h
    cases h
  | succ depth ih => exact scanOnce_consumes fun c cs x rest h => container_length ih h

lemma parseValue_nil (float : Word → Number F) (depth : ℕ) :
    parseValue float depth [] = .error .decode := by
  cases depth <;> rfl

/-- More room for the elements of an array or the fields of an object changes nothing. -/
lemma container_enough (float : Word → Number F) (depth : ℕ) (h : cs.length ≤ n) :
    items ']' (parseValue float depth) n cs = items ']' (parseValue float depth) (n + 1) cs ∧
      items '}' (field (parseValue float depth)) n cs = items '}' (field (parseValue float depth)) (n + 1) cs :=
  ⟨items_enough (parseValue_consumes float depth) (parseValue_nil float depth) h,
    items_enough (field_consumes (parseValue_consumes float depth)) rfl h⟩

end Enough

mutual

def lift {F : Type} : Json F → Json (Number F)
  | .null => .null
  | .bool b => .bool b
  | .int n => .int n
  | .float x => .float (.finite x)
  | .str s => .str s
  | .arr xs => .arr (liftList xs)
  | .obj kvs => .obj (liftFields kvs)

def liftList {F : Type} : List (Json F) → List (Json (Number F))
  | [] => []
  | x :: xs => lift x :: liftList xs

def liftFields {F : Type} : List (Str × Json F) → List (Str × Json (Number F))
  | [] => []
  | (k, x) :: kvs => (k, lift x) :: liftFields kvs

end

/-- `json.dumps` writes no longer integers. -/
def Short (n : ℤ) : Prop := (Nat.toDigits 10 n.natAbs).length ≤ maxStrDigits

instance (n : ℤ) : Decidable (Short n) := inferInstanceAs (Decidable (_ ≤ _))

mutual

/-- A value that is read back: its strings are texts of the kind, the keys of an object differ, its
integers are short and its containers at most so deep. -/
def Readable {F : Type} (Valid : Str → Prop) : ℕ → Json F → Prop
  | _, .str s => Valid s
  | _, .int n => Short n
  | 0, .arr _ => False
  | d + 1, .arr xs => ReadableList Valid d xs
  | 0, .obj _ => False
  | d + 1, .obj kvs => (kvs.map Prod.fst).Nodup ∧ ReadableFields Valid d kvs
  | _, _ => True

def ReadableList {F : Type} (Valid : Str → Prop) : ℕ → List (Json F) → Prop
  | _, [] => True
  | d, x :: xs => Readable Valid d x ∧ ReadableList Valid d xs

def ReadableFields {F : Type} (Valid : Str → Prop) : ℕ → List (Str × Json F) → Prop
  | _, [] => True
  | d, (k, x) :: kvs => (Valid k ∧ Readable Valid d x) ∧ ReadableFields Valid d kvs

end

section RoundTrip

variable {F : Type} {fl : Floats F} {enc : Encoder} {float : Word → Number F} {cs : Word}

section Joined

variable {α : Type} {close : Char} {item : Word → Result (α × Word)} {w : Word} {ws : List Word} {x : α}
  {xs : List α} {n : ℕ}

/-- The text of an item that is read back whatever follows. -/
def ReadsAs (item : Word → Result (α × Word)) (w : Word) (x : α) : Prop :=
  (∃ c v, w = c :: v ∧ Starts c) ∧ ∀ cs, Stops cs → item (w ++ cs) = .ok (x, cs)

lemma length_le_intercalate (h : List.Forall₂ (ReadsAs item) ws xs) :
    ws.length ≤ (", ".toList.intercalate ws).length := by
  induction h with
  | nil => exact Nat.zero_le _
  | @cons w x ws xs hw hws ih =>
    obtain ⟨⟨c, v, rfl, -⟩, -⟩ := hw
    cases ws with
    | nil => simp
    | cons w' ws =>
      rw [List.intercalate_cons_cons, List.length_append, List.length_append]
      simp only [List.length_cons] at ih ⊢
      omega

lemma items_succ {c : Char} {rest : Word} (h : item cs = .ok (x, c :: rest)) (hc : isBlank c = false) :
    items close item (n + 1) cs = if c = close then .ok ([x], rest)
      else if c = ',' then (items close item n (skip rest)).map fun r => (x :: r.1, r.2) else .error .decode := by
  rw [items, h]
  change (match skip (c :: rest) with
    | [] => _
    | c :: cs => _) = _
  rw [skip_of_starts rest hc]

lemma joined_starts (h : ReadsAs item w x) (ws : List Word) (rest : Word) :
    ∃ c v, ", ".toList.intercalate (w :: ws) ++ rest = c :: v ∧ Starts c := by
  obtain ⟨⟨c, v, rfl, hc⟩, -⟩ := h
  cases ws with
  | nil => exact ⟨c, _, by rw [List.intercalate_singleton]; rfl, hc⟩
  | cons w' ws => exact ⟨c, _, by rw [List.intercalate_cons_cons]; rfl, hc⟩

lemma items_joined (hclose : Stops (close :: cs)) (hblank : isBlank close = false) (hcomma : ',' ≠ close)
    (h : List.Forall₂ (ReadsAs item) (w :: ws) xs) (hn : ws.length < n) :
    items close item n (", ".toList.intercalate (w :: ws) ++ close :: cs) = .ok (xs, cs) := by
  obtain ⟨n, rfl⟩ : ∃ m, n = m + 1 := ⟨n - 1, by omega⟩
  induction ws generalizing w xs n with
  | nil =>
    obtain ⟨x, xs, hw, hws, rfl⟩ := List.forall₂_cons_left_iff.mp h
    cases hws
    rw [List.intercalate_singleton, items_succ (hw.2 _ hclose) hblank, if_pos rfl]
  | cons w' ws ih =>
    obtain ⟨x, xs, hw, hws, rfl⟩ := List.forall₂_cons_left_iff.mp h
    obtain ⟨n, rfl⟩ : ∃ m, n = m + 1 := ⟨n - 1, by simp only [List.length_cons] at hn; omega⟩
    obtain ⟨x', xs', hw', -, -⟩ := List.forall₂_cons_left_iff.mp hws
    have hskip : ∀ rest, skip (' ' :: (", ".toList.intercalate (w' :: ws) ++ rest)) =
        ", ".toList.intercalate (w' :: ws) ++ rest := by
      intro rest
      obtain ⟨c, v, hcv, hc⟩ := joined_starts hw' ws rest
      rw [hcv]
      exact skip_of_starts v hc.1
    rw [List.intercalate_cons_cons, List.append_assoc, List.append_assoc]
    change items close item (n + 1 + 1) (w ++ ',' :: ' ' :: (", ".toList.intercalate (w' :: ws) ++ close :: cs)) = _
    rw [items_succ (hw.2 _ (stops_cons (by decide))) (by decide), if_neg hcomma, if_pos rfl, hskip,
      ih hws n (by simp only [List.length_cons] at hn; omega)]
    rfl

lemma sequence_joined (hclose : Stops (close :: cs)) (hblank : isBlank close = false) (hcomma : ',' ≠ close)
    (hstarts : ∀ c, Starts c → c ≠ close) (h : List.Forall₂ (ReadsAs item) ws xs) :
    sequence close item (", ".toList.intercalate ws ++ close :: cs) = .ok (xs, cs) := by
  cases h with
  | nil =>
    change sequence close item (close :: cs) = _
    rw [sequence, skip_of_starts cs hblank]
    exact if_pos rfl
  | @cons w x ws xs hw hws =>
    obtain ⟨c, v, hcv, hc⟩ := joined_starts hw ws (close :: cs)
    have hlength := length_le_intercalate (List.Forall₂.cons hw hws)
    have hitems := items_joined hclose hblank hcomma (List.Forall₂.cons hw hws)
      (n := (", ".toList.intercalate (w :: ws) ++ close :: cs).length) (by
        rw [List.length_append]
        simp only [List.length_cons] at hlength ⊢
        omega)
    rw [hcv] at hitems ⊢
    rw [sequence, skip_of_starts v hc.1]
    exact (if_neg (hstarts c hc)).trans hitems

end Joined

lemma scanOnce_number {inner : Char → Word → Read F} {r : Word × Word × Word} (h : scanNumber cs = some r) :
    scanOnce float inner cs = number float r.1 r.2.1 r.2.2 := by
  rw [scanOnce.eq_def]
  split
  · cases h
  · cases h
  · cases h
  · rw [h]

lemma number_decimal {n : ℤ} (h : Short n) : number float (decimal n) [] cs = .ok (.int n, cs) := by
  have hcount : (decimal n).countP Char.isDigit ≤ maxStrDigits := by
    rw [decimal, List.countP_append]
    have hsign : (if n < 0 then ['-'] else []).countP Char.isDigit = 0 := by
      split <;> decide
    rw [hsign, Nat.zero_add]
    exact List.countP_le_length.trans h
  rw [number, if_pos rfl, if_pos hcount, intValue_decimal]

lemma scanOnce_float {inner : Char → Word → Read F} (hfloat : ∀ x, float (fl.repr x) = .finite x) (x : F)
    (hcs : Stops cs) : scanOnce float inner (fl.repr x ++ cs) = .ok (.float (.finite x), cs) := by
  obtain ⟨int, tail, htail, hrepr, hscan⟩ := scanNumber_float (fl.float_text x) hcs
  rw [scanOnce_number hscan, number, if_neg htail, ← hrepr, hfloat]

lemma field_dumps {value : Word → Read F} {k : Str} {w : Word} {x : Json (Number F)} (hk : enc.Valid k)
    (h : ReadsAs value w x) :
    ReadsAs (field value) ('"' :: (enc.encode k ++ (": ".toList ++ w))) (k, x) := by
  refine ⟨⟨'"', _, rfl, by decide⟩, fun cs hcs => ?_⟩
  obtain ⟨⟨c, v, hcv, hc⟩, hread⟩ := h
  have hskip : skip (' ' :: (w ++ cs)) = w ++ cs := by
    rw [hcv]
    exact skip_of_starts (v ++ cs) hc.1
  have htext : '"' :: (enc.encode k ++ (": ".toList ++ w)) ++ cs = '"' :: (enc.encode k ++ ':' :: ' ' :: (w ++ cs)) := by
    rw [List.cons_append, List.append_assoc, List.append_assoc]
    rfl
  rw [htext, field, enc.decode_encode hk]
  change (value (skip (' ' :: (w ++ cs)))).map _ = _
  rw [hskip, hread cs hcs]
  rfl

lemma keys_liftFields (kvs : List (Str × Json F)) : (liftFields kvs).map Prod.fst = kvs.map Prod.fst := by
  induction kvs with
  | nil => rfl
  | cons p kvs ih => rw [liftFields, List.map_cons, ih, List.map_cons]

mutual

lemma reads_dumps (hfloat : ∀ x, float (fl.repr x) = .finite x) (x : Json F) (depth : ℕ)
    (hx : Readable enc.Valid depth x) :
    ReadsAs (parseValue float depth) (dumpsWith enc fl x) (lift x) := by
  refine ⟨dumps_starts enc fl x, fun cs hcs => ?_⟩
  obtain ⟨inner, hinner⟩ : ∃ inner, parseValue float depth = scanOnce float inner := by
    cases depth <;> exact ⟨_, rfl⟩
  match x, hx with
  | .null, _ => rw [hinner]; rfl
  | .bool true, _ => rw [hinner]; rfl
  | .bool false, _ => rw [hinner]; rfl
  | .int n, hn =>
    rw [Readable.eq_def] at hn
    rw [dumpsWith_int, hinner, scanOnce_number (scanNumber_decimal n hcs), number_decimal hn]
    rfl
  | .float y, _ =>
    rw [dumpsWith_float, hinner, scanOnce_float hfloat y hcs]
    rfl
  | .str s, hs =>
    rw [Readable.eq_def] at hs
    rw [hinner]
    change orDecode ((decodeStr (enc.encode s ++ cs)).map _) = _
    rw [enc.decode_encode hs]
    rfl
  | .arr xs, hxs =>
    cases depth with
    | zero => simp [Readable] at hxs
    | succ depth =>
      rw [Readable.eq_def] at hxs
      have hseq : sequence ']' (parseValue float depth) (", ".toList.intercalate (dumpsListWith enc fl xs) ++ ']' :: cs) =
          .ok (liftList xs, cs) :=
        sequence_joined (stops_cons (by decide)) (by decide) (by decide) (fun c hc => hc.2.1) (reads_list hfloat xs depth hxs)
      rw [dumpsWith_arr, List.cons_append, List.append_assoc]
      change (sequence ']' (parseValue float depth) _).map _ = _
      rw [List.singleton_append, hseq]
      rfl
  | .obj kvs, hkvs =>
    cases depth with
    | zero => simp [Readable] at hkvs
    | succ depth =>
      rw [Readable.eq_def] at hkvs
      have hseq : sequence '}' (field (parseValue float depth))
          (", ".toList.intercalate (dumpsFieldsWith enc fl kvs) ++ '}' :: cs) = .ok (liftFields kvs, cs) :=
        sequence_joined (stops_cons (by decide)) (by decide) (by decide) (fun c hc => hc.2.2)
          (reads_fields hfloat kvs depth hkvs.2)
      rw [dumpsWith_obj, List.cons_append, List.append_assoc]
      change (sequence '}' (field (parseValue float depth)) _).map _ = _
      rw [List.singleton_append, hseq]
      change Except.ok (Json.obj (dict (liftFields kvs)), cs) = _
      rw [dict_of_nodup (by rw [keys_liftFields]; exact hkvs.1)]
      rfl

lemma reads_list (hfloat : ∀ x, float (fl.repr x) = .finite x) (xs : List (Json F)) (depth : ℕ)
    (hxs : ReadableList enc.Valid depth xs) :
    List.Forall₂ (ReadsAs (parseValue float depth)) (dumpsListWith enc fl xs) (liftList xs) := by
  cases xs with
  | nil => exact List.Forall₂.nil
  | cons x xs => exact List.Forall₂.cons (reads_dumps hfloat x depth hxs.1) (reads_list hfloat xs depth hxs.2)

lemma reads_fields (hfloat : ∀ x, float (fl.repr x) = .finite x) (kvs : List (Str × Json F)) (depth : ℕ)
    (hkvs : ReadableFields enc.Valid depth kvs) :
    List.Forall₂ (ReadsAs (field (parseValue float depth))) (dumpsFieldsWith enc fl kvs) (liftFields kvs) := by
  cases kvs with
  | nil => exact List.Forall₂.nil
  | cons p kvs =>
    exact List.Forall₂.cons (field_dumps hkvs.1.1 (reads_dumps hfloat p.2 depth hkvs.1.2)) (reads_fields hfloat kvs depth hkvs.2)

end

/-- What `json.dumps` writes, `json.loads` reads back. -/
theorem loads_dumps {x : Json F} (py : Interpreter fl) (hx : Readable ValidStr py.limit x) :
    py.loads (dumps fl x) = .ok (lift x) := by
  have hreads : ReadsAs (parseValue py.float py.limit) (dumpsWith ascii fl x) (lift x) :=
    reads_dumps py.float_repr x py.limit hx
  have hread := hreads.2 [] (by rintro c ⟨⟩)
  have hskip := skip_dumps ascii fl x []
  rw [List.append_nil] at hread hskip
  rw [Interpreter.loads, loads, dumps_eq, hskip, hread]
  rfl

end RoundTrip

end OpsSentry.Foundation.JsonLoads
