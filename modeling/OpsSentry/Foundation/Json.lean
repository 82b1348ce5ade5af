import OpsSentry.Foundation.JsonLexemes
import OpsSentry.Foundation.Values
import Mathlib.Data.List.Nodup
import Mathlib.Data.List.TakeWhile

/-! JSON values, the text that `json.dumps` writes of them, and what `json.loads` reads. The words
`NaN` and `Infinity`, which are no JSON, are left out. -/

namespace OpsSentry.Foundation.JsonText

/-- Finite floats, with `float.__repr__` and `float`. -/
structure Floats (F : Type) where
  repr : F → Word
  parse : Word → F
  float_text : ∀ x, FloatText (repr x)
  parse_repr : ∀ x, parse (repr x) = x

inductive Json (F : Type)
  | null
  | bool (b : Bool)
  | int (n : ℤ)
  | float (x : F)
  | str (s : Str)
  | arr (xs : List (Json F))
  | obj (kvs : List (Str × Json F))

variable {F : Type} (fl : Floats F)

mutual

def dumps : Json F → Word
  | .null => "null".toList
  | .bool true => "true".toList
  | .bool false => "false".toList
  | .int n => decimal n
  | .float x => fl.repr x
  | .str s => '"' :: encodeStr s
  | .arr xs => '[' :: (", ".toList.intercalate (dumpsList xs) ++ [']'])
  | .obj kvs => '{' :: (", ".toList.intercalate (dumpsFields kvs) ++ ['}'])

def dumpsList : List (Json F) → List Word
  | [] => []
  | x :: xs => dumps x :: dumpsList xs

def dumpsFields : List (Str × Json F) → List Word
  | [] => []
  | (k, x) :: kvs => ('"' :: (encodeStr k ++ (": ".toList ++ dumps x))) :: dumpsFields kvs

end

mutual

/-- Strings are texts that JSON can express, and the keys of an object differ. -/
def WF : Json F → Prop
  | .str s => ValidStr s
  | .arr xs => WFList xs
  | .obj kvs => (kvs.map Prod.fst).Nodup ∧ WFFields kvs
  | _ => True

def WFList : List (Json F) → Prop
  | [] => True
  | x :: xs => WF x ∧ WFList xs

def WFFields : List (Str × Json F) → Prop
  | [] => True
  | (k, x) :: kvs => (ValidStr k ∧ WF x) ∧ WFFields kvs

end

def isBlank (c : Char) : Bool := c = ' ' || c = '\t' || c = '\n' || c = '\r'

def skip (cs : Word) : Word := cs.dropWhile isBlank

def number (r : Word × Word × Word) : Json F × Word :=
  (if r.2.1 = [] then .int (intValue r.1) else .float (fl.parse (r.1 ++ r.2.1)), r.2.2)

/-- A `dict` of the pairs: of equal keys, the last value counts. -/
def dict (kvs : List (Str × Json F)) : List (Str × Json F) :=
  kvs.foldl (fun d p => Values.put d p.1 p.2) []

mutual

def parseValue : ℕ → Word → Option (Json F × Word)
  | 0, _ => none
  | n + 1, cs =>
    ((scanNumber cs).map (number fl)).or <|
      match cs with
      | '"' :: cs => (decodeStr cs).map fun r => (.str r.1, r.2)
      | '[' :: cs =>
        match skip cs with
        | ']' :: cs => some (.arr [], cs)
        | cs => (parseElems n cs).map fun r => (.arr r.1, r.2)
      | '{' :: cs =>
        match skip cs with
        | '}' :: cs => some (.obj [], cs)
        | cs => (parseFields n cs).map fun r => (.obj (dict r.1), r.2)
      | 'n' :: 'u' :: 'l' :: 'l' :: cs => some (.null, cs)
      | 't' :: 'r' :: 'u' :: 'e' :: cs => some (.bool true, cs)
      | 'f' :: 'a' :: 'l' :: 's' :: 'e' :: cs => some (.bool false, cs)
      | _ => none

def parseElems : ℕ → Word → Option (List (Json F) × Word)
  | 0, _ => none
  | n + 1, cs => do
    let (x, cs) ← parseValue n cs
    match skip cs with
    | ']' :: cs => some ([x], cs)
    | ',' :: cs => (parseElems n (skip cs)).map fun r => (x :: r.1, r.2)
    | _ => none

def parseFields : ℕ → Word → Option (List (Str × Json F) × Word)
  | 0, _ => none
  | n + 1, cs =>
    match cs with
    | '"' :: cs => do
      let (k, cs) ← decodeStr cs
      match skip cs with
      | ':' :: cs => do
        let (x, cs) ← parseValue n (skip cs)
        match skip cs with
        | '}' :: cs => some ([(k, x)], cs)
        | ',' :: cs => (parseFields n (skip cs)).map fun r => ((k, x) :: r.1, r.2)
        | _ => none
      | _ => none
    | _ => none

end

@[simp] lemma parseValue_zero (cs : Word) : parseValue fl 0 cs = none := rfl

/-- `json.loads`; `none` where it raises `JSONDecodeError`. -/
def loads (cs : Word) : Option (Json F) :=
  match parseValue fl (cs.length + 1) (skip cs) with
  | some (x, rest) => if skip rest = [] then some x else none
  | none => none

/-- How a string is written, less the opening quotation mark, so that the decoder reads it back. -/
structure Encoder where
  encode : Str → Word
  Valid : Str → Prop
  decode_encode : ∀ {s}, Valid s → ∀ cs, decodeStr (encode s ++ cs) = some (s, cs)

def ascii : Encoder := { encode := encodeStr, Valid := ValidStr, decode_encode := decodeStr_encodeStr }

mutual

def dumpsWith (enc : Encoder) (fl : Floats F) : Json F → Word
  | .null => "null".toList
  | .bool true => "true".toList
  | .bool false => "false".toList
  | .int n => decimal n
  | .float x => fl.repr x
  | .str s => '"' :: enc.encode s
  | .arr xs => '[' :: (", ".toList.intercalate (dumpsListWith enc fl xs) ++ [']'])
  | .obj kvs => '{' :: (", ".toList.intercalate (dumpsFieldsWith enc fl kvs) ++ ['}'])

def dumpsListWith (enc : Encoder) (fl : Floats F) : List (Json F) → List Word
  | [] => []
  | x :: xs => dumpsWith enc fl x :: dumpsListWith enc fl xs

def dumpsFieldsWith (enc : Encoder) (fl : Floats F) : List (Str × Json F) → List Word
  | [] => []
  | (k, x) :: kvs => ('"' :: (enc.encode k ++ (": ".toList ++ dumpsWith enc fl x))) :: dumpsFieldsWith enc fl kvs

end

mutual

/-- Strings are texts of the kind, and the keys of an object differ. -/
def WFWith (Valid : Str → Prop) : Json F → Prop
  | .str s => Valid s
  | .arr xs => WFListWith Valid xs
  | .obj kvs => (kvs.map Prod.fst).Nodup ∧ WFFieldsWith Valid kvs
  | _ => True

def WFListWith (Valid : Str → Prop) : List (Json F) → Prop
  | [] => True
  | x :: xs => WFWith Valid x ∧ WFListWith Valid xs

def WFFieldsWith (Valid : Str → Prop) : List (Str × Json F) → Prop
  | [] => True
  | (k, x) :: kvs => (Valid k ∧ WFWith Valid x) ∧ WFFieldsWith Valid kvs

end

section Equations

variable (enc : Encoder) (fl : Floats F)

lemma dumpsWith_int (n : ℤ) : dumpsWith enc fl (.int n : Json F) = decimal n := rfl

lemma dumpsWith_float (x : F) : dumpsWith enc fl (.float x) = fl.repr x := rfl

lemma dumpsWith_arr (xs : List (Json F)) :
    dumpsWith enc fl (.arr xs) = '[' :: (", ".toList.intercalate (dumpsListWith enc fl xs) ++ [']']) := rfl

lemma dumpsWith_obj (kvs : List (Str × Json F)) :
    dumpsWith enc fl (.obj kvs) = '{' :: (", ".toList.intercalate (dumpsFieldsWith enc fl kvs) ++ ['}']) := rfl

end Equations

section Ascii

mutual

lemma dumps_eq (x : Json F) : dumps fl x = dumpsWith ascii fl x := by
  cases x with
  | bool b => cases b <;> rfl
  | arr xs =>
    rw [dumpsWith_arr, ← dumpsList_eq]
    rfl
  | obj kvs =>
    rw [dumpsWith_obj, ← dumpsFields_eq]
    rfl
  | _ => rfl

lemma dumpsList_eq (xs : List (Json F)) : dumpsList fl xs = dumpsListWith ascii fl xs := by
  cases xs with
  | nil => rfl
  | cons x xs => rw [dumpsList, dumpsListWith, dumps_eq, dumpsList_eq]

lemma dumpsFields_eq (kvs : List (Str × Json F)) : dumpsFields fl kvs = dumpsFieldsWith ascii fl kvs := by
  cases kvs with
  | nil => rfl
  | cons p kvs =>
    rw [dumpsFields, dumpsFieldsWith, dumps_eq, dumpsFields_eq]
    rfl

end

mutual

lemma WF.with {x : Json F} (hx : WF x) : WFWith ValidStr x := by
  cases x with
  | arr xs => exact WFList.with hx
  | obj kvs => exact ⟨hx.1, WFFields.with hx.2⟩
  | str s => exact hx
  | _ => trivial

lemma WFList.with {xs : List (Json F)} (hxs : WFList xs) : WFListWith ValidStr xs := by
  cases xs with
  | nil => trivial
  | cons x xs => exact ⟨WF.with hxs.1, WFList.with hxs.2⟩

lemma WFFields.with {kvs : List (Str × Json F)} (hkvs : WFFields kvs) : WFFieldsWith ValidStr kvs := by
  cases kvs with
  | nil => trivial
  | cons p kvs => exact ⟨⟨hkvs.1.1, WF.with hkvs.1.2⟩, WFFields.with hkvs.2⟩

end

end Ascii

variable {enc : Encoder} {fl} {cs : Word} {n : ℕ}

section Heads

lemma stops_cons {c : Char} (h : c.isDigit = false ∧ c ≠ '.' ∧ c ≠ 'e' ∧ c ≠ 'E') : Stops (c :: cs) := by
  rintro d ⟨⟩
  exact h

/-- What the text of a value may begin with. -/
def Starts (c : Char) : Prop := isBlank c = false ∧ c ≠ ']' ∧ c ≠ '}'

instance (c : Char) : Decidable (Starts c) := inferInstanceAs (Decidable (_ ∧ _ ∧ _))

lemma starts_of_numeral {sign int frac exp : Word} (h : Numeral sign int frac exp) :
    ∃ c w, sign ++ (int ++ (frac ++ exp)) = c :: w ∧ Starts c := by
  rcases h.sign with rfl | rfl
  · rcases h.int with rfl | ⟨hne, -, hdigits⟩
    · exact ⟨'0', _, rfl, by decide⟩
    · cases int with
      | nil => exact (hne rfl).elim
      | cons c int =>
        have hc := hdigits c List.mem_cons_self
        refine ⟨c, _, rfl, ?_, ne_of_isDigit hc (by decide), ne_of_isDigit hc (by decide)⟩
        simp [isBlank, ne_of_isDigit hc (d := ' ') (by decide), ne_of_isDigit hc (d := '\t') (by decide),
          ne_of_isDigit hc (d := '\n') (by decide), ne_of_isDigit hc (d := '\r') (by decide)]
  · exact ⟨'-', _, rfl, by decide⟩

lemma dumps_starts (enc : Encoder) (fl : Floats F) (x : Json F) :
    ∃ c w, dumpsWith enc fl x = c :: w ∧ Starts c := by
  cases x with
  | null => exact ⟨'n', _, rfl, by decide⟩
  | bool b =>
    cases b
    · exact ⟨'f', _, rfl, by decide⟩
    · exact ⟨'t', _, rfl, by decide⟩
  | int n =>
    rw [dumpsWith_int, decimal]
    simpa using starts_of_numeral (numeral_decimal n)
  | float x =>
    obtain ⟨sign, int, frac, exp, hw, -, hx⟩ := fl.float_text x
    rw [dumpsWith_float, hx]
    exact starts_of_numeral hw
  | str s => exact ⟨'"', _, rfl, by decide⟩
  | arr xs => exact ⟨'[', _, rfl, by decide⟩
  | obj kvs => exact ⟨'{', _, rfl, by decide⟩

lemma skip_of_starts {c : Char} (cs : Word) (h : isBlank c = false) : skip (c :: cs) = c :: cs := by
  rw [skip, List.dropWhile_cons, h]
  rfl

lemma skip_dumps (enc : Encoder) (fl : Floats F) (x : Json F) (cs : Word) :
    skip (dumpsWith enc fl x ++ cs) = dumpsWith enc fl x ++ cs := by
  obtain ⟨c, w, hw, hc, -, -⟩ := dumps_starts enc fl x
  rw [hw, List.cons_append, skip_of_starts _ hc]

end Heads

section Dict

lemma put_of_notMem {κ ν : Type} [DecidableEq κ] {d : List (κ × ν)} {k : κ} {v : ν}
    (h : k ∉ d.map Prod.fst) :
    Values.put d k v = d ++ [(k, v)] := if_neg h

lemma dict_of_nodup {kvs : List (Str × Json F)} (h : (kvs.map Prod.fst).Nodup) : dict kvs = kvs := by
  have hfold : ∀ acc : List (Str × Json F), ((acc ++ kvs).map Prod.fst).Nodup →
      kvs.foldl (fun d p => Values.put d p.1 p.2) acc = acc ++ kvs := by
    clear h
    induction kvs with
    | nil => simp
    | cons p kvs ih =>
      intro acc hnodup
      have hnot : p.1 ∉ acc.map Prod.fst := by
        rw [List.map_append, List.map_cons] at hnodup
        exact fun hmem => List.disjoint_of_nodup_append hnodup hmem List.mem_cons_self
      rw [List.foldl_cons, put_of_notMem hnot, ih (acc ++ [p]) (by simpa using hnodup)]
      simp
  exact hfold [] h

end Dict

lemma parseValue_number {r : Word × Word × Word} (h : scanNumber cs = some r) :
    parseValue fl (n + 1) cs = some (number fl r) := by
  change ((scanNumber cs).map (number fl)).or _ = _
  rw [h]
  rfl

lemma skip_joined (enc : Encoder) (fl : Floats F) (x : Json F) (ws : List Word) (cs : Word) :
    ∃ c w, ", ".toList.intercalate (dumpsWith enc fl x :: ws) ++ cs = c :: w ∧ Starts c := by
  obtain ⟨c, w, hw, hc⟩ := dumps_starts enc fl x
  cases ws with
  | nil => exact ⟨c, _, by rw [List.intercalate_singleton, hw]; rfl, hc⟩
  | cons w' ws => exact ⟨c, _, by rw [List.intercalate_cons_cons, hw]; rfl, hc⟩

section Steps

variable {c : Char} {w rest : Word} {k : Str} {x : Json F}

lemma parseValue_array (hc : Starts c) : parseValue fl (n + 1) ('[' :: c :: w) =
    (parseElems fl n (c :: w)).map fun r => (.arr r.1, r.2) := by
  change (match skip (c :: w) with
    | ']' :: cs => some (Json.arr [], cs)
    | cs => (parseElems fl n cs).map _) = _
  rw [skip_of_starts w hc.1]
  split
  · rename_i heq
    exact absurd (List.cons.inj heq).1 hc.2.1
  · rfl

lemma parseValue_object (hc : Starts c) : parseValue fl (n + 1) ('{' :: c :: w) =
    (parseFields fl n (c :: w)).map fun r => (.obj (dict r.1), r.2) := by
  change (match skip (c :: w) with
    | '}' :: cs => some (Json.obj [], cs)
    | cs => (parseFields fl n cs).map _) = _
  rw [skip_of_starts w hc.1]
  split
  · rename_i heq
    exact absurd (List.cons.inj heq).1 hc.2.2
  · rfl

lemma parseElems_last (h : parseValue fl n cs = some (x, ']' :: rest)) :
    parseElems fl (n + 1) cs = some ([x], rest) := by
  rw [parseElems, h]
  rfl

lemma parseElems_more (h : parseValue fl n cs = some (x, ", ".toList ++ c :: w)) (hc : Starts c) :
    parseElems fl (n + 1) cs = (parseElems fl n (c :: w)).map fun r => (x :: r.1, r.2) := by
  have hskip : skip (' ' :: c :: w) = c :: w := skip_of_starts w hc.1
  rw [parseElems, h]
  change (parseElems fl n (skip (' ' :: c :: w))).map _ = _
  rw [hskip]

lemma parseFields_last (hk : enc.Valid k) (h : parseValue fl n (skip cs) = some (x, '}' :: rest)) :
    parseFields fl (n + 1) ('"' :: (enc.encode k ++ (':' :: cs))) = some ([(k, x)], rest) := by
  rw [parseFields, enc.decode_encode hk]
  change ((parseValue fl n (skip cs)).bind _) = _
  rw [h]
  rfl

lemma parseFields_more (hk : enc.Valid k) (h : parseValue fl n (skip cs) = some (x, ", ".toList ++ c :: w))
    (hc : Starts c) : parseFields fl (n + 1) ('"' :: (enc.encode k ++ (':' :: cs))) =
      (parseFields fl n (c :: w)).map fun r => ((k, x) :: r.1, r.2) := by
  have hskip : skip (' ' :: c :: w) = c :: w := skip_of_starts w hc.1
  rw [parseFields, enc.decode_encode hk]
  change ((parseValue fl n (skip cs)).bind _) = _
  rw [h]
  change (parseFields fl n (skip (' ' :: c :: w))).map _ = _
  rw [hskip]

end Steps

mutual

lemma parseValue_dumps (x : Json F) (hx : WFWith enc.Valid x) (n : ℕ) (hn : (dumpsWith enc fl x).length ≤ n)
    (cs : Word) (hcs : Stops cs) : parseValue fl n (dumpsWith enc fl x ++ cs) = some (x, cs) := by
  obtain ⟨n, rfl⟩ : ∃ m, n = m + 1 := by
    obtain ⟨c, w, hw, -⟩ := dumps_starts enc fl x
    rw [hw, List.length_cons] at hn
    exact ⟨n - 1, by omega⟩
  match x with
  | .null => rfl
  | .bool true => rfl
  | .bool false => rfl
  | .int k =>
    rw [dumpsWith_int, parseValue_number (scanNumber_decimal k hcs)]
    simp [number, intValue_decimal]
  | .float y =>
    obtain ⟨int, tail, htail, hrepr, hscan⟩ := scanNumber_float (fl.float_text y) hcs
    rw [dumpsWith_float, parseValue_number hscan]
    simp [number, htail, ← hrepr, fl.parse_repr]
  | .str s =>
    change (decodeStr (enc.encode s ++ cs)).map _ = _
    rw [enc.decode_encode hx]
    rfl
  | .arr [] => rfl
  | .arr (y :: ys) =>
    rw [dumpsWith_arr, List.length_cons, List.length_append, List.length_singleton] at hn
    have hbody := parseElems_dumps y ys hx.1 hx.2 n (by omega) cs
    obtain ⟨c, w, hw, hc⟩ := skip_joined enc fl y (dumpsListWith enc fl ys) (']' :: cs)
    rw [dumpsWith_arr, dumpsListWith, List.cons_append, List.append_assoc, List.singleton_append, hw,
      parseValue_array hc, ← hw]
    change (parseElems fl n (", ".toList.intercalate (dumpsListWith enc fl (y :: ys)) ++ ']' :: cs)).map _ = _
    rw [hbody]
    rfl
  | .obj [] => rfl
  | .obj ((k, y) :: kvs) =>
    obtain ⟨hnodup, ⟨hk, hy⟩, hkvs⟩ := hx
    rw [dumpsWith_obj, List.length_cons, List.length_append, List.length_singleton] at hn
    have hbody := parseFields_dumps k y kvs hk hy hkvs n (by omega) cs
    obtain ⟨w, hw⟩ : ∃ w,
        ", ".toList.intercalate (dumpsFieldsWith enc fl ((k, y) :: kvs)) ++ '}' :: cs = '"' :: w := by
      cases kvs with
      | nil => exact ⟨_, rfl⟩
      | cons p kvs => exact ⟨_, by rw [dumpsFieldsWith, dumpsFieldsWith, List.intercalate_cons_cons]; rfl⟩
    rw [dumpsWith_obj, List.cons_append, List.append_assoc, List.singleton_append, hw,
      parseValue_object (by decide), ← hw, hbody, Option.map_some, dict_of_nodup hnodup]
termination_by n

lemma parseElems_dumps (x : Json F) (xs : List (Json F)) (hx : WFWith enc.Valid x)
    (hxs : WFListWith enc.Valid xs) (n : ℕ) (hn : (", ".toList.intercalate (dumpsListWith enc fl (x :: xs))).length < n) (cs : Word) :
    parseElems fl n (", ".toList.intercalate (dumpsListWith enc fl (x :: xs)) ++ ']' :: cs) = some (x :: xs, cs) := by
  obtain ⟨n, rfl⟩ : ∃ m, n = m + 1 := ⟨n - 1, by omega⟩
  match xs with
  | [] =>
    rw [dumpsListWith, dumpsListWith, List.intercalate_singleton] at hn ⊢
    exact parseElems_last (parseValue_dumps x hx n (by omega) _ (stops_cons (by decide)))
  | y :: ys =>
    rw [dumpsListWith, dumpsListWith, List.intercalate_cons_cons, List.length_append, List.length_append] at hn
    have hbody := parseElems_dumps y ys hxs.1 hxs.2 n (by
      rw [dumpsListWith]
      change _ + 2 + _ < _ at hn
      omega) cs
    obtain ⟨c, w, hw, hc⟩ := skip_joined enc fl y (dumpsListWith enc fl ys) (']' :: cs)
    rw [dumpsListWith] at hbody
    rw [dumpsListWith, dumpsListWith, List.intercalate_cons_cons, List.append_assoc, List.append_assoc,
      parseElems_more (x := x) (c := c) (w := w) ?_ hc, ← hw, hbody]
    · rfl
    · rw [hw]
      exact parseValue_dumps x hx n (by omega) _ (stops_cons (by decide))
termination_by n

lemma parseFields_dumps (k : Str) (x : Json F) (kvs : List (Str × Json F)) (hk : enc.Valid k)
    (hx : WFWith enc.Valid x)
    (hkvs : WFFieldsWith enc.Valid kvs) (n : ℕ)
    (hn : (", ".toList.intercalate (dumpsFieldsWith enc fl ((k, x) :: kvs))).length < n) (cs : Word) : parseFields fl n (", ".toList.intercalate (dumpsFieldsWith enc fl ((k, x) :: kvs)) ++ '}' :: cs) =
      some ((k, x) :: kvs, cs) := by
  obtain ⟨n, rfl⟩ : ∃ m, n = m + 1 := ⟨n - 1, by omega⟩
  have htext : ∀ rest, '"' :: (enc.encode k ++ (": ".toList ++ dumpsWith enc fl x)) ++ rest =
      '"' :: (enc.encode k ++ (':' :: ' ' :: (dumpsWith enc fl x ++ rest))) := by
    intro rest
    rw [List.cons_append, List.append_assoc, List.append_assoc]
    rfl
  have hskip : ∀ rest, skip (' ' :: (dumpsWith enc fl x ++ rest)) = dumpsWith enc fl x ++ rest :=
    fun rest => skip_dumps enc fl x rest
  match kvs with
  | [] =>
    rw [dumpsFieldsWith, dumpsFieldsWith, List.intercalate_singleton] at hn ⊢
    rw [List.length_cons, List.length_append, List.length_append] at hn
    rw [htext]
    refine parseFields_last hk ?_
    rw [hskip]
    exact parseValue_dumps x hx n (by omega) _ (stops_cons (by decide))
  | (k', y) :: kvs =>
    rw [dumpsFieldsWith, dumpsFieldsWith, List.intercalate_cons_cons, List.length_append, List.length_append,
      List.length_cons, List.length_append, List.length_append] at hn
    have hbody := parseFields_dumps k' y kvs hkvs.1.1 hkvs.1.2 hkvs.2 n (by
      rw [dumpsFieldsWith]
      omega) cs
    obtain ⟨w, hw⟩ : ∃ w,
        ", ".toList.intercalate (dumpsFieldsWith enc fl ((k', y) :: kvs)) ++ '}' :: cs = '"' :: w := by
      cases kvs with
      | nil => exact ⟨_, rfl⟩
      | cons p kvs => exact ⟨_, by rw [dumpsFieldsWith, dumpsFieldsWith, List.intercalate_cons_cons]; rfl⟩
    rw [dumpsFieldsWith] at hbody hw
    rw [dumpsFieldsWith, dumpsFieldsWith, List.intercalate_cons_cons, List.append_assoc, List.append_assoc, hw, htext,
      parseFields_more (x := x) (c := '"') (w := w) hk ?_ (by decide), ← hw, hbody]
    · rfl
    · rw [hskip]
      exact parseValue_dumps x hx n (by omega) _ (stops_cons (by decide))
termination_by n

end

lemma stops_of_blank {cs : Word} (h : cs.all isBlank = true) : Stops cs := by
  cases cs with
  | nil => rintro c ⟨⟩
  | cons c cs =>
    refine stops_cons ?_
    have hc : isBlank c = true := List.all_eq_true.1 h c List.mem_cons_self
    simp only [isBlank, Bool.or_eq_true, decide_eq_true_eq] at hc
    rcases hc with ((rfl | rfl) | rfl) | rfl <;> decide

/-- What `json.dumps` writes, `json.loads` reads back, with blanks behind it too. -/
lemma loads_dumpsWith {x : Json F} (hx : WFWith enc.Valid x) {cs : Word} (hcs : cs.all isBlank = true) :
    loads fl (dumpsWith enc fl x ++ cs) = some x := by
  have hskip := skip_dumps enc fl x cs
  have hlen : (dumpsWith enc fl x).length ≤ (dumpsWith enc fl x ++ cs).length + 1 := by
    rw [List.length_append]
    omega
  have hparse := parseValue_dumps x hx _ hlen cs (stops_of_blank hcs)
  have hrest : skip cs = [] := List.dropWhile_eq_nil_iff.2 fun c hc => List.all_eq_true.1 hcs c hc
  rw [loads, hskip, hparse]
  exact if_pos hrest

lemma loads_dumps {x : Json F} (hx : WF x) : loads fl (dumps fl x) = some x := by
  have h : loads fl (dumpsWith ascii fl x ++ []) = some x := loads_dumpsWith hx.with rfl
  rwa [List.append_nil, ← dumps_eq] at h

end OpsSentry.Foundation.JsonText
