import OpsSentry.Foundation.Json

/-! Dynamically typed values as JSON: which of them a text can stand for, and what reading that
text gives. -/

namespace OpsSentry.Foundation.JsonValues

open JsonText (Floats Json Str WF WFList WFFields str valid_str)
open Strings Values

variable {F : Type} (fl : Floats F)

mutual

def ofJson : Json F → Value
  | .null => .null
  | .bool b => .bool b
  | .int n => .int n
  | .float x => .float (String.ofList (fl.repr x))
  | .str s => .ofStr (.ofPoints s)
  | .arr xs => .list (ofJsonList xs)
  | .obj kvs => .dict (ofJsonFields kvs)

def ofJsonList : List (Json F) → List Value
  | [] => []
  | x :: xs => ofJson x :: ofJsonList xs

def ofJsonFields : List (Str × Json F) → Dict
  | [] => []
  | (k, x) :: kvs => (.ofPoints k, ofJson x) :: ofJsonFields kvs

end

mutual

def toJson : Value → Json F
  | .null | .object _ => .null
  | .bool b => .bool b
  | .int n => .int n
  | .float repr => .float (fl.parse repr.toList)
  | .str s => .str (str s)
  | .lone s => .str s.points
  | .list xs => .arr (toJsonList xs)
  | .dict kvs => .obj (toJsonFields kvs)

def toJsonList : List Value → List (Json F)
  | [] => []
  | x :: xs => toJson x :: toJsonList xs

def toJsonFields : Dict → List (Str × Json F)
  | [] => []
  | (k, x) :: kvs => (k.points, toJson x) :: toJsonFields kvs

end

/-- A string that reading a text gives: its surrogates make no pair. -/
def IsText : PyStr → Prop
  | .text _ => True
  | .lone s => JsonText.ValidStr s.points

mutual

/-- A value that a JSON text can stand for. -/
def IsJson : Value → Prop
  | .float repr => ∃ x, repr.toList = fl.repr x
  | .lone s => IsText (.lone s)
  | .list xs => IsJsonList xs
  | .dict kvs => (kvs.map Prod.fst).Nodup ∧ IsJsonFields kvs
  | .object _ => False
  | _ => True

def IsJsonList : List Value → Prop
  | [] => True
  | x :: xs => IsJson x ∧ IsJsonList xs

def IsJsonFields : Dict → Prop
  | [] => True
  | (k, x) :: kvs => (IsText k ∧ IsJson x) ∧ IsJsonFields kvs

end

/-- What `json.dumps` writes of a value that it does not refuse. -/
def write (v : Value) : String := String.ofList (JsonText.dumps fl (toJson fl v))

/-- `json.loads`; `none` where it raises `JSONDecodeError`. -/
def read (s : String) : Option Value := (JsonText.loads fl s.toList).map (ofJson fl)

lemma keys_toJsonFields (kvs : Dict) : (toJsonFields fl kvs).map Prod.fst = (kvs.map Prod.fst).map PyStr.points := by
  induction kvs with
  | nil => rfl
  | cons p kvs ih => rw [toJsonFields, List.map_cons, ih, List.map_cons, List.map_cons]

lemma IsText.valid {s : PyStr} (h : IsText s) : JsonText.ValidStr s.points := by
  cases s with
  | text s => exact valid_str s
  | lone s => exact h

variable {fl}

mutual

lemma ofJson_toJson (v : Value) (h : IsJson fl v) : ofJson fl (toJson fl v) = v := by
  cases v with
  | float repr =>
    obtain ⟨x, hx⟩ := h
    rw [toJson, ofJson, hx, fl.parse_repr, ← hx, String.ofList_toList]
  | str s => exact congrArg Value.ofStr (PyStr.ofPoints_points (.text s))
  | lone s => exact congrArg Value.ofStr (PyStr.ofPoints_points (.lone s))
  | list xs => rw [toJson, ofJson, ofJsonList_toJsonList xs h]
  | dict kvs => rw [toJson, ofJson, ofJsonFields_toJsonFields kvs h.2]
  | object class_name => exact h.elim
  | _ => rfl

lemma ofJsonList_toJsonList (xs : List Value) (h : IsJsonList fl xs) :
    ofJsonList fl (toJsonList fl xs) = xs := by
  cases xs with
  | nil => rfl
  | cons x xs => rw [toJsonList, ofJsonList, ofJson_toJson x h.1, ofJsonList_toJsonList xs h.2]

lemma ofJsonFields_toJsonFields (kvs : Dict) (h : IsJsonFields fl kvs) :
    ofJsonFields fl (toJsonFields fl kvs) = kvs := by
  cases kvs with
  | nil => rfl
  | cons p kvs => rw [toJsonFields, ofJsonFields, PyStr.ofPoints_points, ofJson_toJson p.2 h.1.2,
    ofJsonFields_toJsonFields kvs h.2]

end

mutual

lemma wf_toJson (v : Value) (h : IsJson fl v) : WF (toJson fl v) := by
  cases v with
  | str s => exact valid_str s
  | lone s => exact h
  | list xs => exact wfList_toJsonList xs h
  | dict kvs =>
    refine ⟨?_, wfFields_toJsonFields kvs h.2⟩
    rw [keys_toJsonFields]
    exact h.1.map PyStr.points_injective
  | _ => trivial

lemma wfList_toJsonList (xs : List Value) (h : IsJsonList fl xs) : WFList (toJsonList fl xs) := by
  cases xs with
  | nil => trivial
  | cons x xs => exact ⟨wf_toJson x h.1, wfList_toJsonList xs h.2⟩

lemma wfFields_toJsonFields (kvs : Dict) (h : IsJsonFields fl kvs) : WFFields (toJsonFields fl kvs) := by
  cases kvs with
  | nil => trivial
  | cons p kvs => exact ⟨⟨h.1.1.valid, wf_toJson p.2 h.1.2⟩, wfFields_toJsonFields kvs h.2⟩

end

mutual

lemma refused_isJson (v : Value) (h : IsJson fl v) : v.refused = none := by
  cases v with
  | list xs => exact refusedList_isJson xs h
  | dict kvs => exact refusedDict_isJson kvs h.2
  | object class_name => exact h.elim
  | _ => rfl

lemma refusedList_isJson (xs : List Value) (h : IsJsonList fl xs) : refusedList xs = none := by
  cases xs with
  | nil => rfl
  | cons x xs => rw [refusedList, refused_isJson x h.1, refusedList_isJson xs h.2]; rfl

lemma refusedDict_isJson (kvs : Dict) (h : IsJsonFields fl kvs) : refusedDict kvs = none := by
  cases kvs with
  | nil => rfl
  | cons p kvs => rw [refusedDict, refused_isJson p.2 h.1.2, refusedDict_isJson kvs h.2]; rfl

end

lemma read_write {v : Value} (h : IsJson fl v) : read fl (write fl v) = some v := by
  rw [read, write, String.toList_ofList, JsonText.loads_dumps (wf_toJson v h), Option.map_some, ofJson_toJson v h]

lemma read_line {v : Value} (h : IsJson fl v) : read fl (write fl v ++ "\n") = some v := by
  have hloads : JsonText.loads fl (JsonText.dumpsWith JsonText.ascii fl (toJson fl v) ++ ['\n']) = some (toJson fl v) :=
    JsonText.loads_dumpsWith (wf_toJson v h).with rfl
  rw [← JsonText.dumps_eq] at hloads
  have htext : (write fl v ++ "\n").toList = JsonText.dumps fl (toJson fl v) ++ ['\n'] := by
    rw [write, String.toList_append, String.toList_ofList]
    rfl
  rw [read, htext, hloads, Option.map_some, ofJson_toJson v h]

end OpsSentry.Foundation.JsonValues
