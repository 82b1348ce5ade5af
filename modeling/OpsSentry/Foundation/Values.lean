import OpsSentry.Foundation.Strings

/-! Dynamically typed values as a `dict[str, Any]` holds them, and which of them a JSON
text can stand for. -/

namespace OpsSentry.Foundation.Values

open Strings

inductive Value
  | null
  | bool (b : Bool)
  | int (i : ℤ)
  | float (repr : String)
  | str (s : String)
  | lone (s : Lone)
  | list (xs : List Value)
  | dict (kvs : List (PyStr × Value))
  | object (class_name : String)

abbrev Dict := List (PyStr × Value)

def Value.ofStr : PyStr → Value
  | .text s => .str s
  | .lone s => .lone s

def Value.truthy : Value → Bool
  | .null => false
  | .bool b => b
  | .int n => n ≠ 0
  | .float repr => repr ≠ "0.0" && repr ≠ "-0.0"
  | .str s => s ≠ ""
  | .lone _ => true
  | .list xs => !xs.isEmpty
  | .dict kvs => !kvs.isEmpty
  | .object _ => true

/-- `d[k] = v`: a key that is present keeps its place. -/
def put {κ ν : Type} [DecidableEq κ] (d : List (κ × ν)) (k : κ) (v : ν) : List (κ × ν) :=
  if k ∈ d.map Prod.fst then d.map fun p => if p.1 = k then (k, v) else p else d ++ [(k, v)]

lemma mem_put {κ ν : Type} [DecidableEq κ] {d : List (κ × ν)} {k : κ} {v : ν} {p : κ × ν}
    (h : p ∈ put d k v) :
    p.1 = k ∨ p ∈ d := by
  rw [put] at h
  split at h
  · obtain ⟨q, hq, hp⟩ := List.mem_map.mp h
    split at hp
    · exact Or.inl (congrArg Prod.fst hp.symm)
    · exact Or.inr (hp ▸ hq)
  · rcases List.mem_append.mp h with h | h
    · exact Or.inr h
    · exact Or.inl (congrArg Prod.fst (List.mem_singleton.mp h))

mutual

/-- The class of the first object inside that `json.dumps` refuses with a `TypeError`. -/
def Value.refused : Value → Option String
  | .list xs => refusedList xs
  | .dict kvs => refusedDict kvs
  | .object class_name => some class_name
  | _ => none

def refusedList : List Value → Option String
  | [] => none
  | x :: xs => x.refused <|> refusedList xs

def refusedDict : List (PyStr × Value) → Option String
  | [] => none
  | (_, x) :: kvs => x.refused <|> refusedDict kvs

end

example : (Value.dict [("a", .list [.int 1, .object "set"])]).refused = some "set" := by decide

end OpsSentry.Foundation.Values
