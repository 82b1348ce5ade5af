import Mathlib.Data.List.Infix
import Mathlib.Tactic.Common

/-! Absolute POSIX paths in normal form, and the lexical resolution of a path against a
directory. -/

namespace OpsSentry.Foundation.PosixPath

def IsName (n : String) : Prop := n ≠ "" ∧ n ≠ "." ∧ n ≠ ".." ∧ '/' ∉ n.toList

instance (n : String) : Decidable (IsName n) := inferInstanceAs (Decidable (_ ∧ _))

structure AbsPath where
  names : List String
  valid : ∀ n ∈ names, IsName n
deriving DecidableEq

namespace AbsPath

def root : AbsPath := ⟨[], by simp⟩

def child (p : AbsPath) (n : String) (h : IsName n) : AbsPath where
  names := p.names ++ [n]
  valid := by
    intro m hm
    rcases List.mem_append.mp hm with hm | hm
    · exact p.valid m hm
    · exact List.mem_singleton.mp hm ▸ h

def parent (p : AbsPath) : AbsPath where
  names := p.names.dropLast
  valid n hn := p.valid n (List.mem_of_mem_dropLast hn)

def chars (p : AbsPath) : List Char :=
  match p.names with
  | [] => ['/']
  | ns => ns.flatMap fun n => '/' :: n.toList

/-- `q` is `p` or lies below it. -/
def Below (p q : AbsPath) : Prop := p.names <+: q.names

instance (p q : AbsPath) : Decidable (Below p q) := inferInstanceAs (Decidable (_ <+: _))

lemma chars_prefix {p q : AbsPath} (h : Below p q) : p.chars <+: q.chars := by
  obtain ⟨rest, hq⟩ := h
  simp only [chars]
  rw [← hq]
  cases hp : p.names with
  | nil =>
    cases rest with
    | nil => exact List.prefix_rfl
    | cons n rest => exact ⟨n.toList ++ rest.flatMap fun n => '/' :: n.toList, by simp⟩
  | cons n ns =>
    rw [List.cons_append]
    dsimp only
    rw [← List.cons_append, List.flatMap_append]
    exact List.prefix_append _ _

/-- One component; an empty one and `.` stay where they are. -/
def step (p : AbsPath) (component : String) : AbsPath :=
  if h : IsName component then p.child component h
  else if component = ".." then p.parent
  else p

end AbsPath

def components : List Char → List Char → List String
  | name, [] => [String.ofList name]
  | name, c :: cs => if c = '/' then String.ofList name :: components [] cs else components (name ++ [c]) cs

def IsAbsolute (path : String) : Prop := path.toList.head? = some '/'

instance (path : String) : Decidable (IsAbsolute path) := inferInstanceAs (Decidable (_ = _))

/-- The absolute path that `path` names in directory `dir`. -/
def resolve (dir : AbsPath) (path : String) : AbsPath :=
  (components [] path.toList).foldl AbsPath.step (if IsAbsolute path then AbsPath.root else dir)

lemma resolve_of_isAbsolute {path : String} (h : IsAbsolute path) (dir dir' : AbsPath) :
    resolve dir path = resolve dir' path := by
  simp only [resolve]
  rw [if_pos h, if_pos h]

example : (resolve ⟨["srv", "app"], by decide⟩ "..//./etc/x/../y").names = ["srv", "etc", "y"] := by decide

/-! `pathlib`: the parts of an absolute path, before `..` is resolved. -/

abbrev Parts := List String

/-- `/`: an absolute path on the right replaces the one on the left. -/
def joined (path : Parts) (segment : String) : Parts :=
  (if IsAbsolute segment then [] else path) ++ (components [] segment.toList).filter fun n => n ≠ "" ∧ n ≠ "."

def normal (path : Parts) : AbsPath := path.foldl AbsPath.step AbsPath.root

section Names

variable {n : String} {path : Parts}

lemma components_of_notMem {name cs : List Char} (h : '/' ∉ cs) :
    components name cs = [String.ofList (name ++ cs)] := by
  induction cs generalizing name with
  | nil => rw [components, List.append_nil]
  | cons c cs ih =>
    rw [List.mem_cons, not_or] at h
    rw [components, if_neg (Ne.symm h.1), ih h.2, List.append_assoc, List.singleton_append]

lemma joined_of_isName (h : IsName n) (path : Parts) : joined path n = path ++ [n] := by
  obtain ⟨hne, hdot, -, hslash⟩ := h
  have hrelative : ¬ IsAbsolute n := fun habs => hslash (List.mem_of_mem_head? habs)
  rw [joined, if_neg hrelative, components_of_notMem hslash, List.nil_append, String.ofList_toList,
    List.filter_cons_of_pos (by simp [hne, hdot]), List.filter_nil]

lemma normal_append (path : Parts) {names : List String} (h : ∀ n ∈ names, IsName n) :
    (normal (path ++ names)).names = (normal path).names ++ names := by
  induction names generalizing path with
  | nil => rw [List.append_nil, List.append_nil]
  | cons n names ih =>
    have hn := h n List.mem_cons_self
    have hstep : (normal (path ++ [n])).names = (normal path).names ++ [n] := by
      rw [normal, List.foldl_append, List.foldl_cons, List.foldl_nil, AbsPath.step, dif_pos hn]
      rfl
    have hassoc : path ++ n :: names = (path ++ [n]) ++ names := by rw [List.append_assoc, List.singleton_append]
    rw [hassoc, ih _ fun m hm => h m (List.mem_cons_of_mem _ hm), hstep, List.append_assoc, List.singleton_append]

lemma normal_names (h : ∀ n ∈ path, IsName n) : (normal path).names = path := by
  simpa [normal, AbsPath.root] using normal_append [] h

end Names

end OpsSentry.Foundation.PosixPath
