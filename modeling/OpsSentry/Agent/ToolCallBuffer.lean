import OpsSentry.Agent.AgentVM
import OpsSentry.Foundation.Dicts
import OpsSentry.Foundation.Ranks
import Mathlib.Data.List.Dedup
import Mathlib.Data.List.Sort

/-! The tool calls that `chat` gathers from a stream, against a buffer that is keyed by index. -/

namespace OpsSentry.Agent.ToolCalls

open Foundation.Dicts Foundation.Programs Foundation.Ranks

section Reference

/-- The buffer of the design document: one entry for each index, which has the id of its first fragment. -/
def buffered (tool_call_buffer : OrderedDict ℤ ToolCall) (tc : Fragment) : OrderedDict ℤ ToolCall :=
  let buf := (tool_call_buffer.get? tc.index).getD ⟨tc.id, "", ""⟩
  tool_call_buffer.set tc.index
    { buf with name := buf.name ++ tc.name.getD "", arguments := buf.arguments ++ tc.arguments.getD "" }

def fragments (deltas : List Delta) : List Fragment := deltas.flatMap Delta.tool_calls

/-- The entries of the buffer, listed by index. -/
def reference (deltas : List Delta) : List ToolCall :=
  let buffer := (fragments deltas).foldl buffered .empty
  (buffer.keys.insertionSort (· ≤ ·)).filterMap buffer.get?

def contents : List Delta → String
  | [] => ""
  | delta :: deltas => delta.content.getD "" ++ contents deltas

/-- Where the socket takes what it is sent, the loop over the chunks ends with the content of the
stream and the calls of the reference. -/
def Obtains (deltas : List Delta) : Prop :=
  ∀ w : World Unit, (consume "" [] deltas).alone (fun _ => exec () { }) 0 w =
    some (w, .ok (contents deltas, reference deltas))

end Reference

section Condition

/-- No name and no arguments. -/
def Silent (f : Fragment) : Prop := f.name.getD "" = "" ∧ f.arguments.getD "" = ""

instance (f : Fragment) : Decidable (Silent f) := inferInstanceAs (Decidable (_ ∧ _))

/-- The fragments that begin a call when `begun` calls have begun: their index is not below. -/
def begins (begun : ℕ) : List Fragment → List Fragment
  | [] => []
  | f :: fs => if begun ≤ f.index then f :: begins (begun + 1) fs else begins begun fs

/-- A fragment whose index is beyond the call that it begins is silent. -/
def InPlace (begun : ℕ) : List Fragment → Prop
  | [] => True
  | f :: fs => (begun < f.index → Silent f) ∧ InPlace (if begun ≤ f.index then begun + 1 else begun) fs

instance decidableInPlace : ∀ begun fs, Decidable (InPlace begun fs)
  | _, [] => isTrue trivial
  | begun, f :: fs =>
    have := decidableInPlace (if begun ≤ f.index then begun + 1 else begun) fs
    inferInstanceAs (Decidable ((begun < f.index → Silent f) ∧ _))

def indexes (fs : List Fragment) : List ℕ := (fs.map fun f => f.index.toNat).dedup.insertionSort (· ≤ ·)

def firstId (fs : List Fragment) (i : ℕ) : Option String := (fs.find? fun f => f.index = (i : ℤ)).bind Fragment.id

/-- The fragments that begin the calls have the ids of the indexes in order, none begins a call with
more than an id out of its place, and no index above one that does not occur has more than an id. -/
structure Aligned (fs : List Fragment) : Prop where
  in_place : InPlace 0 fs
  ids : (begins 0 fs).map Fragment.id = (indexes fs).map (firstId fs)
  gaps : ∀ f ∈ fs, (∃ j < f.index.toNat, j ∉ indexes fs) → Silent f

end Condition

section Accumulated

/-- The texts of the fragments with an index, one after another. -/
def texts (field : Fragment → Option String) (i : ℕ) : List Fragment → String
  | [] => ""
  | f :: fs => (if f.index = i then (field f).getD "" else "") ++ texts field i fs

def callOf (fs : List Fragment) (id : Option String) (i : ℕ) : ToolCall :=
  ⟨id, texts Fragment.name i fs, texts Fragment.arguments i fs⟩

def extended (fs : List Fragment) (i : ℕ) (c : ToolCall) : ToolCall :=
  { c with name := c.name ++ texts Fragment.name i fs, arguments := c.arguments ++ texts Fragment.arguments i fs }

variable {f : Fragment} {fs : List Fragment} {calls : List ToolCall} {i : ℕ}

lemma accumulate_eq (calls : List ToolCall) (deltas : List Delta) :
    accumulate calls deltas = (fragments deltas).foldlM addFragment calls := by
  rw [accumulate, fragments]
  induction deltas generalizing calls with
  | nil => rfl
  | cons delta deltas ih =>
    rw [List.foldlM_cons, List.flatMap_cons, List.foldlM_append]
    exact bind_congr fun calls' => ih calls'

lemma Silent.extended (h : Silent f) (c : ToolCall) : extended (f :: fs) i c = extended fs i c := by
  simp only [ToolCalls.extended, texts, h.1, h.2, ite_self, String.empty_append]

lemma extended_cons (h : f.index = i) (c : ToolCall) : extended (f :: fs) i c =
    extended fs i { c with name := c.name ++ f.name.getD "", arguments := c.arguments ++ f.arguments.getD "" } := by
  simp only [extended, texts, h, if_true, String.append_assoc]

lemma extended_cons_of_ne (h : f.index ≠ i) (c : ToolCall) : extended (f :: fs) i c = extended fs i c := by
  simp only [extended, texts, h, if_false, String.empty_append]

/-- A call that has only its id. -/
def blank (f : Fragment) : ToolCall := ⟨f.id, "", ""⟩

def grown (calls : List ToolCall) (f : Fragment) : List ToolCall :=
  if calls.length ≤ f.index then calls ++ [blank f] else calls

lemma grown_append (calls : List ToolCall) (f : Fragment) (fs : List Fragment) :
    grown calls f ++ (begins (grown calls f).length fs).map blank =
      calls ++ (begins calls.length (f :: fs)).map blank := by
  rw [grown, begins]
  split
  · rw [List.length_append, List.length_singleton, List.append_assoc, List.map_cons]
    rfl
  · rfl

lemma length_grown (calls : List ToolCall) (f : Fragment) :
    (grown calls f).length = if calls.length ≤ f.index then calls.length + 1 else calls.length := by
  rw [grown]
  split
  · rw [List.length_append, List.length_singleton]
  · rfl

lemma addFragment_silent (h : Silent f) (calls : List ToolCall) :
    addFragment calls f = .ok (grown calls f) :=
  if_pos h

lemma addFragment_displaced (h : ¬ Silent f) (hindex : calls.length < f.index) :
    addFragment calls f = .error .index := by
  have hlength : (grown calls f).length = calls.length + 1 := by rw [length_grown, if_pos hindex.le]
  have hnone : position (grown calls f).length f.index = none := by
    rw [position, hlength, if_pos (by omega), if_neg (by omega)]
  refine (if_neg h).trans ?_
  split
  next => rfl
  next hsome => cases hnone.symm.trans hsome

lemma addFragment_placed (h : ¬ Silent f) (hi : f.index = i) (hle : i ≤ calls.length) :
    addFragment calls f = .ok ((grown calls f).modify i fun c =>
      { c with name := c.name ++ f.name.getD "", arguments := c.arguments ++ f.arguments.getD "" }) := by
  have hlt : i < (grown calls f).length := by
    rw [length_grown, hi]
    split <;> omega
  have hsome : position (grown calls f).length f.index = some i := by
    rw [position, hi, if_pos (by omega), if_pos (by omega), Int.toNat_natCast]
  refine (if_neg h).trans ?_
  split
  next hnone => cases hsome.symm.trans hnone
  next hj =>
    cases hsome.symm.trans hj
    rfl

/-- The texts of the fragment go to the call of its index, whether now or with those that follow. -/
lemma mapIdx_modified (hi : f.index = i) (hlt : i < calls.length) (more : List ToolCall) :
    (calls.modify i (fun c =>
        { c with name := c.name ++ f.name.getD "", arguments := c.arguments ++ f.arguments.getD "" }) ++
      more).mapIdx (extended fs) = (calls ++ more).mapIdx (extended (f :: fs)) := by
  apply List.ext_getElem?
  intro j
  rw [List.getElem?_mapIdx, List.getElem?_mapIdx, List.getElem?_append, List.getElem?_append, List.length_modify,
    List.getElem?_modify]
  by_cases hj : i = j
  · subst hj
    rw [if_pos hlt, if_pos hlt, Option.map_eq_map, Option.map_map]
    exact congrArg (fun g => calls[i]?.map g) (funext fun c => by
      rw [Function.comp_apply, if_pos rfl, extended_cons hi])
  · have hne : f.index ≠ j := by omega
    have hextended : extended (f :: fs) j = extended fs j := funext fun c => extended_cons_of_ne hne c
    simp only [hj, if_false, hextended, Option.map_eq_map, Option.map_id']

/-- What the list of calls becomes, as long as every fragment is in its place. -/
lemma foldlM_addFragment (hindex : ∀ f ∈ fs, 0 ≤ f.index) (calls : List ToolCall) :
    fs.foldlM addFragment calls =
      if InPlace calls.length fs then .ok ((calls ++ (begins calls.length fs).map blank).mapIdx (extended fs))
      else .error .index := by
  induction fs generalizing calls with
  | nil =>
    have hsame : calls.mapIdx (extended []) = calls := by
      apply List.ext_getElem?
      intro j
      have hid : extended [] j = id := funext fun c => by simp only [extended, texts, String.append_empty, id_eq]
      rw [List.getElem?_mapIdx, hid, Option.map_id, id_eq]
    have hnil : InPlace calls.length [] := trivial
    rw [if_pos hnil, begins, List.map_nil, List.append_nil, hsame]
    rfl
  | cons f fs ih =>
    rw [List.forall_mem_cons] at hindex
    have hrest := ih hindex.2 (grown calls f)
    rw [grown_append] at hrest
    have hlength := length_grown calls f
    rw [List.foldlM_cons]
    by_cases hsilent : Silent f
    · have hext : extended (f :: fs) = extended fs := funext fun i => funext fun c => hsilent.extended c
      have hplace : InPlace calls.length (f :: fs) ↔ InPlace (grown calls f).length fs := by
        rw [InPlace, hlength]
        exact and_iff_right fun _ => hsilent
      rw [addFragment_silent hsilent, hext]
      simp only [hplace]
      exact hrest
    · by_cases hlt : calls.length < f.index
      · rw [addFragment_displaced hsilent hlt, if_neg fun hplace => hsilent (hplace.1 hlt)]
        rfl
      · obtain ⟨i, hi⟩ := Int.eq_ofNat_of_zero_le hindex.1
        have hplace : InPlace calls.length (f :: fs) ↔ InPlace (grown calls f).length fs := by
          rw [InPlace, hlength]
          exact and_iff_right fun h => absurd h hlt
        have hmodified := ih hindex.2 ((grown calls f).modify i fun c =>
          { c with name := c.name ++ f.name.getD "", arguments := c.arguments ++ f.arguments.getD "" })
        have hwithin : i < (grown calls f).length := by
          rw [hlength]
          split <;> omega
        rw [List.length_modify, mapIdx_modified hi hwithin, grown_append] at hmodified
        rw [addFragment_placed hsilent hi (by omega)]
        simp only [hplace]
        exact hmodified

end Accumulated

section Reference

variable {f : Fragment} {fs : List Fragment} {d : OrderedDict ℤ ToolCall} {i : ℕ}

lemma get?_buffered_of_ne (h : f.index ≠ i) : (buffered d f).get? i = d.get? i := by
  rw [buffered, OrderedDict.get?_set, if_neg (Ne.symm h)]

lemma get?_buffered (h : f.index = i) : (buffered d f).get? i = some
    { (d.get? i).getD (blank f) with
      name := ((d.get? i).getD (blank f)).name ++ f.name.getD ""
      arguments := ((d.get? i).getD (blank f)).arguments ++ f.arguments.getD "" } := by
  rw [buffered, h, OrderedDict.get?_set, if_pos rfl]
  rfl

lemma get?_of_some {c : ToolCall} (h : d.get? i = some c) :
    (fs.foldl buffered d).get? i = some (extended fs i c) := by
  induction fs generalizing d c with
  | nil =>
    have hid : extended [] i c = c := by simp only [extended, texts, String.append_empty]
    rw [hid]
    exact h
  | cons f fs ih =>
    rw [List.foldl_cons]
    by_cases hf : f.index = i
    · rw [extended_cons hf]
      apply ih
      rw [get?_buffered hf, h]
      rfl
    · rw [extended_cons_of_ne hf]
      apply ih
      rw [get?_buffered_of_ne hf, h]

lemma get?_of_none (h : d.get? i = none) : (fs.foldl buffered d).get? i =
    if (i : ℤ) ∈ fs.map Fragment.index then some (callOf fs (firstId fs i) i) else none := by
  induction fs generalizing d with
  | nil => exact h
  | cons f fs ih =>
    rw [List.foldl_cons, List.map_cons]
    by_cases hf : f.index = i
    · have hid : firstId (f :: fs) i = f.id := by simp [firstId, hf]
      rw [get?_of_some (get?_buffered hf), h, hf, if_pos List.mem_cons_self, hid]
      have hcons : extended (f :: fs) i (blank f) = _ := extended_cons hf (blank f)
      rw [Option.getD_none, ← hcons]
      simp only [extended, blank, callOf, String.empty_append]
    · have hid : firstId (f :: fs) i = firstId fs i := by simp [firstId, hf]
      have hmem : (i : ℤ) ∈ f.index :: fs.map Fragment.index ↔ (i : ℤ) ∈ fs.map Fragment.index := by
        rw [List.mem_cons, or_iff_right (Ne.symm hf)]
      have hcall : callOf (f :: fs) (firstId fs i) i = callOf fs (firstId fs i) i := by
        simp [callOf, texts, hf]
      rw [ih ((get?_buffered_of_ne hf).trans h), hid, hcall]
      simp only [hmem]

lemma mem_indexes (h : ∀ f ∈ fs, 0 ≤ f.index) : i ∈ indexes fs ↔ (i : ℤ) ∈ fs.map Fragment.index := by
  rw [indexes, List.mem_insertionSort, List.mem_dedup, List.mem_map, List.mem_map]
  refine exists_congr fun f => and_congr_right fun hf => ?_
  have := h f hf
  omega

lemma indexes_pairwise (fs : List Fragment) : (indexes fs).Pairwise (· < ·) := by
  have hsorted : (indexes fs).Pairwise (· ≤ ·) := List.pairwise_insertionSort _ _
  have hnodup : (indexes fs).Nodup := (List.perm_insertionSort _ _).nodup_iff.mpr (List.nodup_dedup _)
  exact (hsorted.and hnodup).imp fun hij => lt_of_le_of_ne hij.1 hij.2

lemma mem_keys_foldl (fs : List Fragment) (d : OrderedDict ℤ ToolCall) (k : ℤ) :
    k ∈ (fs.foldl buffered d).keys ↔ k ∈ d.keys ∨ k ∈ fs.map Fragment.index := by
  induction fs generalizing d with
  | nil => simp
  | cons f fs ih =>
    have hset : k ∈ (buffered d f).keys ↔ k ∈ d.keys ∨ k = f.index := by
      rw [buffered, OrderedDict.mem_keys_iff, OrderedDict.get?_set, OrderedDict.mem_keys_iff]
      split
      · rename_i hk
        exact ⟨fun _ => Or.inr hk, fun _ => ⟨_, rfl⟩⟩
      · rename_i hk
        exact (or_iff_left hk).symm
    rw [List.foldl_cons, ih, hset, List.map_cons, List.mem_cons, or_assoc]

lemma sorted_keys (h : ∀ f ∈ fs, 0 ≤ f.index) :
    (fs.foldl buffered .empty).keys.insertionSort (· ≤ ·) = (indexes fs).map Nat.cast := by
  have : Std.Irrefl fun x y : ℤ => x < y := ⟨fun x => lt_irrefl x⟩
  apply List.Pairwise.eq_of_mem_iff (r := fun x y : ℤ => x < y)
  · have hsorted : ((fs.foldl buffered .empty).keys.insertionSort (· ≤ ·)).Pairwise (· ≤ ·) :=
      List.pairwise_insertionSort _ _
    have hnodup : ((fs.foldl buffered .empty).keys.insertionSort (· ≤ ·)).Nodup :=
      (List.perm_insertionSort _ _).nodup_iff.mpr (fs.foldl buffered .empty).nodup
    exact (hsorted.and hnodup).imp fun hij => lt_of_le_of_ne hij.1 hij.2
  · exact List.pairwise_map.mpr ((indexes_pairwise fs).imp fun hij => by exact_mod_cast hij)
  · intro k
    have hcast : k ∈ (indexes fs).map Nat.cast ↔ ∃ i ∈ indexes fs, (i : ℤ) = k := List.mem_map
    rw [List.mem_insertionSort, mem_keys_foldl, hcast]
    constructor
    · rintro (hk | hk)
      · exact absurd hk List.not_mem_nil
      · obtain ⟨f, hf, rfl⟩ := List.mem_map.mp hk
        have hcast : (f.index.toNat : ℤ) = f.index := Int.toNat_of_nonneg (h f hf)
        exact ⟨f.index.toNat, (mem_indexes h).mpr (hcast ▸ hk), hcast⟩
    · rintro ⟨i, hi, rfl⟩
      exact Or.inr ((mem_indexes h).mp hi)

/-- The keys of the buffer are the indexes, and an entry holds the texts of its index. -/
lemma reference_eq {deltas : List Delta} (h : ∀ f ∈ fragments deltas, 0 ≤ f.index) :
    reference deltas = (indexes (fragments deltas)).map fun i =>
      callOf (fragments deltas) (firstId (fragments deltas) i) i := by
  change List.filterMap _ (((fragments deltas).foldl buffered .empty).keys.insertionSort _) = _
  rw [sorted_keys h, List.filterMap_map, ← List.filterMap_eq_map]
  apply List.filterMap_congr
  intro i hi
  rw [Function.comp_apply, get?_of_none OrderedDict.get?_empty, if_pos ((mem_indexes h).mp hi)]
  rfl

end Reference

section Agreement

variable {f : Fragment} {fs : List Fragment} {deltas : List Delta} {i : ℕ}

lemma texts_eq_empty_iff {field : Fragment → Option String} :
    texts field i fs = "" ↔ ∀ f ∈ fs, f.index = i → (field f).getD "" = "" := by
  induction fs with
  | nil => simp [texts]
  | cons f fs ih =>
    rw [texts, String.append_eq_empty_iff, ih, List.forall_mem_cons]
    by_cases hf : f.index = i <;> simp [hf]

/-- What an index adds to its call. -/
def textOf (fs : List Fragment) (i : ℕ) : String × String := (texts Fragment.name i fs, texts Fragment.arguments i fs)

lemma textOf_eq_empty_iff : textOf fs i = ("", "") ↔ ∀ f ∈ fs, f.index = i → Silent f := by
  rw [textOf, Prod.mk.injEq, texts_eq_empty_iff, texts_eq_empty_iff]
  exact ⟨fun h f hf hi => ⟨h.1 f hf hi, h.2 f hf hi⟩, fun h => ⟨fun f hf hi => (h f hf hi).1, fun f hf hi => (h f hf hi).2⟩⟩

lemma callOf_eq_iff {id id' : Option String} {j : ℕ} :
    callOf fs id i = callOf fs id' j ↔ id = id' ∧ textOf fs i = textOf fs j := by
  simp [callOf, textOf]

/-- The list of calls has the ids of those that begin them, and at each place the texts of its index. -/
lemma gathered_eq_iff {xs : List Fragment} {ns : List ℕ} :
    (xs.map blank).mapIdx (extended fs) = ns.map (fun i => callOf fs (firstId fs i) i) ↔
      xs.map Fragment.id = ns.map (firstId fs) ∧ ∀ k (hk : k < ns.length), textOf fs k = textOf fs ns[k] := by
  have hcall : ∀ k x, extended fs k (blank x) = callOf fs x.id k := by
    intro k x
    simp only [extended, blank, callOf, String.empty_append]
  constructor
  · intro h
    have hlength : xs.length = ns.length := by simpa using congrArg List.length h
    have hget : ∀ k (hx : k < xs.length) (hk : k < ns.length),
        xs[k].id = firstId fs ns[k] ∧ textOf fs k = textOf fs ns[k] := by
      intro k hx hk
      have hk' := List.getElem_of_eq h (by simpa using hx : k < _)
      rw [List.getElem_mapIdx, List.getElem_map, List.getElem_map, hcall, callOf_eq_iff] at hk'
      exact hk'
    refine ⟨List.ext_getElem (by simpa using hlength) fun k hk hk' => ?_, fun k hk => ?_⟩
    · rw [List.length_map] at hk hk'
      rw [List.getElem_map, List.getElem_map]
      exact (hget k hk hk').1
    · exact (hget k (hlength ▸ hk) hk).2
  · rintro ⟨hids, htexts⟩
    have hlength : xs.length = ns.length := by simpa using congrArg List.length hids
    apply List.ext_getElem (by simpa using hlength)
    intro k hk hk'
    rw [List.length_map] at hk'
    have hid := List.getElem_of_eq hids (by simpa [hlength] using hk' : k < _)
    rw [List.getElem_map, List.getElem_map] at hid
    rw [List.getElem_mapIdx, List.getElem_map, List.getElem_map, hcall, callOf_eq_iff]
    exact ⟨hid, htexts k hk'⟩

lemma mem_indexes_toNat (hf : f ∈ fs) : f.index.toNat ∈ indexes fs := by
  rw [indexes, List.mem_insertionSort, List.mem_dedup]
  exact List.mem_map_of_mem hf

lemma gaps_iff (h : ∀ f ∈ fs, 0 ≤ f.index) :
    (∀ k (hk : k < (indexes fs).length), textOf fs k = textOf fs (indexes fs)[k]) ↔
      ∀ f ∈ fs, (∃ j < f.index.toNat, j ∉ indexes fs) → Silent f := by
  have hoff : ∀ n, n ∉ indexes fs → textOf fs n = ("", "") := by
    intro n hn
    rw [textOf_eq_empty_iff]
    intro f hf hindex
    rw [mem_indexes h] at hn
    exact absurd (hindex ▸ List.mem_map_of_mem hf) hn
  rw [agree_iff (indexes_pairwise fs) hoff]
  simp only [lt_getElem_iff (indexes_pairwise fs), textOf_eq_empty_iff]
  constructor
  · intro hgap f hf hbelow
    obtain ⟨k, hk, hkf⟩ := List.mem_iff_getElem.mp (mem_indexes_toNat hf)
    have hnonneg := h f hf
    exact hgap k hk (hkf ▸ hbelow) f hf (by omega)
  · intro hgap k hk hbelow f hf hindex
    have hkf : f.index.toNat = (indexes fs)[k] := by omega
    exact hgap f hf (hkf ▸ hbelow)

lemma accumulate_iff (h : ∀ f ∈ fragments deltas, 0 ≤ f.index) :
    accumulate [] deltas = .ok (reference deltas) ↔ Aligned (fragments deltas) := by
  rw [accumulate_eq, foldlM_addFragment h, reference_eq h]
  by_cases hplace : InPlace 0 (fragments deltas)
  · have hplace' : InPlace ([] : List ToolCall).length (fragments deltas) := hplace
    rw [if_pos hplace', List.nil_append, Except.ok.injEq, List.length_nil, gathered_eq_iff, gaps_iff h]
    exact ⟨fun hboth => ⟨hplace, hboth.1, hboth.2⟩, fun ha => ⟨ha.ids, ha.gaps⟩⟩
  · have hplace' : ¬ InPlace ([] : List ToolCall).length (fragments deltas) := hplace
    rw [if_neg hplace']
    constructor
    · intro he
      cases he
    · exact fun ha => absurd ha.in_place hplace

/-- What the loop over the chunks ends with where every chunk can be sent. -/
lemma consume_alone {A : Type} [DecidableEq A] (a : A) (w : World A) (n : ℕ) (full_content : String)
    (tool_calls : List ToolCall) (deltas : List Delta) :
    (consume full_content tool_calls deltas).alone (fun _ => exec a { }) n w =
      some (w, (accumulate tool_calls deltas).map fun calls => (full_content ++ contents deltas, calls)) := by
  induction deltas generalizing n full_content tool_calls with
  | nil =>
    rw [contents, String.append_empty]
    rfl
  | cons delta deltas ih =>
    have hrest : ∀ n c, (orThrow (delta.tool_calls.foldlM addFragment tool_calls) >>= fun tool_calls =>
        consume (full_content ++ c) tool_calls deltas).alone (fun _ => exec a { }) n w =
        some (w, (accumulate tool_calls (delta :: deltas)).map fun calls => (full_content ++ (c ++ contents deltas), calls)) := by
      intro n c
      rw [accumulate, List.foldlM_cons]
      cases hcalls : delta.tool_calls.foldlM addFragment tool_calls with
      | error e => rfl
      | ok calls =>
        rw [← String.append_assoc]
        exact ih n (full_content ++ c) calls
    have hcontents : contents (delta :: deltas) = delta.content.getD "" ++ contents deltas := rfl
    rw [hcontents]
    rw [consume]
    cases delta.content with
    | none => exact hrest n ""
    | some c =>
      have hyield : yieldContent (some c) =
        if c = "" then pure "" else yieldChunk (.content c) >>= fun _ => pure c := rfl
      rw [hyield]
      split
      · rename_i hempty
        rw [hempty]
        exact hrest n ""
      · exact hrest (n + 1) c

/-- `chat` gathers the calls of the reference from a stream exactly if its fragments are aligned. -/
theorem obtains_iff_aligned (deltas : List Delta) (h : ∀ f ∈ fragments deltas, 0 ≤ f.index) :
    Obtains deltas ↔ Aligned (fragments deltas) := by
  rw [← accumulate_iff h]
  simp only [Obtains, consume_alone, Option.some.injEq, Prod.mk.injEq, true_and, String.empty_append]
  cases accumulate [] deltas with
  | error e =>
    constructor
    · exact fun hall => nomatch hall newSession
    · exact fun he => nomatch he
  | ok calls =>
    constructor
    · intro hall
      exact congrArg Except.ok (Prod.mk.inj (Except.ok.inj (hall newSession))).2
    · intro he w
      rw [Except.ok.inj he]
      rfl

section Sample

def fragment (index : ℤ) (id : Option String) (arguments : String) : Fragment :=
  { index := index, id := id, name := id.map fun _ => "run_command", arguments := some arguments }

def interleaved : List Delta :=
  [⟨some "checking", [fragment 0 (some "call-0") "", fragment 1 (some "call-1") "\x7b"]⟩,
    ⟨none, [fragment 0 none "\x7b\x7d", fragment 1 none "\x7d"]⟩]

theorem interleaved_obtained : Obtains interleaved :=
  (obtains_iff_aligned interleaved (by decide)).mpr ⟨by decide, by decide, by decide⟩

/-- A block of text has taken index 0. -/
def fromOne : List Delta := [⟨none, [fragment 1 (some "call-1") ""]⟩]

theorem from_one_not_obtained : ¬ Obtains fromOne := by
  intro h
  have hrun := h newSession
  rw [consume_alone] at hrun
  cases hrun

end Sample

end Agreement

end OpsSentry.Agent.ToolCalls
