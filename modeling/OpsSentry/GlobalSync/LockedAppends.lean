import OpsSentry.ConfigShield.FileExclusion
import OpsSentry.Foundation.Answers
import OpsSentry.GlobalSync.TornLines

/-! `SyncBuffer.append` of several nodes with its lock on files, byte by byte, when nothing fails and
no node crashes. -/

namespace OpsSentry.GlobalSync.Locked

open ConfigShield (NodeId Resource World LockRecord Exc Path isStale)
open Foundation.Programs Foundation.Runs Foundation.JsonText

section Calls

/-- A thread of a node. What the state lock of its shield keeps apart is left to any interleaving. -/
abbrev Thread := NodeId × ℕ

/-- The `k`-th call of a thread. -/
abbrev Tag := Thread × ℕ

/-- The calls of `acquire` and `heartbeat`, those of the `release` of an append, and one byte of a line:
however a line is split into writes, each split is among the interleavings of its bytes. -/
inductive Call
  | shield (c : ConfigShield.Command)
  | releasing (c : ConfigShield.Command)
  | write (byte : Char)

def Answer : Call → Type
  | .shield c | .releasing c => ConfigShield.Reply c
  | .write _ => Unit

abbrev Calls : Interface := ⟨Call, Answer⟩

variable {F : Type}

structure Ended (F : Type) where
  tag : Tag
  envelope : SyncEnvelope F
  result : Except Exc Unit

/-- Lock directory and buffer file, whose bytes carry the call that wrote them; `seen a` is the record
that the release of thread `a` has read. -/
structure Site (F : Type) where
  locks : World
  buffer : List (Tag × Char)
  calls : Thread → ℕ
  seen : Thread → Option LockRecord
  ended : List (Ended F)

/-- The threads number their calls from 1; what the buffer holds before carries number 0. -/
def Site.start (locks : World) (text : Word) : Site F :=
  ⟨locks, text.map ((("", 0), 0), ·), fun _ => 0, fun _ => none, []⟩

def Site.tag (s : Site F) (a : Thread) : Tag := (a, s.calls a)

def read (a : Thread) (seen : Thread → Option LockRecord) : (c : ConfigShield.Command) → ConfigShield.Reply c →
    Thread → Option LockRecord
  | .readText _, .ok (some x) => Function.update seen a (some x)
  | _, _ => seen

def exec (a : Thread) (s : Site F) : (c : Call) → Option (Site F × Answer c)
  | .shield c => (ConfigShield.exec a.1 false s.locks c).map fun w => ({ s with locks := w.1 }, w.2)
  | .releasing c => (ConfigShield.exec a.1 false s.locks c).map fun w =>
      ({ s with locks := w.1, seen := read a s.seen c w.2 }, w.2)
  | .write byte => some ({ s with buffer := s.buffer ++ [(s.tag a, byte)] }, ())

inductive Procedure (F : Type)
  | append (envelope : SyncEnvelope F) (deadline : ℤ)
  | heartbeat

def shielded : Embedding ConfigShield.Disk Calls := ⟨.shield, fun _ r => r⟩
def releasing : Embedding ConfigShield.Disk Calls := ⟨.releasing, fun _ r => r⟩

def write : Word → Prog Calls Exc Unit
  | [] => pure ()
  | byte :: bytes => do
    Prog.perform (I := Calls) (.write byte)
    write bytes

variable (fl : Floats F) (ttl : NodeId → ℤ) (resource_id : Resource)

/-- The `try` and `finally` of `append`. Opening and syncing the buffer change nothing where nothing
fails. -/
def appendLocked (self : NodeId) (envelope : SyncEnvelope F) : Prog Calls Exc Unit := do
  let release := (ConfigShield.release self resource_id false).lift releasing id
  tryCatch (write (written fl envelope)) fun e => do release; throw e
  release

/-- The call starts again where `acquire` does, after a lost race or after a sleep. -/
def append (self : NodeId) (envelope : SyncEnvelope F) (deadline : ℤ) : Prog Calls Exc Unit := do
  match ← (ConfigShield.acquire self resource_id (ttl self) (some deadline)).lift shielded id with
  | none => .again
  | some _ => appendLocked fl resource_id self envelope

def body (a : Thread) : Procedure F → Prog Calls Exc Unit
  | .append envelope deadline => append fl ttl resource_id a.1 envelope deadline
  | .heartbeat => (do let _ ← ConfigShield.heartbeat a.1 resource_id (ttl a.1); pure ()).lift shielded id

def enter (a : Thread) (s : Site F) : Procedure F → Option (Site F)
  | .append _ deadline =>
    if deadline = s.locks.now + 15000 then some { s with calls := Function.update s.calls a (s.calls a + 1) } else none
  | .heartbeat => some s

def leave (a : Thread) (x : Except Exc Unit) (s : Site F) : Procedure F → Site F
  | .append envelope _ => { s with ended := s.ended ++ [⟨s.tag a, envelope, x⟩] }
  | .heartbeat => s

def buffers : Service Calls Thread (Site F) (Procedure F) Unit ℕ Exc Unit where
  body := body fl ttl resource_id
  exec a _ := exec a
  enter a p s := enter a s p
  leave a p x s := leave a x s p
  crash _ _ := none
  environment d s := some { s with locks := ConfigShield.tick d s.locks }

/-- An append that returned has added one line behind complete lines and nothing else, one that raised
has added nothing. -/
def AllOrNothing (buffer : List (Tag × Char)) (d : Ended F) : Prop :=
  match d.result with
  | .ok () => ∃ before after, buffer = before ++ (written fl d.envelope).map (d.tag, ·) ++ after ∧
      (∀ x ∈ before ++ after, x.1 ≠ d.tag) ∧ ∀ x, before.getLast? = some x → x.2 = '\n'
  | .error _ => ∀ x ∈ buffer, x.1 ≠ d.tag

/-- A byte goes behind a complete line or behind bytes of its own call. A release reads a complete
record, of its node or stale when it is checked, and what it unlinks is there. -/
def sheltered (a : Thread) (s : Site F) : Call → Bool
  | .write _ => s.buffer.getLast?.all fun x => x.2 == '\n' || x.1 == s.tag a
  | .releasing (.readText p) => ((s.locks.dir p).bind s.locks.text).isSome
  | .releasing .utcMs => (s.seen a).all fun x => isStale x s.locks.now
  | .releasing (.unlink p) => (s.locks.dir p).isSome
  | _ => true

end Calls

section Contract

variable {F : Type} {fl : Floats F} {ttl : NodeId → ℤ} {resource_id : Resource} {a b : Thread}
  {s t : Site F}

/-- The line of a thread is not complete yet. -/
def Open (a : Thread) (s : Site F) : Prop := ∃ x, s.buffer.getLast? = some x ∧ x.1 = s.tag a ∧ x.2 ≠ '\n'

structure Inv (fl : Floats F) (s : Site F) : Prop where
  settled : ∀ d ∈ s.ended, AllOrNothing fl s.buffer d
  numbered : ∀ x ∈ s.buffer, x.1.2 ≤ s.calls x.1.1
  closed : ∀ d ∈ s.ended, d.tag.2 ≤ s.calls d.tag.1

/-- What the steps of others do: they add bytes of their own, and none to a line that is not complete. -/
structure Rely (a : Thread) (s t : Site F) : Prop where
  calls : t.calls a = s.calls a
  seen : t.seen a = s.seen a
  buffer : ∃ more, t.buffer = s.buffer ++ more ∧ (∀ x ∈ more, x.1.1 ≠ a) ∧ (Open a s → more = [])
  ended : ∀ d ∈ t.ended, d.tag.1 = a → d ∈ s.ended

/-- No byte and no end of the call so far. -/
structure Fresh (a : Thread) (s : Site F) : Prop where
  ended : ∀ d ∈ s.ended, d.tag ≠ s.tag a
  buffer : ∀ x ∈ s.buffer, x.1 ≠ s.tag a

lemma rely_of_same {w : Site F} (hcalls : w.calls b = s.calls b) (hseen : w.seen b = s.seen b)
    (hbuffer : w.buffer = s.buffer) (hended : ∀ d ∈ w.ended, d.tag.1 = b → d ∈ s.ended) : Rely b s w := by
  refine ⟨hcalls, hseen, ⟨[], ?_, nofun, fun _ => rfl⟩, hended⟩
  rw [hbuffer, List.append_nil]

lemma Rely.refl (a : Thread) (s : Site F) : Rely a s s := rely_of_same rfl rfl rfl fun _ hd _ => hd

lemma Rely.tag (h : Rely a s t) : t.tag a = s.tag a := by
  rw [Site.tag, Site.tag, h.calls]

lemma Rely.trans {u : Site F} (h : Rely a s t) (h' : Rely a t u) : Rely a s u := by
  obtain ⟨more, hmore, hothers, hclosed⟩ := h.buffer
  obtain ⟨more', hmore', hothers', hclosed'⟩ := h'.buffer
  refine ⟨h'.calls.trans h.calls, h'.seen.trans h.seen, ⟨more ++ more', ?_, ?_, ?_⟩,
    fun d hd ha => h.ended d (h'.ended d hd ha) ha⟩
  · rw [hmore', hmore, List.append_assoc]
  · intro x hx
    rcases List.mem_append.mp hx with hx | hx
    · exact hothers x hx
    · exact hothers' x hx
  · intro hopen
    have hnone := hclosed hopen
    have hopen' : Open a t := by
      rw [Open, h.tag, hmore, hnone, List.append_nil]
      exact hopen
    rw [hnone, hclosed' hopen', List.append_nil]

def sharing (fl : Floats F) : Contract Calls Thread (Site F) (Procedure F) where
  Inv := Inv fl
  Rely := Rely
  Guard a s c := sheltered a s c = true
  Pre a p s := match p with
    | .append _ _ => Fresh a s
    | .heartbeat => True
  refl := Rely.refl
  trans := Rely.trans

lemma AllOrNothing.append {buffer more : List (Tag × Char)} {d : Ended F} (h : AllOrNothing fl buffer d)
    (hmore : ∀ x ∈ more, x.1 ≠ d.tag) : AllOrNothing fl (buffer ++ more) d := by
  obtain ⟨tag, envelope, result⟩ := d
  cases result with
  | ok =>
    obtain ⟨before, after, hbuffer, hothers, hlast⟩ := h
    refine ⟨before, after ++ more, by rw [hbuffer, List.append_assoc], ?_, hlast⟩
    intro x hx
    rw [← List.append_assoc, List.mem_append] at hx
    exact hx.elim (hothers x) (hmore x)
  | error e =>
    intro x hx
    exact (List.mem_append.mp hx).elim (h x) (hmore x)

lemma Rely.running (hr : Rely a s t) (h : ∀ d ∈ s.ended, d.tag ≠ s.tag a) :
    ∀ d ∈ t.ended, d.tag ≠ t.tag a := by
  intro d hd htag
  refine h d (hr.ended d hd ?_) (htag.trans hr.tag)
  rw [htag]
  rfl

lemma Fresh.rely (h : Fresh a s) (hr : Rely a s t) : Fresh a t := by
  obtain ⟨more, hmore, hothers, -⟩ := hr.buffer
  refine ⟨hr.running h.ended, fun x hx => ?_⟩
  rw [hr.tag]
  rw [hmore] at hx
  rcases List.mem_append.mp hx with hx | hx
  · exact h.buffer x hx
  · intro htag
    exact hothers x hx (by rw [htag]; rfl)

lemma yields_of_quiet {w : Site F} (hi : Inv fl s) (hbuffer : w.buffer = s.buffer)
    (hcalls : w.calls = s.calls)
    (hended : w.ended = s.ended) (hseen : ∀ b, b ≠ a → w.seen b = s.seen b) : (sharing fl).Yields a s w := by
  refine ⟨⟨?_, ?_, ?_⟩, fun b hb => rely_of_same (congrFun hcalls b) (hseen b hb) hbuffer ?_⟩
  · rw [hbuffer, hended]
    exact hi.settled
  · rw [hbuffer, hcalls]
    exact hi.numbered
  · rw [hended, hcalls]
    exact hi.closed
  · rw [hended]
    exact fun d hd _ => hd

lemma read_of_ne {c : ConfigShield.Command} {y : ConfigShield.Reply c} {seen : Thread → Option LockRecord}
    (hb : b ≠ a) :
    read a seen c y b = seen b := by
  cases c with
  | readText p =>
    rcases y with e | _ | x
    · rfl
    · rfl
    · exact Function.update_of_ne hb _ _
  | _ => rfl

section Lines

variable {e : SyncEnvelope F} {v w : Word} {byte : Char}

/-- The call has written `v`, behind complete lines, and nobody anything since. -/
structure Begun (a : Thread) (v : Word) (s : Site F) : Prop where
  ended : ∀ d ∈ s.ended, d.tag ≠ s.tag a
  buffer : ∃ before, s.buffer = before ++ v.map (s.tag a, ·) ∧ (∀ x ∈ before, x.1 ≠ s.tag a) ∧
    ∀ x, before.getLast? = some x → x.2 = '\n'

structure Done (fl : Floats F) (a : Thread) (e : SyncEnvelope F) (s : Site F) : Prop where
  ended : ∀ d ∈ s.ended, d.tag ≠ s.tag a
  buffer : AllOrNothing fl s.buffer ⟨s.tag a, e, .ok ()⟩

lemma ne_newline_of_prefix (h : written fl e = v ++ w) (hw : w ≠ []) {c : Char} (hc : c ∈ v) : c ≠ '\n' := by
  rintro rfl
  rw [written, ← List.dropLast_append_getLast hw, ← List.append_assoc] at h
  have hline : line fl e = v ++ w.dropLast := List.append_inj_left' h rfl
  have hnot : '\n' ∉ line fl e := newline_notMem_line e
  rw [hline] at hnot
  exact hnot (List.mem_append_left _ hc)

lemma Begun.getLast? (h : Begun a v s) (hv : v ≠ []) :
    s.buffer.getLast? = some (s.tag a, v.getLast hv) := by
  obtain ⟨before, hbuffer, -⟩ := h.buffer
  rw [hbuffer, List.getLast?_append_of_ne_nil _ (by simpa using hv), List.getLast?_map,
    List.getLast?_eq_some_getLast hv, Option.map_some]

lemma Begun.rely (h : Begun a v s) (hr : Rely a s t) (hwritten : written fl e = v ++ w) (hv : v ≠ [])
    (hw : w ≠ []) :
    Begun a v t := by
  have hopen : Open a s :=
    ⟨_, h.getLast? hv, rfl, ne_newline_of_prefix hwritten hw (List.getLast_mem hv)⟩
  obtain ⟨more, hmore, -, hnone⟩ := hr.buffer
  rw [hnone hopen, List.append_nil] at hmore
  refine ⟨hr.running h.ended, ?_⟩
  rw [hmore, hr.tag]
  exact h.buffer

lemma Done.rely (h : Done fl a e s) (hr : Rely a s t) : Done fl a e t := by
  obtain ⟨more, hmore, hothers, -⟩ := hr.buffer
  refine ⟨hr.running h.ended, ?_⟩
  rw [hmore, hr.tag]
  refine h.buffer.append fun x hx htag => ?_
  exact hothers x hx (by rw [htag]; rfl)

lemma write_yields (hi : Inv fl s) (hended : ∀ d ∈ s.ended, d.tag ≠ s.tag a)
    (hg : sheltered a s (.write byte) = true) :
    (sharing fl).Yields a s { s with buffer := s.buffer ++ [(s.tag a, byte)] } := by
  refine ⟨⟨fun d hd => (hi.settled d hd).append ?_, ?_, hi.closed⟩, fun b hb =>
    ⟨rfl, rfl, ⟨[(s.tag a, byte)], rfl, ?_, ?_⟩, fun _ hd _ => hd⟩⟩
  · intro x hx
    rw [List.mem_singleton.mp hx]
    exact (hended d hd).symm
  · intro x hx
    rcases List.mem_append.mp hx with hx | hx
    · exact hi.numbered x hx
    · rw [List.mem_singleton.mp hx]
      exact Nat.le_refl _
  · intro x hx
    rw [List.mem_singleton.mp hx]
    exact hb.symm
  · rintro ⟨x, hlast, htag, hne⟩
    simp only [sheltered, hlast, Option.all_some, Bool.or_eq_true, beq_iff_eq] at hg
    exact absurd (congrArg Prod.fst (htag.symm.trans (hg.resolve_left hne))) hb

lemma Fresh.write (h : Fresh a s) (hg : sheltered a s (.write byte) = true) :
    Begun a [byte] { s with buffer := s.buffer ++ [(s.tag a, byte)] } := by
  refine ⟨h.ended, s.buffer, rfl, h.buffer, fun x hx => ?_⟩
  simp only [sheltered, hx, Option.all_some, Bool.or_eq_true, beq_iff_eq] at hg
  exact hg.resolve_right (h.buffer x (List.mem_of_getLast? hx))

lemma Begun.write (h : Begun a v s) :
    Begun a (v ++ [byte]) { s with buffer := s.buffer ++ [(s.tag a, byte)] } := by
  obtain ⟨before, hbuffer, hothers, hlast⟩ := h.buffer
  refine ⟨h.ended, before, ?_, hothers, hlast⟩
  rw [hbuffer, List.map_append, List.append_assoc]
  rfl

lemma Begun.done (h : Begun a v s) (hwritten : written fl e = v) : Done fl a e s := by
  obtain ⟨before, hbuffer, hothers, hlast⟩ := h.buffer
  refine ⟨h.ended, before, [], ?_, by simpa using hothers, hlast⟩
  rw [hwritten, List.append_nil]
  exact hbuffer

/-- By induction on what is still to be written. -/
lemma write_wp {J : Site F → Prop} (hi : Inv fl s) (hwritten : written fl e = v ++ w)
    (hfresh : v = [] → Fresh a s) (hbegun : v ≠ [] → Begun a v s) :
    (sharing fl).wp (buffers fl ttl resource_id) a J (fun x t => x = .ok () ∧ Done fl a e t) (write w) s := by
  induction w generalizing v s with
  | nil =>
    rw [List.append_nil] at hwritten
    have hv : v ≠ [] := by
      rw [← hwritten, written]
      simp
    exact ⟨rfl, (hbegun hv).done hwritten⟩
  | cons byte w ih =>
    rintro t ht hit hg _ u y ⟨⟩
    by_cases hv : v = []
    · subst hv
      have hfresh := (hfresh rfl).rely ht
      have hy := write_yields hit hfresh.ended hg
      exact ⟨hy, ih (v := [byte]) hy.1 hwritten (absurd · (by simp)) fun _ => hfresh.write hg⟩
    · have hbegun := (hbegun hv).rely ht hwritten hv (by simp)
      have hy := write_yields hit hbegun.ended hg
      refine ⟨hy, ih (v := v ++ [byte]) hy.1 (by rw [hwritten, List.append_assoc]; rfl) ?_ fun _ => hbegun.write⟩
      intro hnil
      exact absurd hnil (by simp)

end Lines

section Shield

variable {e : SyncEnvelope F} {J : Site F → Prop} {c : ConfigShield.Command} {y : ConfigShield.Reply c}

lemma shield_yields (hi : Inv fl s) (h : exec a s (.shield c) = some (t, y)) :
    (sharing fl).Yields a s t ∧ t.buffer = s.buffer ∧ t.calls = s.calls ∧ t.ended = s.ended := by
  obtain ⟨w, -, hw⟩ := Option.map_eq_some_iff.mp h
  cases hw
  exact ⟨yields_of_quiet hi rfl rfl rfl fun _ _ => rfl, rfl, rfl, rfl⟩

lemma releasing_yields (hi : Inv fl s) (hd : Done fl a e s) (h : exec a s (.releasing c) = some (t, y)) :
    (sharing fl).Yields a s t ∧ Done fl a e t ∧ t.seen = read a s.seen c y ∧
      ∃ disk, ConfigShield.exec a.1 false s.locks c = some (disk, y) := by
  obtain ⟨⟨disk, y'⟩, hdisk, hw⟩ := Option.map_eq_some_iff.mp h
  cases hw
  exact ⟨yields_of_quiet hi rfl rfl rfl fun _ hb => read_of_ne hb, ⟨hd.ended, hd.buffer⟩, rfl, disk, hdisk⟩

lemma readRecord_wp (p : Path) (hd : Done fl a e s) :
    (sharing fl).wp (buffers fl ttl resource_id) a J
      (fun x t => ∃ found, x = .ok found ∧ Done fl a e t ∧ ∀ x, found = some x → t.seen a = some x)
      ((ConfigShield.readRecord p).lift releasing id) s := by
  intro t ht hit _ _ u there hu
  obtain ⟨hy, hd, -⟩ := releasing_yields (c := .exists p) hit (hd.rely ht) hu
  refine ⟨hy, ?_⟩
  cases there with
  | false => exact ⟨none, rfl, hd, nofun⟩
  | true =>
    intro t ht hit hg _ u y hu
    obtain ⟨hy, hd, hseen, disk, hdisk⟩ := releasing_yields (c := .readText p) hit (hd.rely ht) hu
    refine ⟨hy, ?_⟩
    obtain ⟨x, hx⟩ := Option.isSome_iff_exists.mp hg
    obtain ⟨i, hi, hx⟩ := Option.bind_eq_some_iff.mp hx
    simp only [ConfigShield.exec, hi, hx] at hdisk
    cases hdisk
    refine ⟨some x, rfl, hd, fun z hz => ?_⟩
    cases hz
    rw [hseen]
    exact Function.update_self _ _ _

lemma lockedByOther_wp {x : LockRecord} (hd : Done fl a e s) (hx : s.seen a = some x) :
    (sharing fl).wp (buffers fl ttl resource_id) a J (fun x t => x = .ok false ∧ Done fl a e t)
      ((ConfigShield.lockedByOther a.1 x).lift releasing id) s := by
  rw [ConfigShield.lockedByOther]
  split
  · exact ⟨rfl, hd⟩
  · intro t ht hit hg _ u now hu
    have hstale : isStale x t.locks.now = true := by
      have hg : sheltered a t (.releasing .utcMs) = true := hg
      simpa only [sheltered, ht.seen, hx, Option.all_some] using hg
    obtain ⟨hy, hd, -, disk, hdisk⟩ := releasing_yields (c := .utcMs) hit (hd.rely ht) hu
    cases hdisk
    refine ⟨hy, ?_, hd⟩
    change Except.ok (!isStale x t.locks.now) = _
    rw [hstale]
    rfl

lemma unlinkIfExists_wp (p : Path) (hd : Done fl a e s) :
    (sharing fl).wp (buffers fl ttl resource_id) a J (fun x t => x = .ok () ∧ Done fl a e t)
      ((ConfigShield.unlinkIfExists p).lift releasing id) s := by
  intro t ht hit _ _ u there hu
  obtain ⟨hy, hd, -⟩ := releasing_yields (c := .exists p) hit (hd.rely ht) hu
  refine ⟨hy, ?_⟩
  cases there with
  | false => exact ⟨rfl, hd⟩
  | true =>
    intro t ht hit hg _ u y hu
    obtain ⟨hy, hd, -, disk, hdisk⟩ := releasing_yields (c := .unlink p) hit (hd.rely ht) hu
    obtain ⟨i, hi⟩ := Option.isSome_iff_exists.mp hg
    simp only [ConfigShield.exec, hi] at hdisk
    cases hdisk
    exact ⟨hy, rfl, hd⟩

lemma release_wp (hi : Inv fl s) (hd : Done fl a e s) :
    (sharing fl).wp (buffers fl ttl resource_id) a J (fun x t => x = .ok () ∧ Done fl a e t)
      ((ConfigShield.release a.1 resource_id false).lift releasing id) s := by
  rw [ConfigShield.release, Prog.lift_bind]
  refine Contract.wp_bind (Contract.wp_mono hi (readRecord_wp _ hd) ?_)
  rintro _ t hit ⟨found, rfl, hd, hseen⟩
  cases found with
  | none => exact ⟨rfl, hd⟩
  | some x =>
    change (sharing fl).wp _ _ _ _ (Prog.lift releasing id (ConfigShield.lockedByOther a.1 x >>= fun locked => _)) _
    rw [Prog.lift_bind]
    refine Contract.wp_bind (Contract.wp_mono hit (lockedByOther_wp hd (hseen x rfl)) ?_)
    rintro _ u - ⟨rfl, hd⟩
    exact unlinkIfExists_wp _ hd

end Shield

lemma ended_yields {d : Ended F} (hi : Inv fl s) (htag : d.tag = s.tag a) (h : AllOrNothing fl s.buffer d) :
    (sharing fl).Yields a s { s with ended := s.ended ++ [d] } := by
  refine ⟨⟨fun d' hd => ?_, hi.numbered, fun d' hd => ?_⟩, fun b hb => rely_of_same rfl rfl rfl fun d' hd hb' => ?_⟩
  · rcases List.mem_append.mp hd with hd | hd
    · exact hi.settled d' hd
    · rw [List.mem_singleton.mp hd]
      exact h
  · rcases List.mem_append.mp hd with hd | hd
    · exact hi.closed d' hd
    · rw [List.mem_singleton.mp hd, htag]
      exact Nat.le_refl _
  · rcases List.mem_append.mp hd with hd | hd
    · exact hd
    · rw [List.mem_singleton.mp hd, htag] at hb'
      exact absurd hb'.symm hb

lemma acquire_wp {J : Site F → Prop} (p : Prog ConfigShield.Disk Exc (Option LockRecord))
    (hJ : ∀ t, Fresh a t → J t)
    (hi : Inv fl s) (hs : Fresh a s) :
    (sharing fl).wp (buffers fl ttl resource_id) a J (fun _ t => Fresh a t) (p.lift shielded id) s := by
  refine Contract.wp_of_issues (Z := fun c : Call => ∃ d, c = .shield d) (T := Fresh a) (fun _ _ _ ht _ h => h.rely ht) ?_
    (fun t _ h => hJ t h) (fun _ _ _ h => h) (Prog.Issues.lift (Prog.issues_of_forall (fun c => ⟨c, rfl⟩) p)) hi hs
  rintro _ _ t u y ⟨c, rfl⟩ hit ht - hu
  obtain ⟨hy, hbuffer, hcalls, hended⟩ := shield_yields (c := c) hit hu
  refine ⟨hy, fun d hd => ?_, fun x hx => ?_⟩
  · rw [Site.tag, hcalls]
    exact ht.ended d (hended ▸ hd)
  · rw [Site.tag, hcalls]
    exact ht.buffer x (hbuffer ▸ hx)

lemma append_safe (e : SyncEnvelope F) (deadline : ℤ) (hi : Inv fl s) (hs : Fresh a s) :
    (sharing fl).Safe (buffers fl ttl resource_id) a (.append e deadline)
      (append fl ttl resource_id a.1 e deadline) s := by
  refine Contract.wp_bind (Contract.wp_mono hi (acquire_wp _ (fun _ h => h) hi hs) ?_)
  rintro (err | _ | record) t hit hfresh
  · exact fun u hu hiu => ended_yields hiu rfl (hfresh.rely hu).buffer
  · exact fun u hu _ => hfresh.rely hu
  · refine Contract.wp_bind (Contract.wp_handle (Contract.wp_mono hit
      (write_wp (e := e) (v := []) hit rfl (fun _ => hfresh) (absurd rfl)) ?_))
    rintro _ u hiu ⟨rfl, hd⟩
    refine Contract.wp_mono hiu (release_wp hiu hd) ?_
    rintro _ v - ⟨rfl, hd⟩
    exact fun w hw hiw => ended_yields hiw rfl (hd.rely hw).buffer

lemma heartbeat_safe (p : Prog ConfigShield.Disk Exc Unit) (hi : Inv fl s) :
    (sharing fl).Safe (buffers fl ttl resource_id) a .heartbeat (p.lift shielded id) s := by
  refine Contract.safe_of_issues (Z := fun c : Call => ∃ d, c = .shield d) ?_ (fun _ _ hit => Contract.Yields.refl hit)
    (fun _ _ => trivial) (Prog.Issues.lift (Prog.issues_of_forall (fun c => ⟨c, rfl⟩) p)) hi
  rintro _ _ t u y ⟨c, rfl⟩ hit - hu
  exact (shield_yields (c := c) hit hu).1

lemma enter_yields {w : Site F} {p : Procedure F} (hi : Inv fl s) (h : enter a s p = some w) :
    (sharing fl).Yields a s w ∧ (sharing fl).Pre a p w := by
  cases p with
  | heartbeat =>
    cases h
    exact ⟨Contract.Yields.refl hi, trivial⟩
  | append e deadline =>
    rw [enter, Option.ite_none_right_eq_some] at h
    obtain ⟨-, h⟩ := h
    cases h
    have hle : ∀ b, s.calls b ≤ Function.update s.calls a (s.calls a + 1) b := by
      intro b
      by_cases hb : b = a
      · rw [hb, Function.update_self]
        exact Nat.le_succ _
      · rw [Function.update_of_ne hb]
    have hnew : ∀ tag : Tag, tag.2 ≤ s.calls tag.1 →
        tag ≠ (a, Function.update s.calls a (s.calls a + 1) a) := by
      rintro tag htag rfl
      rw [Function.update_self] at htag
      exact Nat.not_succ_le_self _ htag
    refine ⟨⟨⟨hi.settled, fun x hx => (hi.numbered x hx).trans (hle _), fun d hd => (hi.closed d hd).trans (hle _)⟩,
      fun b hb => rely_of_same (Function.update_of_ne hb _ _) rfl rfl fun _ hd _ => hd⟩,
      fun d hd => hnew _ (hi.closed d hd), fun x hx => hnew _ (hi.numbered x hx)⟩

lemma buffers_meet (fl : Floats F) (ttl : NodeId → ℤ) (resource_id : Resource) :
    (sharing fl).Meets (buffers fl ttl resource_id) where
  enter a p s w hi h := enter_yields hi h
  body a p s hi hs := by
    cases p with
    | append e deadline => exact append_safe e deadline hi hs
    | heartbeat => exact heartbeat_safe _ hi
  crash a s w hi h := by cases h
  environment d s w hi h := by
    cases h
    exact ⟨⟨hi.settled, hi.numbered, hi.closed⟩, fun b => rely_of_same rfl rfl rfl fun _ hd _ => hd⟩

end Contract

/-- In a run in which no byte goes into the line of another call and no release of an append meets a lock
file that it cannot read, that another node holds or that vanishes, an append that returned has added its
line and one that raised has added nothing. -/
theorem all_or_nothing {F : Type} {fl : Floats F} {ttl : NodeId → ℤ} {resource_id : Resource}
    {locks : World}
    {text : Word} {ls : List (Label Thread (Procedure F) Unit ℕ)} {s : Pool Calls Thread (Site F) (Procedure F) Exc Unit}
    (hc : Along (buffers fl ttl resource_id).step (sharing fl).Respects (Pool.idle (Site.start locks text)) ls)
    (hr : run (buffers fl ttl resource_id).step (Pool.idle (Site.start locks text)) ls = some s) :
    ∀ d ∈ s.shared.ended, AllOrNothing fl s.shared.buffer d := by
  have hstart : Inv fl (Site.start locks text) := by
    refine ⟨nofun, fun x hx => ?_, nofun⟩
    obtain ⟨byte, -, rfl⟩ := List.mem_map.mp hx
    exact Nat.le_refl _
  exact (Contract.sound (buffers_meet fl ttl resource_id) hstart hc hr).settled

section Sample

open ConfigShield (emptyDir)

def site : Service Calls Thread (Site Unit) (Procedure Unit) Unit ℕ Exc Unit := buffers ones (fun _ => 100) "sync_buffer"

abbrev SitePool := Pool Calls Thread (Site Unit) (Procedure Unit) Exc Unit

def moves (a : Thread) (k : ℕ) : List (Label Thread (Procedure Unit) Unit ℕ) := List.replicate k (.advance a ())

instance (a : Thread) (s : Site Unit) (c : Call) : Decidable ((sharing ones).Guard a s c) :=
  inferInstanceAs (Decidable (sheltered a s c = true))

/-- A thread that has the lock writes its line without a stop. -/
lemma write_steps {a : Thread} {p : Procedure Unit} {w : Word} {g : Exc → Prog Calls Exc Unit}
    {f : Unit → Prog Calls Exc Unit} {s : SitePool} (ha : s.active a = some (p, tryCatch (write w) g >>= f))
    (hlast : ∀ x, s.shared.buffer.getLast? = some x → x.2 = '\n' ∨ x.1 = s.shared.tag a) :
    run site.step s (moves a w.length) = some ⟨{ s.shared with
      buffer := s.shared.buffer ++ w.map (s.shared.tag a, ·) }, Function.update s.active a (some (p, f ()))⟩ ∧
    Along site.step (sharing ones).Respects s (moves a w.length) := by
  induction w generalizing s with
  | nil =>
    have hsame : Function.update s.active a (some (p, f ())) = s.active :=
      Function.update_eq_self_iff.mpr ha.symm
    refine ⟨?_, trivial⟩
    rw [List.map_nil, List.append_nil, hsame]
    rfl
  | cons byte w ih =>
    have hstep : site.step s (.advance a ()) = some ⟨{ s.shared with
        buffer := s.shared.buffer ++ [(s.shared.tag a, byte)] },
        Function.update s.active a (some (p, tryCatch (write w) g >>= f))⟩ := by
      rw [Service.step, ha]
      rfl
    obtain ⟨hrun, halong⟩ := ih (s := ⟨{ s.shared with buffer := s.shared.buffer ++ [(s.shared.tag a, byte)] },
      Function.update s.active a (some (p, tryCatch (write w) g >>= f))⟩) (Function.update_self _ _ _) (by
        intro x hx
        rw [List.getLast?_concat] at hx
        cases hx
        exact Or.inr rfl)
    refine ⟨run_cons.mpr ⟨_, hstep, ?_⟩, along_cons hstep ?_ halong⟩
    · refine hrun.trans ?_
      rw [Function.update_idem]
      simp only [List.map_cons, List.append_assoc, List.singleton_append]
      rfl
    · rintro p' c k hc
      rw [ha] at hc
      cases hc
      change sheltered a s.shared (.write byte) = true
      cases hx : s.shared.buffer.getLast? with
      | none => simp [sheltered, hx]
      | some x => simpa [sheltered, hx] using hlast x hx

def acquiring : List (Label Thread (Procedure Unit) Unit ℕ) :=
  .invoke ("node-a", 0) (.append envelope 15000) :: moves ("node-a", 0) 5

/-- A thread of node-a has acquired the lock for its first append. -/
def acquired : SitePool := (run site.step (Pool.idle (Site.start emptyDir [])) acquiring).get (by decide +kernel)

lemma acquired_run : run site.step (Pool.idle (Site.start emptyDir [])) acquiring = some acquired :=
  (Option.some_get _).symm

lemma acquired_active : acquired.active ("node-a", 0) =
    some (.append envelope 15000, appendLocked ones "sync_buffer" "node-a" envelope) := by rfl

/-- It has written its line. -/
def wrote : SitePool := ⟨{ acquired.shared with
  buffer := acquired.shared.buffer ++ (written ones envelope).map (acquired.shared.tag ("node-a", 0), ·) },
  Function.update acquired.active ("node-a", 0) (some (.append envelope 15000,
    (ConfigShield.release "node-a" "sync_buffer" false).lift releasing id))⟩

def writing : List (Label Thread (Procedure Unit) Unit ℕ) := moves ("node-a", 0) (written ones envelope).length

lemma wrote_run : run site.step acquired writing = some wrote ∧
    Along site.step (sharing ones).Respects acquired writing := by
  have hempty : acquired.shared.buffer = [] := by rfl
  refine write_steps acquired_active fun x hx => ?_
  rw [hempty] at hx
  cases hx

/-- Alone, the append returns and the line is there. -/
theorem line_added : ∃ s, run site.step (Pool.idle (Site.start emptyDir []))
    (acquiring ++ (writing ++ moves ("node-a", 0) 5)) = some s ∧ (∃ d ∈ s.shared.ended, d.result.isOk = true) ∧
    ∀ d ∈ s.shared.ended, AllOrNothing ones s.shared.buffer d := by
  obtain ⟨s, hs, hended⟩ := exists_of_run_any site.step wrote (moves ("node-a", 0) 5)
    (fun s => s.shared.ended.any fun d => d.result.isOk) (by decide +kernel)
  have hrun : run site.step (Pool.idle (Site.start emptyDir [])) (acquiring ++ (writing ++ moves ("node-a", 0) 5)) =
      some s := run_append.mpr ⟨_, acquired_run, run_append.mpr ⟨_, wrote_run.1, hs⟩⟩
  have halong : Along site.step (sharing ones).Respects (Pool.idle (Site.start emptyDir []))
      (acquiring ++ (writing ++ moves ("node-a", 0) 5)) :=
    along_append (by decide +kernel) acquired_run (along_append wrote_run.2 wrote_run.1 (by decide +kernel))
  exact ⟨s, hrun, List.any_eq_true.mp hended, all_or_nothing halong hrun⟩

def reclaiming : List (Label Thread (Procedure Unit) Unit ℕ) :=
  .environment 101 :: .invoke ("node-b", 0) (.append envelope 15101) :: moves ("node-b", 0) 13 ++ moves ("node-a", 0) 4

/-- node-a pauses before its release until its lease has run out, and node-b reclaims it: the line is
there, and the append raises. -/
theorem raised_with_line : ¬ ∀ (ls : List (Label Thread (Procedure Unit) Unit ℕ)) (s : SitePool),
    run site.step (Pool.idle (Site.start emptyDir [])) ls = some s →
    ∀ d ∈ s.shared.ended, AllOrNothing ones s.shared.buffer d := by
  intro h
  obtain ⟨s, hs, hended⟩ := exists_of_run_any site.step wrote reclaiming
    (fun s => s.shared.ended.any fun d => !d.result.isOk && s.shared.buffer.any fun x => x.1 == d.tag)
    (by decide +kernel)
  have hrun := run_append.mpr ⟨_, acquired_run, run_append.mpr ⟨_, wrote_run.1, hs⟩⟩
  obtain ⟨⟨tag, e, result⟩, hd, hresult⟩ := List.any_eq_true.mp hended
  obtain ⟨hraised, hadded⟩ := (Bool.and_eq_true _ _).mp hresult
  obtain ⟨x, hx, htag⟩ := List.any_eq_true.mp hadded
  have hnothing := h _ s hrun _ hd
  cases result with
  | ok => cases hraised
  | error err => exact hnothing x hx (beq_iff_eq.mp htag)

end Sample

end OpsSentry.GlobalSync.Locked
