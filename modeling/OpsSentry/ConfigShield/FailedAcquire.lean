import OpsSentry.ConfigShield.HeartbeatThreads
import OpsSentry.ConfigShield.FileRecovery
import OpsSentry.Foundation.Answers
import Mathlib.Logic.Relation

/-! What an `acquire` that raises leaves behind, on both backends, when no other node moves
during the call. -/

namespace OpsSentry.ConfigShield.FailedAcquire

open Foundation.Programs Recovery Threads

section Statement

variable {B : Backend} (n : NodeId) (q : Request)

/-- Only time passes. -/
def quiet (fault : ℕ → B.Fault) (delay : ℕ → ℕ) (late : ℕ) : Luck B where
  fault := fault
  before i := B.tick (delay i)
  after := B.tick late

/-- Between two passes time passes, and the shield's own threads go on with their heartbeats. -/
inductive Between : State B → State B → Prop
  | time (s : State B) (d : ℕ) : Between s ⟨B.tick d s.store, s.threads⟩
  | beat {s t : State B} {k : ℕ} {fault : ℕ → B.Fault} {delay : ℕ → ℕ} {late : ℕ} {x : Except Exc LockRecord}
      (hrunning : s.threads.running k = true) (htarget : (s.threads.target k).1 = q.resource_path)
      (h : beat B n (quiet fault delay late) k s = some (t, x)) : Between s t

/-- From the start of a call to the start of one of its passes. -/
inductive Waits : State B → State B → Prop
  | start (s : State B) : Waits s s
  | next {s t u v : State B} {fault : ℕ → B.Fault} {delay : ℕ → ℕ} {late : ℕ} {starts : Bool} {callback : Option Exc}
      (h : Waits s t) (hpass : pass B n q (quiet fault delay late) starts callback t = some (u, .goesOn))
      (hbetween : Relation.ReflTransGen (Between n q) u v) : Waits s v

def Idle (s t : State B) : Prop := ∀ k, s.threads.next ≤ k → t.threads.running k = false

structure HoldsNothing (before after : State B) : Prop where
  unchanged : B.look after.store q.resource_path = B.look before.store q.resource_path ∨
    B.look after.store q.resource_path = none
  unnamed : ∀ x, B.look after.store q.resource_path = some (some x) → x.node_id ≠ n
  no_thread : Idle before after

end Statement

section Files

variable {n : NodeId} {r : Resource} {t : ℤ} {f : ℕ → Bool} {e : ℕ → ℕ} {w : World} {i : ℕ} {x : LockRecord}

def calls (n : NodeId) (f : ℕ → Bool) (e : ℕ → ℕ) (i : ℕ) (w : World) (c : Command) : Option (World × Reply c) :=
  exec n (f i) (tick (e i) w) c

lemma create_fails (h : f 1 = true) : (acquireOnce n r t).alone (calls n f e) 0 w =
    some (tick (e 1) (tick (e 0) w), .error (.os .io)) := by
  simp [acquireOnce, acquireAt, Prog.alone, exec, calls, h]

lemma read_fails (hw : w.dir (.lock r) = some i) (h1 : f 1 = false) (h3 : f 3 = true) :
    (acquireOnce n r t).alone (calls n f e) 0 w =
      some (tick (e 3) (tick (e 2) (tick (e 1) (tick (e 0) w))), .error (.os .io)) := by
  simp [acquireOnce, acquireAt, readRecord, Prog.alone, exec, calls, tick, hw, h1, h3]

lemma unreadable_raises (hw : w.dir (.lock r) = some i) (hi : w.text i = none) (h1 : f 1 = false)
    (h3 : f 3 = false) :
    (acquireOnce n r t).alone (calls n f e) 0 w =
      some (tick (e 3) (tick (e 2) (tick (e 1) (tick (e 0) w))), .error .jsonDecode) := by
  simp [acquireOnce, acquireAt, readRecord, Prog.alone, exec, calls, tick, hw, hi, h1, h3]

lemma fresh_raises (hw : w.dir (.lock r) = some i) (hi : w.text i = some x) (h1 : f 1 = false)
    (h3 : f 3 = false)
    (hfresh : isStale x (w.now + e 0) = false) : (acquireOnce n r t).alone (calls n f e) 0 w =
      some (tick (e 3) (tick (e 2) (tick (e 1) (tick (e 0) w))),
        .error (.lockAcquisition s!"resource is locked by {x.node_id}: {r}")) := by
  have hle : ¬ x.ttl_ms < w.now + e 0 - x.heartbeat_at := of_decide_eq_false hfresh
  simp [acquireOnce, acquireAt, readRecord, Prog.alone, exec, calls, tick, hw, hi, h1, h3, isStale, hle]

lemma name_refused (hw : w.dir (.lock r) = some i) (hi : w.text i = some x) (h1 : f 1 = false)
    (h3 : f 3 = false) (hstale : isStale x (w.now + e 0) = true) (hname : ¬ Nameable n) :
    (acquireOnce n r t).alone (calls n f e) 0 w =
      some (tick (e 3) (tick (e 2) (tick (e 1) (tick (e 0) w))), .error .value) := by
  have hlt : x.ttl_ms < w.now + e 0 - x.heartbeat_at := of_decide_eq_true hstale
  simp [acquireOnce, acquireAt, readRecord, Prog.alone, exec, calls, tick, hw, hi, h1, h3, isStale, hlt, withName_bind, hname]

lemma rename_fails (hw : w.dir (.lock r) = some i) (hi : w.text i = some x) (h1 : f 1 = false)
    (h3 : f 3 = false) (hstale : isStale x (w.now + e 0) = true) (hname : Nameable n)
    (h4 : ¬ staleNameBytes n (w.now + e 0) ≤ 255 ∨ f 4 = true) : ∃ err, (acquireOnce n r t).alone (calls n f e) 0 w =
      some (tick (e 4) (tick (e 3) (tick (e 2) (tick (e 1) (tick (e 0) w)))), .error (.os err)) := by
  have hlt : x.ttl_ms < w.now + e 0 - x.heartbeat_at := of_decide_eq_true hstale
  cases hf : f 4 with
  | true =>
    refine ⟨.io, ?_⟩
    simp [acquireOnce, acquireAt, readRecord, Prog.alone, exec, calls, tick, hw, hi, h1, h3, hf, isStale, hlt, withName_bind, hname]
  | false =>
    have hlong : ¬ staleNameBytes n (w.now + e 0) ≤ 255 := h4.resolve_right (by simp [hf])
    refine ⟨.nameTooLong, ?_⟩
    simp [acquireOnce, acquireAt, readRecord, Prog.alone, exec, calls, tick, hw, hi, h1, h3, hf, isStale, hlt, withName_bind, hname,
      Path.Fits, hlong]

/-- The lock file stands there, with a record of the node or as a write that failed has left it. -/
def Stands (n : NodeId) (r : Resource) (v : World) (j : ℕ) (y : Except Exc LockRecord) : Prop :=
  v.dir (.lock r) = some j ∧ j < v.next ∧
    ((∃ x, v.text j = some x ∧ x.node_id = n) ∨ v.text j = none ∧ y = .error (.os .io))

lemma short_write (hw : w.dir (.lock r) = none) (h1 : f 1 = false) (h2 : f 2 = true) :
    ∃ v, (acquireOnce n r t).alone (calls n f e) 0 w = some (v, .error (.os .io)) ∧ v.dir (.lock r) = some w.next ∧
      w.next < v.next ∧ v.text w.next = none := by
  simp [acquireOnce, acquireAt, writeAndSync, Prog.alone, exec, calls, tick, hw, h1, h2, World.create, World.setText]

lemma create_done (hw : w.dir (.lock r) = none) (h1 : f 1 = false) :
    ∃ v y j, (acquireOnce n r t).alone (calls n f e) 0 w = some (v, y) ∧ Stands n r v j y := by
  cases h2 : f 2 with
  | true =>
    obtain ⟨v, hv, hdir, hlt, htext⟩ := short_write (t := t) hw h1 h2
    exact ⟨v, _, w.next, hv, hdir, hlt, Or.inr ⟨htext, rfl⟩⟩
  | false =>
    cases h3 : f 3 <;>
      simp [acquireOnce, acquireAt, Stands, writeAndSync, Prog.alone, exec, calls, tick, hw, h1, h2, h3, World.create, World.setText,
        World.writeLock, World.stamp]

/-- A call that failed after the reclaiming open was undone: call 6 is the write, 7 the fsync, and
the next two look for the lock file and unlink it. -/
def Undone (f : ℕ → Bool) : Prop := f 6 = true ∧ f 8 = false ∨ f 6 = false ∧ f 7 = true ∧ f 9 = false

/-- An attempt that finds a stale record is a `takeOver` once the rename is done. -/
lemma reclaims (hw : w.dir (.lock r) = some i) (hi : w.text i = some x) (h1 : f 1 = false)
    (h3 : f 3 = false)
    (hstale : isStale x (w.now + e 0) = true) (husable : Usable n (w.now + e 0)) (h4 : f 4 = false) : ∃ v y p,
    (acquireOnce n r t).alone (calls n f e) 0 w = (takeOver n r y p).alone (calls n f e) 5 v ∧
      v.dir (.lock r) = none ∧ v.dir p = some i ∧ p ≠ .lock r ∧ y.node_id = n := by
  have hlt : x.ttl_ms < w.now + e 0 - x.heartbeat_at := of_decide_eq_true hstale
  refine ⟨(tick (e 4) (tick (e 3) (tick (e 2) (tick (e 1) (tick (e 0) w))))).move (.lock r) (.stale r n (w.now + e 0)) i,
    ⟨n, r, w.now + e 0, t, w.now + e 0⟩, .stale r n (w.now + e 0), ?_, ?_, ?_, nofun, rfl⟩
  · simp [acquireOnce, acquireAt, readRecord, Prog.alone, exec, calls, tick, hw, hi, h1, h3, h4, isStale, hlt, withName_bind,
      husable.1, Path.Fits, husable.2]
  · simp [World.move]
  · simp [World.move]

section TakeOver

variable {p : Path} (hw : w.dir (.lock r) = none) (hp : w.dir p = some i) (hne : p ≠ .lock r)

include hw

lemma reopen_fails (h5 : f 5 = true) : ∃ v, (takeOver n r x p).alone (calls n f e) 5 w =
    some (v, .error (.os .io)) ∧ v.dir (.lock r) = none := by
  simp [takeOver, Prog.alone, exec, calls, tick, hw, h5]

include hp hne

lemma write_undone (h5 : f 5 = false) (h6 : f 6 = true) (h8 : f 8 = false) :
    ∃ v, (takeOver n r x p).alone (calls n f e) 5 w = some (v, .error (.os .io)) ∧ v.dir (.lock r) = none := by
  cases h10 : f 10 <;>
    simp [takeOver, tryFinally, writeAndSync, unlinkIfExists, unlink, Prog.alone, exec, calls, tick, hw, hp, hne, hne.symm,
      h5, h6, h8, h10, World.create, World.setText, World.remove]

lemma fsync_undone (h5 : f 5 = false) (h6 : f 6 = false) (h7 : f 7 = true) (h9 : f 9 = false) :
    ∃ v, (takeOver n r x p).alone (calls n f e) 5 w = some (v, .error (.os .io)) ∧ v.dir (.lock r) = none := by
  cases h11 : f 11 <;>
    simp [takeOver, tryFinally, writeAndSync, unlinkIfExists, unlink, Prog.alone, exec, calls, tick, hw, hp, hne, hne.symm,
      h5, h6, h7, h9, h11, World.create, World.setText, World.remove, World.writeLock, World.stamp]

lemma reclaim_left (hx : x.node_id = n) (h5 : f 5 = false) (hundone : ¬ Undone f) :
    ∃ v y j, (takeOver n r x p).alone (calls n f e) 5 w = some (v, y) ∧ Stands n r v j y := by
  rw [Undone, not_or] at hundone
  by_cases h6 : f 6 = true
  · have h8 : f 8 = true := by simpa [h6] using hundone.1
    cases h10 : f 10 <;>
      simp [takeOver, Stands, tryFinally, writeAndSync, unlinkIfExists, unlink, Prog.alone, exec, calls, tick, hw, hp, hne,
        hne.symm, h5, h6, h8, h10, World.create, World.setText, World.remove]
  · have h9 : f 7 = true → f 9 = true := by
      intro h7
      simpa [h6, h7] using hundone.2
    cases h7 : f 7 with
    | true =>
      cases h11 : f 11 <;>
        simp [takeOver, Stands, tryFinally, writeAndSync, unlinkIfExists, unlink, Prog.alone, exec, calls, tick, hw, hp, hne,
          hne.symm, hx, h5, h6, h7, h9 h7, h11, World.create, World.setText, World.remove, World.writeLock, World.stamp]
    | false =>
      cases h9 : f 9 <;> cases h11 : f 11 <;>
        simp [takeOver, Stands, readRecord, tryFinally, writeAndSync, unlinkIfExists, unlink, Prog.alone, exec, calls, tick,
          hw, hp, hne, hne.symm, hx, h5, h6, h7, h9, h11, World.create, World.setText, World.remove, World.writeLock,
          World.stamp]

end TakeOver

def stands (w : World) (r : Resource) : Option (Option LockRecord) := (w.dir (.lock r)).map w.text

/-- The inode of the lock file has been handed out. -/
def Bound (w : World) (r : Resource) : Prop := ∀ i, w.dir (.lock r) = some i → i < w.next

/-- Calls that fail before the lock file is created, or are undone: call 1 is the `os.open`, 3 the
read, 4 the rename, which also fails if it cannot give that name, and 5 the `os.open` of a reclaim. -/
def Untaken (n : NodeId) (r : Resource) (f : ℕ → Bool) (e : ℕ → ℕ) (w : World) : Prop :=
  match stands w r with
  | none => f 1 = true
  | some none => True
  | some (some x) =>
    if f 1 = true ∨ f 3 = true ∨ isStale x (w.now + e 0) = false ∨ ¬ Usable n (w.now + e 0) ∨ f 4 = true then
      x.node_id ≠ n
    else f 5 = true ∨ Undone f

lemma stands_of_dir (hw : w.dir (.lock r) = some i) : stands w r = some (w.text i) := by
  rw [stands, hw]
  rfl

lemma stands_of_missing (hw : w.dir (.lock r) = none) : stands w r = none := by
  rw [stands, hw]
  rfl

/-- The lock file was not touched, but time passed. -/
structure Untouched (w v : World) (r : Resource) : Prop where
  stands : stands v r = stands w r
  bound : Bound w r → Bound v r

lemma untouched_tick (d : ℕ) (w : World) (r : Resource) : Untouched w (tick d w) r := ⟨rfl, id⟩

lemma Untouched.trans {u v : World} (h : Untouched u v r) (h' : Untouched v w r) : Untouched u w r :=
  ⟨h'.stands.trans h.stands, fun hb => h'.bound (h.bound hb)⟩

/-- Where nothing is reclaimed the file is left as it was. -/
lemma once_refused (hw : w.dir (.lock r) = some i)
    (h : f 1 = true ∨ f 3 = true ∨ w.text i = none ∨ ∃ x, w.text i = some x ∧
      (isStale x (w.now + e 0) = false ∨ ¬ Usable n (w.now + e 0) ∨ f 4 = true)) :
    ∃ v err, (acquireOnce n r t).alone (calls n f e) 0 w = some (v, .error err) ∧ Untouched w v r ∧
      (w.text i = none → isTransient err = false) := by
  have htick := fun d v => untouched_tick d v r
  by_cases h1 : f 1 = true
  · exact ⟨_, _, create_fails h1, (htick _ _).trans (htick _ _), fun _ => rfl⟩
  · by_cases h3 : f 3 = true
    · exact ⟨_, _, read_fails hw (by simpa using h1) h3,
        (((htick _ _).trans (htick _ _)).trans (htick _ _)).trans (htick _ _), fun _ => rfl⟩
    · rw [Bool.not_eq_true] at h1 h3
      cases hi : w.text i with
      | none =>
        exact ⟨_, _, unreadable_raises hw hi h1 h3,
          (((htick _ _).trans (htick _ _)).trans (htick _ _)).trans (htick _ _), fun _ => rfl⟩
      | some x =>
        cases hstale : isStale x (w.now + e 0) with
        | false =>
          exact ⟨_, _, fresh_raises hw hi h1 h3 hstale,
            (((htick _ _).trans (htick _ _)).trans (htick _ _)).trans (htick _ _), nofun⟩
        | true =>
          have h4 : ¬ Usable n (w.now + e 0) ∨ f 4 = true := by simpa [h1, h3, hi, hstale] using h
          by_cases hname : Nameable n
          · have hrefused : ¬ staleNameBytes n (w.now + e 0) ≤ 255 ∨ f 4 = true :=
              h4.imp_left fun hunusable hle => hunusable ⟨hname, hle⟩
            obtain ⟨err, hfails⟩ := rename_fails (r := r) (t := t) hw hi h1 h3 hstale hname hrefused
            exact ⟨_, _, hfails,
              ((((htick _ _).trans (htick _ _)).trans (htick _ _)).trans (htick _ _)).trans (htick _ _), nofun⟩
          · exact ⟨_, _, name_refused hw hi h1 h3 hstale hname,
              (((htick _ _).trans (htick _ _)).trans (htick _ _)).trans (htick _ _), nofun⟩

lemma Stands.bound {v : World} {j : ℕ} {y : Except Exc LockRecord} (h : Stands n r v j y) : Bound v r := by
  intro i hi
  obtain rfl := Option.some.inj (h.1.symm.trans hi)
  exact h.2.1

lemma bound_of_missing (hw : w.dir (.lock r) = none) : Bound w r := by
  intro i hi
  rw [hw] at hi
  cases hi

def Foreign (n : NodeId) (c : Option (Option LockRecord)) : Prop := ∀ x, c = some (some x) → x.node_id ≠ n

lemma foreign_none : Foreign n none := nofun

lemma untaken_of_unreadable (hw : w.dir (.lock r) = some i) (hi : w.text i = none) : Untaken n r f e w := by
  rw [Untaken, stands_of_dir hw, hi]
  trivial

lemma untaken_iff (hw : w.dir (.lock r) = some i) (hi : w.text i = some x) : Untaken n r f e w ↔
    if f 1 = true ∨ f 3 = true ∨ isStale x (w.now + e 0) = false ∨ ¬ Usable n (w.now + e 0) ∨ f 4 = true then
      x.node_id ≠ n
    else f 5 = true ∨ Undone f := by
  rw [Untaken, stands_of_dir hw, hi]

lemma once_kept (hb : Bound w r) (hw : w.dir (.lock r) = some i) (hi : w.text i = some x)
    (h : f 1 = true ∨ f 3 = true ∨ isStale x (w.now + e 0) = false ∨ ¬ Usable n (w.now + e 0) ∨ f 4 = true) :
    ∃ v err, (acquireOnce n r t).alone (calls n f e) 0 w = some (v, .error err) ∧ Bound v r ∧
      stands v r = stands w r ∧ stands v r = some (some x) := by
  have hrefused : f 1 = true ∨ f 3 = true ∨ w.text i = none ∨
      ∃ x, w.text i = some x ∧ (isStale x (w.now + e 0) = false ∨ ¬ Usable n (w.now + e 0) ∨ f 4 = true) := by
    rcases h with h1 | h3 | hlate
    · exact Or.inl h1
    · exact Or.inr (Or.inl h3)
    · exact Or.inr (Or.inr (Or.inr ⟨x, hi, hlate⟩))
  obtain ⟨v, err, hv, hsame, -⟩ := once_refused (n := n) (t := t) hw hrefused
  exact ⟨v, err, hv, hsame.bound hb, hsame.stands, by rw [hsame.stands, stands_of_dir hw, hi]⟩

/-- An attempt that takes nothing raises, and leaves the lock file of another node or none. -/
lemma once_untaken (hb : Bound w r) (h : Untaken n r f e w) :
    ∃ v err, (acquireOnce n r t).alone (calls n f e) 0 w = some (v, .error err) ∧ Bound v r ∧
      Foreign n (stands v r) ∧ (stands v r = stands w r ∨ stands v r = none) := by
  cases hw : w.dir (.lock r) with
  | none =>
    rw [Untaken, stands_of_missing hw] at h
    refine ⟨_, _, create_fails h, hb, ?_, Or.inl rfl⟩
    change Foreign n (stands w r)
    rw [stands_of_missing hw]
    exact foreign_none
  | some i =>
    cases hi : w.text i with
    | none =>
      obtain ⟨v, err, hv, hsame, -⟩ := once_refused (n := n) (t := t) (f := f) (e := e) hw (Or.inr (Or.inr (Or.inl hi)))
      refine ⟨v, err, hv, hsame.bound hb, ?_, Or.inl hsame.stands⟩
      rw [hsame.stands, stands_of_dir hw, hi]
      exact nofun
    | some x =>
      rw [untaken_iff hw hi] at h
      split at h
      · rename_i hrefused
        obtain ⟨v, err, hv, hbound, hsame, hstands⟩ := once_kept (n := n) (t := t) hb hw hi hrefused
        refine ⟨v, err, hv, hbound, ?_, Or.inl hsame⟩
        rw [hstands]
        rintro y hy
        cases hy
        exact h
      · rename_i hreclaims
        simp only [not_or, not_not, Bool.not_eq_true, Bool.not_eq_false] at hreclaims
        obtain ⟨h1, h3, hstale, husable, h4⟩ := hreclaims
        have hgone : ∃ v, (acquireOnce n r t).alone (calls n f e) 0 w = some (v, .error (.os .io)) ∧
            v.dir (.lock r) = none := by
          obtain ⟨u, y, p, hu, hmissing, hp, hne, -⟩ := reclaims (n := n) (t := t) hw hi h1 h3 hstale husable h4
          rw [hu]
          cases h5 : f 5 with
          | true => exact reopen_fails hmissing h5
          | false =>
            rcases h.resolve_left (by simp [h5]) with ⟨h6, h8⟩ | ⟨h6, h7, h9⟩
            · exact write_undone hmissing hp hne h5 h6 h8
            · exact fsync_undone hmissing hp hne h5 h6 h7 h9
        obtain ⟨v, hv, hmissing⟩ := hgone
        refine ⟨v, _, hv, bound_of_missing hmissing, ?_, Or.inr (stands_of_missing hmissing)⟩
        rw [stands_of_missing hmissing]
        exact foreign_none

/-- Any other attempt leaves a record of the node, or a file that its failed write has left. -/
lemma once_taken (hb : Bound w r) (h : ¬ Untaken n r f e w) :
    ∃ v y, (acquireOnce n r t).alone (calls n f e) 0 w = some (v, y) ∧ Bound v r ∧
      (¬ Foreign n (stands v r) ∨ stands v r = some none ∧ stands w r ≠ some none ∧ y = .error (.os .io)) := by
  have hstands : ∀ {v j y}, Stands n r v j y → stands w r ≠ some none →
      ¬ Foreign n (stands v r) ∨ stands v r = some none ∧ stands w r ≠ some none ∧ y = .error (.os .io) := by
    intro v j y hs hne
    rcases hs.2.2 with ⟨x, hx, hown⟩ | ⟨hnone, hy⟩
    · exact Or.inl fun hforeign => hforeign x (by rw [stands_of_dir hs.1, hx]) hown
    · exact Or.inr ⟨by rw [stands_of_dir hs.1, hnone], hne, hy⟩
  cases hw : w.dir (.lock r) with
  | none =>
    rw [Untaken, stands_of_missing hw, Bool.not_eq_true] at h
    obtain ⟨v, y, j, hv, hs⟩ := create_done (n := n) (t := t) (e := e) hw h
    exact ⟨v, y, hv, hs.bound, hstands hs (by rw [stands_of_missing hw]; exact nofun)⟩
  | some i =>
    cases hi : w.text i with
    | none => exact absurd (untaken_of_unreadable hw hi) h
    | some x =>
      rw [untaken_iff hw hi] at h
      split at h
      · rename_i hrefused
        obtain ⟨v, err, hv, hbound, -, hstands⟩ := once_kept (n := n) (t := t) hb hw hi hrefused
        exact ⟨v, _, hv, hbound, Or.inl fun hforeign => h (hforeign x hstands)⟩
      · rename_i hreclaims
        simp only [not_or, not_not, Bool.not_eq_true, Bool.not_eq_false] at hreclaims
        obtain ⟨h1, h3, hstale, husable, h4⟩ := hreclaims
        rw [not_or, Bool.not_eq_true] at h
        obtain ⟨u, z, p, hu, hmissing, hp, hne, hz⟩ := reclaims (n := n) (t := t) hw hi h1 h3 hstale husable h4
        obtain ⟨v, y, j, hv, hs⟩ := reclaim_left (f := f) (e := e) hmissing hp hne hz h.1 h.2
        exact ⟨v, y, hu.trans hv, hs.bound, hstands hs (by rw [stands_of_dir hw, hi]; exact nofun)⟩

lemma stands_of_old {v : World} (hb : Bound w r) (hdir : v.dir (.lock r) = w.dir (.lock r))
    (hnext : w.next ≤ v.next)
    (htext : ∀ i, i < w.next → v.text i = w.text i) : Bound v r ∧ stands v r = stands w r := by
  cases hw : w.dir (.lock r) with
  | none =>
    rw [hw] at hdir
    exact ⟨bound_of_missing hdir, by rw [stands_of_missing hdir, stands_of_missing hw]⟩
  | some i =>
    rw [hw] at hdir
    have hi := hb i hw
    refine ⟨fun j hj => ?_, by rw [stands_of_dir hdir, stands_of_dir hw, htext i hi]⟩
    obtain rfl := Option.some.inj (hdir.symm.trans hj)
    exact Nat.lt_of_lt_of_le hi hnext

/-- A heartbeat replaces the lock file by a record of the node, or leaves it. -/
lemma refresh_stands {v : World} {y : Except Exc LockRecord} {j : ℕ} (hb : Bound w r)
    (h : (refresh n r t x).alone (calls n f e) j w = some (v, y)) :
    Bound v r ∧ (stands v r = stands w r ∨ ¬ Foreign n (stands v r)) := by
  have hold : ∀ u : World, u.dir (.lock r) = w.dir (.lock r) → w.next ≤ u.next → (∀ i, i < w.next → u.text i = w.text i) →
      Bound u r ∧ (stands u r = stands w r ∨ ¬ Foreign n (stands u r)) :=
    fun u hdir hnext htext => (stands_of_old hb hdir hnext htext).imp_right Or.inl
  cases h1 : f (j + 1) with
  | true =>
    simp [refresh, writeRecord, Prog.alone, exec, calls, tick, h1] at h
    obtain ⟨rfl, -⟩ := h
    exact hold _ rfl (Nat.le_refl _) fun _ _ => rfl
  | false =>
    cases htemp : w.dir (.temp n w.next) with
    | some i => simp [refresh, writeRecord, Prog.alone, exec, calls, tick, h1, htemp] at h
    | none =>
      cases h2 : f (j + 2) with
      | true =>
        cases h4 : f (j + 4) <;>
          simp [refresh, writeRecord, tryFinally, writeAndSync, unlinkIfExists, unlink, Prog.alone, exec, calls, tick, h1,
            h2, h4, htemp, World.create, World.setText, World.remove] at h
        all_goals
          obtain ⟨rfl, -⟩ := h
          exact hold _ (by simp) (by simp) fun i hi => by simp [Nat.ne_of_lt hi]
      | false =>
        cases h3 : f (j + 3) with
        | true =>
          cases h5 : f (j + 5) <;>
            simp [refresh, writeRecord, tryFinally, writeAndSync, unlinkIfExists, unlink, Prog.alone, exec, calls, tick,
              h1, h2, h3, h5, htemp, World.create, World.setText, World.remove, World.writeLock] at h
          all_goals
            obtain ⟨rfl, -⟩ := h
            exact hold _ (by simp) (by simp) fun i hi => by simp [Nat.ne_of_lt hi]
        | false =>
          cases h4 : f (j + 4) with
          | true =>
            cases h6 : f (j + 6) <;>
              simp [refresh, writeRecord, tryFinally, writeAndSync, unlinkIfExists, unlink, Prog.alone, exec, calls, tick,
                h1, h2, h3, h4, h6, htemp, World.create, World.setText, World.remove, World.writeLock] at h
            all_goals
              obtain ⟨rfl, -⟩ := h
              exact hold _ (by simp) (by simp) fun i hi => by simp [Nat.ne_of_lt hi]
          | false =>
            simp [refresh, writeRecord, tryFinally, writeAndSync, unlinkIfExists, unlink, Prog.alone, exec, calls, tick,
              h1, h2, h3, h4, htemp, World.create, World.setText, World.writeLock, World.replaceLock, World.move,
              World.stamp] at h
            obtain ⟨rfl, -⟩ := h
            refine ⟨fun i hi => ?_, Or.inr fun hforeign => ?_⟩
            · simp at hi
              simp [← hi]
            · exact hforeign _ (by simp [stands]; rfl) rfl

lemma heartbeat_stands {v : World} {y : Except Exc LockRecord} (hb : Bound w r)
    (h : (heartbeat n r t).alone (calls n f e) 0 w = some (v, y)) :
    Bound v r ∧ (stands v r = stands w r ∨ ¬ Foreign n (stands v r)) := by
  cases hw : w.dir (.lock r) with
  | none =>
    simp [heartbeat, readRecord, Prog.alone, exec, calls, tick, hw] at h
    obtain ⟨rfl, -⟩ := h
    exact ⟨hb, Or.inl rfl⟩
  | some i =>
    cases h1 : f 1 with
    | true =>
      simp [heartbeat, readRecord, Prog.alone, exec, calls, tick, hw, h1] at h
      obtain ⟨rfl, -⟩ := h
      exact ⟨hb, Or.inl rfl⟩
    | false =>
      cases hi : w.text i with
      | none =>
        simp [heartbeat, readRecord, Prog.alone, exec, calls, tick, hw, h1, hi] at h
        obtain ⟨rfl, -⟩ := h
        exact ⟨hb, Or.inl rfl⟩
      | some x =>
        by_cases hown : x.node_id = n
        · simp [heartbeat, readRecord, lockedByOther, Prog.alone, exec, calls, tick, hw, h1, hi, hown] at h
          exact refresh_stands (w := { w with now := w.now + e 0 + e 1 }) hb h
        · cases hstale : isStale x (w.now + e 0 + e 1 + e 2) with
          | true =>
            simp [heartbeat, readRecord, lockedByOther, Prog.alone, exec, calls, tick, hw, h1, hi, hown, hstale] at h
            exact refresh_stands (w := { w with now := w.now + e 0 + e 1 + e 2 }) hb h
          | false =>
            simp [heartbeat, readRecord, lockedByOther, Prog.alone, exec, calls, tick, hw, h1, hi, hown, hstale] at h
            obtain ⟨rfl, -⟩ := h
            exact ⟨hb, Or.inl rfl⟩

end Files

section FileCalls

variable {n : NodeId} {q : Request} {f : ℕ → Bool} {e : ℕ → ℕ} {d : ℕ} {starts : Bool}
  {callback : Option Exc}
  {s t u : State files} {o : Outcome}

lemma pass_eq {v : World} {y : Except Exc LockRecord}
    (h : (acquireOnce n q.resource_path q.ttl_ms).alone (calls n f e) 0 t.store = some (v, y)) :
    pass files n q (quiet f e d) starts callback t =
      some (answered files q (quiet f e d) starts callback t.threads (v, y.map some)) :=
  Option.map_eq_some_iff.mpr ⟨_, Prog.untilAgain_of_alone h, rfl⟩

lemma settle_io (deadline : Option ℤ) (now : ℤ) :
    settle deadline now (.shield (.os .io)) = .raised (.shield (.os .io)) := rfl

lemma pass_untaken (hb : Bound t.store q.resource_path) (h : Untaken n q.resource_path f e t.store)
    (hp : pass files n q (quiet f e d) starts callback t = some (u, o)) :
    u.threads = t.threads ∧ Bound u.store q.resource_path ∧ Foreign n (stands u.store q.resource_path) ∧
      (stands u.store q.resource_path = stands t.store q.resource_path ∨ stands u.store q.resource_path = none) := by
  obtain ⟨v, err, hv, hspec⟩ := once_untaken (t := q.ttl_ms) hb h
  rw [pass_eq hv] at hp
  cases hp
  exact ⟨rfl, hspec⟩

lemma pass_taken (hb : Bound t.store q.resource_path) (h : ¬ Untaken n q.resource_path f e t.store)
    (hp : pass files n q (quiet f e d) starts callback t = some (u, o)) : Bound u.store q.resource_path ∧
      (¬ Foreign n (stands u.store q.resource_path) ∨ stands u.store q.resource_path = some none ∧
        stands t.store q.resource_path ≠ some none ∧ o = .raised (.shield (.os .io))) := by
  obtain ⟨v, y, hv, hbound, hspec⟩ := once_taken (t := q.ttl_ms) hb h
  rw [pass_eq hv] at hp
  cases y with
  | error err =>
    cases hp
    refine ⟨hbound, hspec.imp_right ?_⟩
    rintro ⟨hnone, hne, herr⟩
    cases herr
    exact ⟨hnone, hne, settle_io _ _⟩
  | ok record =>
    cases hp
    exact ⟨hbound, hspec.imp_right fun hspec => by cases hspec.2.2⟩

lemma settle_none (now : ℤ) (e : Exc) : settle none now (.shield e) = .raised (.shield e) := by
  rw [settle]
  exact ite_self _

lemma pass_raised (hd : q.deadline = none) (hb : Bound t.store q.resource_path)
    (h : Untaken n q.resource_path f e t.store) :
    ∃ u err, pass files n q (quiet f e d) starts callback t = some (u, .raised err) := by
  obtain ⟨v, err, hv, -⟩ := once_untaken (t := q.ttl_ms) hb h
  refine ⟨⟨tick d v, t.threads⟩, .shield err, ?_⟩
  rw [pass_eq hv]
  simp [answered, Except.map, quiet, hd, settle_none]

lemma pass_short (hw : t.store.dir (.lock q.resource_path) = none) (h1 : f 1 = false) (h2 : f 2 = true) :
    ∃ u, pass files n q (quiet f e d) starts callback t = some (u, .raised (.shield (.os .io))) ∧
      stands u.store q.resource_path = some none := by
  obtain ⟨v, hv, hdir, -, htext⟩ := short_write (t := q.ttl_ms) hw h1 h2
  refine ⟨_, pass_eq hv, ?_⟩
  change stands v q.resource_path = some none
  rw [stands_of_dir hdir, htext]

lemma raised_of_unreadable (h : stands t.store q.resource_path = some none) :
    pass files n q (quiet f e d) starts callback t ≠ some (u, .goesOn) := by
  intro hp
  obtain ⟨i, hi, htext⟩ := Option.map_eq_some_iff.mp h
  obtain ⟨v, err, hv, -, htransient⟩ := once_refused (n := n) (t := q.ttl_ms) (f := f) (e := e) hi
    (Or.inr (Or.inr (Or.inl htext)))
  rw [pass_eq hv] at hp
  simp [answered, Except.map, settle, htransient htext] at hp

/-- During a call the lock file is the one that was there, or none, or the caller's. -/
structure Kept (n : NodeId) (r : Resource) (s t : World) : Prop where
  bound : Bound t r
  stands : stands t r = stands s r ∨ stands t r = none ∨ ¬ Foreign n (stands t r)

lemma Kept.next {r : Resource} {v w x : World} (h : Kept n r v w) (hbound : Bound x r)
    (hstands : FailedAcquire.stands x r = FailedAcquire.stands w r ∨ FailedAcquire.stands x r = none ∨
      ¬ Foreign n (FailedAcquire.stands x r)) : Kept n r v x := by
  refine ⟨hbound, ?_⟩
  rcases hstands with hsame | hnone | hown
  · rw [hsame]
    exact h.stands
  · exact Or.inr (Or.inl hnone)
  · exact Or.inr (Or.inr hown)

lemma between_kept {r : Resource} {v : World} (hr : q.resource_path = r) (h : Between n q s t)
    (hs : Kept n r v s.store) : Kept n r v t.store := by
  subst hr
  cases h with
  | time d => exact hs.next hs.bound (Or.inl rfl)
  | beat hrunning htarget h =>
    rw [Threads.beat, Option.map_eq_some_iff] at h
    obtain ⟨⟨v', y⟩, hv, hbeat⟩ := h
    rw [htarget] at hv
    obtain ⟨hbound, hstands⟩ := heartbeat_stands hs.bound hv
    have hstore : t.store = v' := by cases y <;> cases hbeat <;> rfl
    rw [hstore]
    exact hs.next hbound (hstands.imp_right Or.inr)

lemma waits_kept (hb : Bound s.store q.resource_path) (h : Waits n q s t) :
    Kept n q.resource_path s.store t.store := by
  induction h with
  | start => exact ⟨hb, Or.inl rfl⟩
  | @next t u v fault delay late starts callback h hpass hbetween ih =>
    have hu : Kept n q.resource_path s.store u.store := by
      by_cases huntaken : Untaken n q.resource_path fault delay t.store
      · obtain ⟨-, hbound, -, hstands⟩ := pass_untaken ih.bound huntaken hpass
        exact ih.next hbound (hstands.imp_right Or.inl)
      · obtain ⟨hbound, hstands⟩ := pass_taken ih.bound huntaken hpass
        refine ih.next hbound (Or.inr (Or.inr (hstands.resolve_right ?_)))
        rintro ⟨-, -, ho⟩
        cases ho
    clear hpass
    induction hbetween with
    | refl => exact hu
    | tail _ hstep ih => exact between_kept rfl hstep ih

lemma eq_of_unreadable (hs : stands s.store q.resource_path = some none) (h : Waits n q s t) : t = s := by
  induction h with
  | start => rfl
  | next h hpass hbetween ih =>
    rw [ih] at hpass
    exact absurd hpass (raised_of_unreadable hs)

lemma files_iff {err : Failure} (hb : Bound s.store q.resource_path) (hw : Waits n q s t)
    (hp : pass files n q (quiet f e d) starts callback t = some (u, .raised err)) :
    HoldsNothing n q s u ↔ Idle s t ∧ Untaken n q.resource_path f e t.store := by
  have hkept := waits_kept hb hw
  constructor
  · intro h
    have huntaken : Untaken n q.resource_path f e t.store := by
      by_contra htaken
      obtain ⟨-, hown | ⟨hnone, hne, -⟩⟩ := pass_taken hkept.bound htaken hp
      · exact hown h.unnamed
      · rcases h.unchanged with hsame | hmissing
        · have hs : stands s.store q.resource_path = some none := hsame.symm.trans hnone
          rw [eq_of_unreadable hs hw] at hne
          exact hne hs
        · exact absurd (hmissing.symm.trans hnone) nofun
    obtain ⟨hthreads, -⟩ := pass_untaken hkept.bound huntaken hp
    refine ⟨?_, huntaken⟩
    intro k hk
    rw [← hthreads]
    exact h.no_thread k hk
  · rintro ⟨hidle, huntaken⟩
    obtain ⟨hthreads, -, hforeign, hsame | hnone⟩ := pass_untaken hkept.bound huntaken hp
    · refine ⟨?_, hforeign, fun k hk => by rw [hthreads]; exact hidle k hk⟩
      rcases hkept.stands with hstart | hnone | hown
      · exact Or.inl (hsame.trans hstart)
      · exact Or.inr (hsame.trans hnone)
      · exact absurd (hsame ▸ hforeign) hown
    · exact ⟨Or.inr hnone, hforeign, fun k hk => by rw [hthreads]; exact hidle k hk⟩

end FileCalls

section Keys

variable {n : NodeId} {r : Resource} {t : ℤ} {f : ℕ → Redis.Link} {e : ℕ → ℕ} {w : Redis.World}
  {x : LockRecord}

def served (n : NodeId) (f : ℕ → Redis.Link) (e : ℕ → ℕ) (i : ℕ) (w : Redis.World) (c : Redis.Command) :
    Option (Redis.World × Redis.Reply c) :=
  Redis.exec n (f i) (Redis.tick (e i) w) c

/-- The store when the SET arrives. -/
def atSet (e : ℕ → ℕ) (w : Redis.World) : Redis.World := Redis.tick (e 1) (Redis.tick (e 0) w)

def newRecord (n : NodeId) (r : Resource) (t : ℤ) (e : ℕ → ℕ) (w : Redis.World) : LockRecord :=
  let now := (Redis.tick (e 0) w).now
  { node_id := n, resource_path := r, acquired_at := now, ttl_ms := t, heartbeat_at := now }

lemma set_refused (h : f 1 = .down ∨ t ≤ 0) :
    (Redis.acquireOnce n r t).untilAgain (served n f e) 0 w = some (atSet e w, .error .redis) := by
  simp [Redis.acquireOnce, Prog.untilAgain, served, Redis.exec, h, orThrow, atSet]

lemma set_applied (h1 : f 1 ≠ .down) (httl : 0 < t) (hk : (atSet e w).record (Redis.redisKey r) = none) :
    (Redis.acquireOnce n r t).untilAgain (served n f e) 0 w =
      some ((atSet e w).set n (Redis.redisKey r) (newRecord n r t e w) t,
        if f 1 = .up then .ok (some (newRecord n r t e w)) else .error .redis) := by
  simp only [atSet] at hk
  by_cases hup : f 1 = .up
  · simp [Redis.acquireOnce, Prog.untilAgain, served, Redis.exec, Int.not_le.mpr httl, hk, hup, orThrow, atSet,
      Redis.answer, newRecord]
  · simp [Redis.acquireOnce, Prog.untilAgain, served, Redis.exec, h1, Int.not_le.mpr httl, hk, hup, orThrow, atSet,
      Redis.answer, newRecord]

lemma set_unanswered (h1 : f 1 = .unanswered) (httl : 0 < t)
    (hk : (atSet e w).record (Redis.redisKey r) = some x) :
    (Redis.acquireOnce n r t).untilAgain (served n f e) 0 w = some (atSet e w, .error .redis) := by
  simp only [atSet] at hk
  simp [Redis.acquireOnce, Prog.untilAgain, served, Redis.exec, h1, Int.not_le.mpr httl, hk, orThrow, atSet,
    Redis.answer]

lemma set_taken (h1 : f 1 = .up) (httl : 0 < t) (hk : (atSet e w).record (Redis.redisKey r) = some x) :
    ∃ y, (Redis.acquireOnce n r t).untilAgain (served n f e) 0 w = some (Redis.tick (e 2) (atSet e w), y) ∧
      (∀ z, y ≠ .ok (some z)) := by
  simp only [atSet] at hk
  by_cases h2 : f 2 = .up
  · cases hlater : (Redis.tick (e 2) (atSet e w)).record (Redis.redisKey r) with
    | none =>
      simp only [atSet] at hlater
      simp [Redis.acquireOnce, Prog.untilAgain, served, Redis.exec, h1, Int.not_le.mpr httl, hk, orThrow, atSet,
        Redis.answer, h2, hlater]
    | some y =>
      simp only [atSet] at hlater
      simp [Redis.acquireOnce, Prog.untilAgain, served, Redis.exec, h1, Int.not_le.mpr httl, hk, orThrow, atSet,
        Redis.answer, h2, hlater]
  · simp [Redis.acquireOnce, Prog.untilAgain, served, Redis.exec, h1, Int.not_le.mpr httl, hk, orThrow, atSet,
      Redis.answer, h2]

end Keys

section RedisCalls

variable {n : NodeId} {q : Request} {f : ℕ → Redis.Link} {e : ℕ → ℕ} {d : ℕ} {starts : Bool}
  {callback : Option Exc}
  {s t u : State redis} {o : Outcome}

/-- The attempt starts no thread, or one that did not come up, or finds an entry in the table. -/
def StartsNone (q : Request) (starts : Bool) (t : State redis) : Prop :=
  ¬ (q.start_heartbeat = true ∧ starts = true ∧ t.threads.heartbeat_threads q.resource_path = none)

/-- The store at the end of an attempt that the server refused or that found the key taken: only a SET
that was answered is followed by the GET. -/
def atEnd (q : Request) (f : ℕ → Redis.Link) (e : ℕ → ℕ) (d : ℕ) (w : Redis.World) : Redis.World :=
  Redis.tick d (if f 1 = .up ∧ 0 < q.ttl_ms then Redis.tick (e 2) (atSet e w) else atSet e w)

lemma record_of_atEnd {k : Redis.Key} {w : Redis.World} {x : LockRecord}
    (h : (atEnd q f e d w).record k = some x) :
    (atSet e w).record k = some x := by
  have hlater := Redis.record_of_tick h
  split at hlater
  · exact Redis.record_of_tick hlater
  · exact hlater

/-- The SET is not applied, or its key has run out by the end of the attempt; a key that was taken is
that of another node, or has run out by then. -/
def Unset (n : NodeId) (q : Request) (f : ℕ → Redis.Link) (e : ℕ → ℕ) (d : ℕ) (starts : Bool) (t : State redis) : Prop :=
  match (atSet e t.store).record (Redis.redisKey q.resource_path) with
  | none => f 1 = .down ∨ q.ttl_ms ≤ 0 ∨ q.ttl_ms ≤ d ∧ (f 1 = .up → StartsNone q starts t)
  | some x => x.node_id ≠ n ∨ (atEnd q f e d t.store).record (Redis.redisKey q.resource_path) = none

def Others (n : NodeId) (k : Redis.Key) (w : Redis.World) : Prop := ∀ x, w.record k = some x → x.node_id ≠ n

/-- What stands under the key was there at the start of the call, or is the caller's. -/
def KeptKey (n : NodeId) (k : Redis.Key) (s t : Redis.World) : Prop :=
  ∀ x, t.record k = some x → x.node_id = n ∨ s.record k = some x

lemma KeptKey.tick {k : Redis.Key} {v w : Redis.World} (h : KeptKey n k v w) (d : ℕ) :
    KeptKey n k v (Redis.tick d w) :=
  fun x hx => h x (Redis.record_of_tick hx)

lemma KeptKey.set {k : Redis.Key} {v w : Redis.World} {x : LockRecord} (px : ℤ) (hx : x.node_id = n) :
    KeptKey n k v (w.set n k x px) := by
  intro y hy
  simp only [Redis.World.set, Redis.World.record, Function.update_self] at hy
  change (if w.now < w.now + px then some x else none) = some y at hy
  rw [Option.ite_none_right_eq_some] at hy
  cases hy.2
  exact Or.inl hx

lemma KeptKey.atSet {k : Redis.Key} {v w : Redis.World} (h : KeptKey n k v w) : KeptKey n k v (atSet e w) :=
  (h.tick _).tick _

lemma KeptKey.atEnd {k : Redis.Key} {v w : Redis.World} (h : KeptKey n k v w) :
    KeptKey n k v (atEnd q f e d w) := by
  refine KeptKey.tick ?_ d
  split
  · exact h.atSet.tick _
  · exact h.atSet

lemma redis_pass_eq {v : Redis.World} {y : Except Exc (Option LockRecord)}
    (h : (Redis.acquireOnce n q.resource_path q.ttl_ms).untilAgain (served n f e) 0 t.store = some (v, y)) :
    pass redis n q (quiet f e d) starts callback t =
      some (answered redis q (quiet f e d) starts callback t.threads (v, y)) :=
  Option.map_eq_some_iff.mpr ⟨_, h, rfl⟩

lemma redis_pass_error {v : Redis.World} {err : Exc}
    (h : (Redis.acquireOnce n q.resource_path q.ttl_ms).untilAgain (served n f e) 0 t.store = some (v, .error err)) :
    pass redis n q (quiet f e d) starts callback t =
      some (⟨Redis.tick d v, t.threads⟩, settle q.deadline (Redis.tick d v).now (.shield err)) :=
  redis_pass_eq h

lemma redis_pass_raised (hd : q.deadline = none) (h1 : f 1 = .down) :
    ∃ u err, pass redis n q (quiet f e d) starts callback t = some (u, .raised err) := by
  refine ⟨⟨Redis.tick d (atSet e t.store), t.threads⟩, .shield .redis, ?_⟩
  rw [redis_pass_error (set_refused (Or.inl h1)), hd, settle_none]

lemma next_le_startHeartbeat (r : Resource) (ttl : ℤ) (starts : Bool) (threads : Table) :
    threads.next ≤ (threads.startHeartbeat r ttl starts).1.next := by
  cases h : threads.heartbeat_threads r with
  | some k => simp [startHeartbeat_of_some h]
  | none =>
    rw [startHeartbeat_next h]
    exact Nat.le_succ _

lemma taken_next {B : Backend} (record : LockRecord) (w : B.Store) (threads : Table) :
    threads.next ≤ (taken B q starts callback record w threads).1.threads.next := by
  cases hq : q.start_heartbeat with
  | true => simpa [taken, hq] using next_le_startHeartbeat _ _ _ _
  | false => simp [taken, hq]

/-- All that a pass can do. -/
inductive Passed (n : NodeId) (q : Request) (f : ℕ → Redis.Link) (e : ℕ → ℕ) (d : ℕ) (starts : Bool)
    (callback : Option Exc) (k : Redis.Key) (t : State redis) : State redis → Outcome → Prop
  | refused {o : Outcome} (h : f 1 = .down ∨ q.ttl_ms ≤ 0) :
    Passed n q f e d starts callback k t ⟨atEnd q f e d t.store, t.threads⟩ o
  | present {x : LockRecord} {o : Outcome} (hk : (atSet e t.store).record k = some x) :
    Passed n q f e d starts callback k t ⟨atEnd q f e d t.store, t.threads⟩ o
  | again : Passed n q f e d starts callback k t ⟨Redis.tick (e 2) (atSet e t.store), t.threads⟩ .goesOn
  | lost {x : LockRecord} {o : Outcome} (h1 : f 1 = .unanswered) (httl : 0 < q.ttl_ms)
      (hk : (atSet e t.store).record k = none) (hx : x.node_id = n) :
    Passed n q f e d starts callback k t ⟨Redis.tick d ((atSet e t.store).set n k x q.ttl_ms), t.threads⟩ o
  | took {x : LockRecord} {u : State redis} {o : Outcome} (h1 : f 1 = .up) (httl : 0 < q.ttl_ms)
      (hk : (atSet e t.store).record k = none) (hx : x.node_id = n)
      (h : taken redis q starts callback x (Redis.tick d ((atSet e t.store).set n k x q.ttl_ms)) t.threads = (u, o)) :
    Passed n q f e d starts callback k t u o

lemma atEnd_of_refused {w : Redis.World} (h : f 1 = .down ∨ q.ttl_ms ≤ 0) :
    atEnd q f e d w = Redis.tick d (atSet e w) := by
  rw [atEnd, if_neg]
  rintro ⟨hup, httl⟩
  rcases h with hdown | hle
  · rw [hup] at hdown
    cases hdown
  · omega

lemma atEnd_of_unanswered {w : Redis.World} (h : f 1 = .unanswered) :
    atEnd q f e d w = Redis.tick d (atSet e w) := by
  rw [atEnd, if_neg (by simp [h])]

lemma atEnd_of_up {w : Redis.World} (h : f 1 = .up) (httl : 0 < q.ttl_ms) :
    atEnd q f e d w = Redis.tick d (Redis.tick (e 2) (atSet e w)) := by
  rw [atEnd, if_pos ⟨h, httl⟩]

lemma redis_passed (hp : pass redis n q (quiet f e d) starts callback t = some (u, o)) :
    Passed n q f e d starts callback (Redis.redisKey q.resource_path) t u o := by
  by_cases hrefused : f 1 = .down ∨ q.ttl_ms ≤ 0
  · rw [redis_pass_error (set_refused hrefused)] at hp
    cases hp
    rw [← atEnd_of_refused hrefused]
    exact .refused hrefused
  · rw [not_or, Int.not_le] at hrefused
    obtain ⟨h1, httl⟩ := hrefused
    have hown : (newRecord n q.resource_path q.ttl_ms e t.store).node_id = n := rfl
    cases hrecord : (atSet e t.store).record (Redis.redisKey q.resource_path) with
    | none =>
      have happlied := set_applied (n := n) h1 httl hrecord
      cases hlink : f 1 with
      | down => exact absurd hlink h1
      | up =>
        rw [if_pos hlink] at happlied
        rw [redis_pass_eq happlied] at hp
        exact .took hlink httl hrecord hown (Option.some.inj hp)
      | unanswered =>
        rw [if_neg (by rw [hlink]; decide)] at happlied
        rw [redis_pass_eq happlied] at hp
        cases hp
        exact .lost hlink httl hrecord hown
    | some x =>
      cases hlink : f 1 with
      | down => exact absurd hlink h1
      | up =>
        obtain ⟨y, hy, hne⟩ := set_taken (n := n) hlink httl hrecord
        rcases y with err | _ | z
        · rw [redis_pass_error hy] at hp
          cases hp
          rw [← atEnd_of_up hlink httl]
          exact .present hrecord
        · rw [redis_pass_eq hy] at hp
          cases hp
          exact .again
        · exact absurd rfl (hne z)
      | unanswered =>
        rw [redis_pass_error (set_unanswered hlink httl hrecord)] at hp
        cases hp
        rw [← atEnd_of_unanswered hlink]
        exact .present hrecord

lemma passed_kept {k : Redis.Key} {v : Redis.World} (h : Passed n q f e d starts callback k t u o)
    (ht : KeptKey n k v t.store) : KeptKey n k v u.store ∧ t.threads.next ≤ u.threads.next := by
  cases h with
  | refused => exact ⟨ht.atEnd, Nat.le_refl _⟩
  | present => exact ⟨ht.atEnd, Nat.le_refl _⟩
  | again => exact ⟨ht.atSet.tick _, Nat.le_refl _⟩
  | lost h1 httl hk hx => exact ⟨(KeptKey.set _ hx).tick _, Nat.le_refl _⟩
  | @took x u o h1 httl hk hx h =>
    have hstore : u.store = Redis.tick d ((atSet e t.store).set n k x q.ttl_ms) := (congrArg (fun p => p.1.store) h).symm
    have hnext : t.threads.next ≤ (taken redis q starts callback x
        (Redis.tick d ((atSet e t.store).set n k x q.ttl_ms)) t.threads).1.threads.next := taken_next _ _ _
    rw [h] at hnext
    rw [hstore]
    exact ⟨(KeptKey.set _ hx).tick _, hnext⟩

/-- What a heartbeat asks of the server. -/
def Refreshes (n : NodeId) : Redis.Command → Prop
  | .utcMs | .get _ => True
  | .setXx _ x _ => x.node_id = n
  | _ => False

lemma heartbeat_refreshes (r : Resource) (ttl : ℤ) : (Redis.heartbeat n r ttl).Issues (Refreshes n) := by
  refine ⟨trivial, fun y => (orThrow_issues y).bind fun z => ?_⟩
  cases z with
  | none => trivial
  | some x =>
    dsimp only
    split
    · exact ⟨trivial, fun now => ⟨rfl, fun y => (orThrow_issues y).bind fun _ => trivial⟩⟩
    · trivial

lemma KeptKey.exec {k : Redis.Key} {v w w' : Redis.World} {link : Redis.Link} {c : Redis.Command}
    {y : Redis.Reply c}
    (hc : Refreshes n c) (h : Redis.exec n link w c = some (w', y)) (hw : KeptKey n k v w) : KeptKey n k v w' := by
  cases c with
  | utcMs | get k' =>
    cases h
    exact hw
  | setXx k' x px =>
    simp only [Redis.exec] at h
    split at h
    · cases h
      exact hw
    · split at h <;> cases h
      · exact hw
      · by_cases hk : k = k'
        · subst hk
          exact KeptKey.set px hc
        · have hcell : (w.set n k' x px).record k = w.record k := by
            simp only [Redis.World.record, Redis.World.set]
            rw [Function.update_of_ne hk]
            rfl
          intro z hz
          exact hw z (hcell ▸ hz)
  | setNx | del | onLockAcquired => exact hc.elim

lemma heartbeat_kept {r : Resource} {k : Redis.Key} {ttl : ℤ} {v w w' : Redis.World}
    {y : Except Exc LockRecord}
    (h : (Redis.heartbeat n r ttl).alone (served n f e) 0 w = some (w', y)) (hw : KeptKey n k v w) :
    KeptKey n k v w' :=
  Prog.alone_keeps (T := KeptKey n k v) (fun i _ _ _ _ hc hs hexec => KeptKey.exec hc hexec (hs.tick (e i)))
    (heartbeat_refreshes r ttl) hw h

lemma between_keptKey {v : Redis.World} (h : Between n q s t)
    (hs : KeptKey n (Redis.redisKey q.resource_path) v s.store) :
    KeptKey n (Redis.redisKey q.resource_path) v t.store ∧ t.threads.next = s.threads.next := by
  cases h with
  | time d => exact ⟨hs.tick d, rfl⟩
  | beat hrunning htarget h =>
    rw [Threads.beat, Option.map_eq_some_iff] at h
    obtain ⟨⟨v', y⟩, hv, hbeat⟩ := h
    rw [htarget] at hv
    have hkept := heartbeat_kept hv hs
    cases y <;> cases hbeat <;> exact ⟨hkept, rfl⟩

lemma waits_keptKey (h : Waits n q s t) :
    KeptKey n (Redis.redisKey q.resource_path) s.store t.store ∧ s.threads.next ≤ t.threads.next := by
  induction h with
  | start => exact ⟨fun x hx => Or.inr hx, Nat.le_refl _⟩
  | @next t u v fault delay late starts callback h hpass hbetween ih =>
    obtain ⟨hkept, hnext⟩ := passed_kept (redis_passed hpass) ih.1
    have hu := And.intro hkept (Nat.le_trans ih.2 hnext)
    clear hpass
    induction hbetween with
    | refl => exact hu
    | tail _ hstep ih =>
      obtain ⟨hkept, hsame⟩ := between_keptKey hstep ih.1
      exact ⟨hkept, by rw [hsame]; exact ih.2⟩

lemma holds_iff_of_kept (hkept : KeptKey n (Redis.redisKey q.resource_path) s.store u.store)
    (hthreads : u.threads = t.threads) :
    HoldsNothing n q s u ↔ Idle s t ∧ Others n (Redis.redisKey q.resource_path) u.store := by
  constructor
  · intro h
    refine ⟨fun k hk => ?_, fun x hx => h.unnamed x ?_⟩
    · rw [← hthreads]
      exact h.no_thread k hk
    · simp only [redis, hx, Option.map_some]
  · rintro ⟨hidle, hothers⟩
    refine ⟨?_, ?_, fun k hk => by rw [hthreads]; exact hidle k hk⟩
    · cases hx : u.store.record (Redis.redisKey q.resource_path) with
      | none => exact Or.inr (by simp only [redis, hx, Option.map_none])
      | some x =>
        have hs := (hkept x hx).resolve_left (hothers x hx)
        exact Or.inl (by simp only [redis, hx, hs])
    · intro x hx
      obtain ⟨y, hy, hyx⟩ := Option.map_eq_some_iff.mp hx
      cases hyx
      exact hothers _ hy

lemma others_iff_of_some {k : Redis.Key} {w : Redis.World} {x : LockRecord} (h : w.record k = some x) :
    Others n k w ↔ x.node_id ≠ n := by
  constructor
  · exact fun ho => ho x h
  · intro hx y hy
    rw [h] at hy
    cases hy
    exact hx

lemma others_of_none {k : Redis.Key} {w : Redis.World} (h : w.record k = none) : Others n k w := by
  intro x hx
  rw [h] at hx
  cases hx

/-- The thread of a lock that was taken outlives the call unless `StartsNone` holds. -/
lemma taken_idle {w : Redis.World} (hnext : s.threads.next ≤ t.threads.next)
    (h : taken redis q starts callback x w t.threads = (u, o)) :
    u.store = w ∧ (Idle s u ↔ Idle s t ∧ StartsNone q starts t) := by
  have hu : u = (taken redis q starts callback x w t.threads).1 := by rw [h]
  subst hu
  refine ⟨rfl, ?_⟩
  cases hq : q.start_heartbeat with
  | false =>
    have hnone : StartsNone q starts t := fun hstarts => by simp [hq] at hstarts
    simp [Idle, taken, hq, hnone]
  | true =>
    cases hentry : t.threads.heartbeat_threads q.resource_path with
    | some k =>
      have hnone : StartsNone q starts t := fun hstarts => by simp [hentry] at hstarts
      simp [Idle, taken, hq, hnone, Table.startHeartbeat, hentry]
    | none =>
      have hrunning : (taken redis q starts callback x w t.threads).1.threads.running =
          Function.update t.threads.running t.threads.next starts := by
        simp [taken, hq, Table.startHeartbeat, hentry]
      have hunmade := t.threads.unmade t.threads.next (Nat.le_refl _)
      have hiff : StartsNone q starts t ↔ starts = false := by simp [StartsNone, hq, hentry]
      simp only [Idle, hrunning, hiff]
      constructor
      · intro hidle
        have hstarts : starts = false := by simpa using hidle t.threads.next hnext
        refine ⟨fun k hk => ?_, hstarts⟩
        by_cases hkn : k = t.threads.next
        · rw [hkn, hunmade]
        · have := hidle k hk
          rwa [Function.update_of_ne hkn] at this
      · rintro ⟨hidle, hstarts⟩ k hk
        by_cases hkn : k = t.threads.next
        · rw [hkn, Function.update_self, hstarts]
        · rw [Function.update_of_ne hkn]
          exact hidle k hk

lemma record_atEnd_none {k : Redis.Key} {w : Redis.World} (h : (atSet e w).record k = none) :
    (atEnd q f e d w).record k = none := by
  cases hx : (atEnd q f e d w).record k with
  | none => rfl
  | some x =>
    rw [record_of_atEnd hx] at h
    cases h

lemma others_atEnd_iff {k : Redis.Key} {w : Redis.World} {x : LockRecord}
    (h : (atSet e w).record k = some x) :
    Others n k (atEnd q f e d w) ↔ x.node_id ≠ n ∨ (atEnd q f e d w).record k = none := by
  cases hx : (atEnd q f e d w).record k with
  | none => exact iff_of_true (others_of_none hx) (Or.inr rfl)
  | some y =>
    obtain rfl : x = y := Option.some.inj (h.symm.trans (record_of_atEnd hx))
    simp [others_iff_of_some hx]

lemma redis_iff {err : Failure} (hw : Waits n q s t)
    (hp : pass redis n q (quiet f e d) starts callback t = some (u, .raised err)) :
    HoldsNothing n q s u ↔ Idle s t ∧ Unset n q f e d starts t := by
  obtain ⟨hkept, hnext⟩ := waits_keptKey hw
  have hpassed := redis_passed hp
  have hkeptu := (passed_kept hpassed hkept).1
  cases hpassed with
  | refused h =>
    rw [holds_iff_of_kept hkeptu rfl, Unset]
    refine and_congr_right fun _ => ?_
    cases hx : (atSet e t.store).record (Redis.redisKey q.resource_path) with
    | none =>
      refine iff_of_true (others_of_none (record_atEnd_none hx)) ?_
      rcases h with h | h
      · exact Or.inl h
      · exact Or.inr (Or.inl h)
    | some x => exact others_atEnd_iff hx
  | present hk =>
    rw [holds_iff_of_kept hkeptu rfl, Unset, hk]
    exact and_congr_right fun _ => others_atEnd_iff hk
  | @lost x _ h1 httl hk hx =>
    rw [holds_iff_of_kept hkeptu rfl, Unset, hk]
    refine and_congr_right fun _ => ?_
    have hrecord : (Redis.tick d ((atSet e t.store).set n (Redis.redisKey q.resource_path) x q.ttl_ms)).record
        (Redis.redisKey q.resource_path) = if d < q.ttl_ms then some x else none := Redis.record_set d
    by_cases hlive : d < q.ttl_ms
    · rw [if_pos hlive] at hrecord
      refine iff_of_false (fun h => h x hrecord hx) ?_
      rintro (h | h | ⟨h, -⟩)
      · rw [h1] at h
        cases h
      · omega
      · omega
    · rw [if_neg hlive] at hrecord
      refine iff_of_true (others_of_none hrecord) (Or.inr (Or.inr ⟨Int.not_lt.mp hlive, fun hup => ?_⟩))
      rw [h1] at hup
      cases hup
  | @took x _ _ h1 httl hk hx h =>
    obtain ⟨hstore, hidle⟩ := taken_idle hnext h
    have hrecord : u.store.record (Redis.redisKey q.resource_path) = if d < q.ttl_ms then some x else none := by
      rw [hstore]
      exact Redis.record_set d
    have hunset : Unset n q f e d starts t ↔ q.ttl_ms ≤ d ∧ StartsNone q starts t := by
      simp [Unset, hk, h1, Int.not_le.mpr httl]
    by_cases hlive : d < q.ttl_ms
    · rw [if_pos hlive] at hrecord
      refine iff_of_false (fun h => h.unnamed _ ?_ hx) ?_
      · simp only [redis, hrecord, Option.map_some]
      · rw [hunset]
        omega
    · rw [if_neg hlive] at hrecord
      rw [Int.not_lt] at hlive
      rw [hunset, and_iff_right hlive, ← hidle]
      refine ⟨fun h => h.no_thread, fun h => ⟨Or.inr ?_, ?_, h⟩⟩
      · simp only [redis, hrecord, Option.map_none]
      · intro x hx
        simp only [redis, hrecord, Option.map_none] at hx
        cases hx

end RedisCalls

/-- On files an `acquire` that raises holds nothing if and only if no earlier attempt left a thread of
its own and the last attempt failed before the lock file was created, or was undone; on Redis, if and
only if no earlier attempt left a thread and the last one applied no SET or outlived what it set. -/
theorem holds_nothing_iff (n : NodeId) (q : Request) (e : ℕ → ℕ) (d : ℕ) (starts : Bool)
    (callback : Option Exc)
    (err : Failure) :
    (∀ (s t u : State files) (f : ℕ → Bool), Bound s.store q.resource_path → Waits n q s t →
      pass files n q (quiet f e d) starts callback t = some (u, .raised err) →
      (HoldsNothing n q s u ↔ Idle s t ∧ Untaken n q.resource_path f e t.store)) ∧
    ∀ (s t u : State redis) (f : ℕ → Redis.Link), Waits n q s t →
      pass redis n q (quiet f e d) starts callback t = some (u, .raised err) →
      (HoldsNothing n q s u ↔ Idle s t ∧ Unset n q f e d starts t) :=
  ⟨fun _ _ _ _ hb hw hp => files_iff hb hw hp, fun _ _ _ _ hw hp => redis_iff hw hp⟩

section Sample

def nginxConf : Request := { resource_path := "nginx.conf", ttl_ms := 100, deadline := none, start_heartbeat := true }

def recordOfB : LockRecord :=
  { node_id := "node-b", resource_path := "nginx.conf", acquired_at := 0, ttl_ms := 100, heartbeat_at := 0 }

def lockedByB : World :=
  (emptyDir.create "node-b" (.lock nginxConf.resource_path)).setText 0 (some recordOfB)

def emptyServer : Redis.World where
  now := 0
  cell _ := none
  lastSet _ _ := none
  held _ _ := false
  deleted := []

/-- A lock file of node-b that is 50 milliseconds old, and a server that cannot be reached. -/
theorem refused_holds_nothing :
    (∃ u err, pass files "node-a" nginxConf (quiet (fun _ => false) (fun _ => 50) 0) true none ⟨lockedByB, .empty⟩ =
      some (u, .raised err) ∧ HoldsNothing "node-a" nginxConf ⟨lockedByB, .empty⟩ u) ∧
    ∃ u err, pass redis "node-a" nginxConf (quiet (fun _ => .down) (fun _ => 50) 0) true none ⟨emptyServer, .empty⟩ =
      some (u, .raised err) ∧ HoldsNothing "node-a" nginxConf ⟨emptyServer, .empty⟩ u := by
  constructor
  · have hdir : lockedByB.dir (.lock nginxConf.resource_path) = some 0 := by
      simp [lockedByB, World.create, World.setText, emptyDir]
    have htext : lockedByB.text 0 = some recordOfB := by simp [lockedByB, World.setText]
    have hb : Bound lockedByB nginxConf.resource_path := by
      intro i hi
      obtain rfl := Option.some.inj (hdir.symm.trans hi)
      exact Nat.one_pos
    have huntaken : Untaken "node-a" nginxConf.resource_path (fun _ => false) (fun _ => 50) lockedByB := by
      rw [untaken_iff hdir htext]
      simp [isStale, recordOfB, lockedByB, World.create, World.setText, emptyDir]
    obtain ⟨u, err, hraised⟩ := pass_raised (t := ⟨lockedByB, .empty⟩) (d := 0) rfl hb huntaken
    exact ⟨u, err, hraised, ((holds_nothing_iff _ _ _ _ _ _ _).1 _ _ _ _ hb (.start _) hraised).mpr
      ⟨fun _ _ => rfl, huntaken⟩⟩
  · obtain ⟨u, err, hraised⟩ := redis_pass_raised (n := "node-a") (q := nginxConf) (f := fun _ => .down)
      (e := fun _ => 50) (d := 0) (t := ⟨emptyServer, .empty⟩) rfl rfl
    exact ⟨u, err, hraised, ((holds_nothing_iff _ _ _ _ _ _ _).2 _ _ _ _ (.start _) hraised).mpr
      ⟨fun _ _ => rfl, Or.inl rfl⟩⟩

/-- The write of a new lock file fails, and the file stays. -/
theorem short_write_left : ¬ ∀ (n : NodeId) (q : Request) (f : ℕ → Bool) (e : ℕ → ℕ) (d : ℕ) (starts : Bool)
    (callback : Option Exc) (err : Failure) (s t u : State files), Bound s.store q.resource_path → Waits n q s t →
    pass files n q (quiet f e d) starts callback t = some (u, .raised err) → HoldsNothing n q s u := by
  intro h
  obtain ⟨u, hraised, hu⟩ := pass_short (n := "node-a") (q := nginxConf) (f := fun i => decide (i = 2))
    (e := fun _ => 0) (d := 0) (t := ⟨emptyDir, .empty⟩) rfl rfl rfl
  rcases (h _ _ _ _ _ true none _ ⟨emptyDir, .empty⟩ _ _ nofun (.start _) hraised).unchanged with hsame | hmissing
  · exact absurd (hu.symm.trans hsame) nofun
  · exact absurd (hu.symm.trans hmissing) nofun

end Sample

end OpsSentry.ConfigShield.FailedAcquire
