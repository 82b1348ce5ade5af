import OpsSentry.Foundation.Leases
import OpsSentry.Foundation.Programs

/-! What the two backends of `config_shield.py` share: the lock record, the errors and
the loop of `acquire`. -/

namespace OpsSentry.ConfigShield

open Foundation.Programs

abbrev NodeId := String
abbrev Resource := String

structure LockRecord where
  node_id : NodeId
  resource_path : Resource
  acquired_at : ℤ
  ttl_ms : ℤ
  heartbeat_at : ℤ
deriving DecidableEq, Repr

inductive OSErr
  | fileExists
  | fileNotFound
  | nameTooLong
  | io
deriving DecidableEq, Repr

inductive Exc
  | lockAcquisition (message : String)
  | os (e : OSErr)
  | redis
  | jsonDecode
  | value
  | recursion
  | callback
deriving DecidableEq, Repr

/-- Contention and Redis errors are transient; on POSIX an `OSError` is not, and no other
error is caught. -/
def isTransient : Exc → Bool
  | .lockAcquisition _ | .redis => true
  | _ => false

variable {I : Interface} {α : Type}

/-- What the loop of `acquire` does with an error, `deadline` being `none` for `wait_ms = 0`.
The result `none` means that the call sleeps and goes round again. -/
def raiseOrSleep (utcMs : Prog I Exc ℤ) (deadline : Option ℤ) (e : Exc) :
    Prog I Exc (Option LockRecord) :=
  if isTransient e then
    match deadline with
    | none => throw e
    | some deadline => do
      let now ← utcMs
      if deadline ≤ now then throw e else pure none
  else throw e

def acquireRound (utcMs : Prog I Exc ℤ) (attempt : Prog I Exc LockRecord)
    (onLockAcquired : Prog I Exc (Except Exc Unit)) (deadline : Option ℤ) :
    Prog I Exc (Option LockRecord) :=
  tryCatch
    (do let record ← attempt
        orThrow (← onLockAcquired)
        pure (some record))
    (raiseOrSleep utcMs deadline)

section Rounds

variable {A S P O E γ : Type} {C : Contract I A S P} {V : Service I A S P O E Exc γ}
variable {a : A} {J T U : S → Prop} {s : S}

def Granted (T U : S → Prop) (x : Except Exc α) (s : S) : Prop := T s ∧ ∀ v, x = .ok v → U s

lemma granted_error {e : Exc} (h : T s) : Granted T U (.error e : Except Exc α) s := ⟨h, by simp⟩

lemma granted_of_and {x : Except Exc α} (h : T s ∧ U s) : Granted T U x s := ⟨h.1, fun _ _ => h.2⟩

lemma raiseOrSleep_spec {utcMs : Prog I Exc ℤ} {deadline : Option ℤ} {e : Exc}
    {Q : Except Exc (Option LockRecord) → S → Prop} (hs : T s)
    (hclock : C.wp V a J (fun _ t => T t) utcMs s) (herr : ∀ e t, T t → Q (.error e) t)
    (hsleep : ∀ t, T t → Q (.ok none) t) (hi : C.Inv s) :
    C.wp V a J Q (raiseOrSleep utcMs deadline e) s := by
  simp only [raiseOrSleep]
  split
  · cases deadline with
    | none => exact herr e s hs
    | some deadline =>
      refine Contract.wp_bind (Contract.wp_mono hi hclock ?_)
      rintro (e' | now) t _ ht
      · exact herr e' t ht
      · dsimp only
        split
        · exact herr e t ht
        · exact hsleep t ht
  · exact herr e s hs

lemma acquireRound_spec {utcMs : Prog I Exc ℤ} {attempt : Prog I Exc LockRecord}
    {onLockAcquired : Prog I Exc (Except Exc Unit)} {deadline : Option ℤ} (hi : C.Inv s)
    (hattempt : C.wp V a J (Granted T U) attempt s)
    (hcallback : ∀ t, C.Inv t → T t → U t → C.wp V a J (fun _ t => T t ∧ U t) onLockAcquired t)
    (hclock : ∀ t, C.Inv t → T t → C.wp V a J (fun _ t => T t) utcMs t) :
    C.wp V a J (fun x t => T t ∧ ∀ v, x = .ok (some v) → U t)
      (acquireRound utcMs attempt onLockAcquired deadline) s := by
  have hfail : ∀ e t, C.Inv t → T t → C.wp V a J (fun x t => T t ∧ ∀ v, x = .ok (some v) → U t)
      (raiseOrSleep utcMs deadline e) t :=
    fun e t hit ht => raiseOrSleep_spec ht (hclock t hit ht) (fun _ _ h => ⟨h, by simp⟩)
      (fun _ h => ⟨h, by simp⟩) hit
  refine Contract.wp_handle (Contract.wp_bind (Contract.wp_mono hi hattempt ?_))
  rintro (e | v) t hit ht
  · exact hfail e t hit ht.1
  · refine Contract.wp_bind (Contract.wp_mono hit (hcallback t hit ht.1 (ht.2 v rfl)) ?_)
    rintro (e | e | _) u hiu hu
    · exact hfail e u hiu hu.1
    · exact hfail e u hiu hu.1
    · exact ⟨hu.1, fun _ _ => hu.2⟩

end Rounds

inductive Procedure
  | acquire (resource_path : Resource) (ttl_ms : Option ℤ) (deadline : Option ℤ)
  | heartbeat (resource_path : Resource) (ttl_ms : Option ℤ)
  | release (resource_path : Resource)

def effectiveTtl (self_ttl : ℤ) : Option ℤ → ℤ
  | none => self_ttl
  | some ttl => if ttl = 0 then self_ttl else ttl

end OpsSentry.ConfigShield
