import OpsSentry.Foundation.Runs
import OpsSentry.Foundation.Values
import Mathlib.Data.List.Nodup

/-! `routers/sessions.py`: the `ConnectionManager`, whose broadcasts iterate over the live table of
connections and wait in the middle. -/

namespace OpsSentry.Agent.Connections

open Foundation.Runs Foundation.Values

/-- A list object. -/
abbrev Ref := ℕ

/-- `active_connections`: the entries of the dict in their places, `none` where one was deleted. -/
structure Registry (W : Type) where
  entries : List (Option (String × Ref))
  lists : Ref → List W
  fresh : Ref

namespace Registry

variable {W : Type} [DecidableEq W] (r : Registry W)

def empty : Registry W := ⟨[], fun _ => [], 0⟩

def items : List (String × Ref) := r.entries.filterMap id

def find (session_id : String) : Option Ref := r.items.lookup session_id

def registered (websocket : W) : Bool := r.items.any fun p => websocket ∈ r.lists p.2

/-- Where a new key needs more room, the places of deleted ones are given up. -/
def connect (session_id : String) (websocket : W) (rebuilt : Bool) : Registry W :=
  match r.find session_id with
  | some l => { r with lists := Function.update r.lists l (r.lists l ++ [websocket]) }
  | none =>
    { entries := (if rebuilt then r.entries.filter Option.isSome else r.entries) ++ [some (session_id, r.fresh)]
      lists := Function.update r.lists r.fresh [websocket]
      fresh := r.fresh + 1 }

def delete (session_id : String) : List (Option (String × Ref)) :=
  r.entries.map fun entry => entry.filter fun p => p.1 ≠ session_id

/-- The `ValueError` of a client that is not there comes before any change. -/
def disconnect (session_id : String) (websocket : W) : Registry W :=
  match r.find session_id with
  | none => r
  | some l =>
    if websocket ∈ r.lists l then
      { r with
        lists := Function.update r.lists l ((r.lists l).erase websocket)
        entries := if (r.lists l).erase websocket = [] then r.delete session_id else r.entries }
    else r

end Registry

inductive Change (W : Type)
  | connect (session_id : String) (websocket : W) (rebuilt : Bool)
  | disconnect (session_id : String) (websocket : W)

variable {W : Type} [DecidableEq W]

/-- A connection is accepted once, so it is registered once. -/
def change (r : Registry W) : Change W → Option (Registry W)
  | .connect session_id websocket rebuilt =>
    if r.registered websocket then none else some (r.connect session_id websocket rebuilt)
  | .disconnect session_id websocket => some (r.disconnect session_id websocket)

/-- The iterator of the dict: the place it looks at next, the size it goes by, and how many entries it
has yet to give. -/
structure DictIter where
  pos : ℕ
  used : ℕ
  len : ℕ

/-- The iterators of a broadcast: over a list, and, in `broadcast_global`, over the dict. -/
structure Cursor where
  connections : Option (Ref × ℕ)
  sessions : Option DictIter

inductive Progress
  | sending (cursor : Cursor)
  | returned
  | raised

/-- What the loops come to, and to whom the message is sent there. -/
abbrev Advance (W : Type) := Progress × List W

def nextSession (r : Registry W) (used : ℕ) : List (Option (String × Ref)) → ℕ → ℕ → Advance W
  | [], _, _ => (.returned, [])
  | none :: entries, pos, len => nextSession r used entries (pos + 1) len
  | some (_, l) :: entries, pos, len =>
    if len = 0 then (.raised, [])
    else
      match r.lists l with
      | [] => nextSession r used entries (pos + 1) (len - 1)
      | connection :: _ => (.sending ⟨some (l, 1), some ⟨pos + 1, used, len - 1⟩⟩, [connection])

/-- A dict that has changed its size raises when it is asked for the next entry. -/
def advanceSessions (r : Registry W) : Option DictIter → Advance W
  | none => (.returned, [])
  | some it =>
    if it.used ≠ r.items.length then (.raised, [])
    else nextSession r it.used (r.entries.drop it.pos) it.pos it.len

def advance (r : Registry W) (cursor : Cursor) : Advance W :=
  match cursor.connections with
  | none => advanceSessions r cursor.sessions
  | some (l, i) =>
    match (r.lists l)[i]? with
    | some connection => (.sending { cursor with connections := some (l, i + 1) }, [connection])
    | none => advanceSessions r cursor.sessions

inductive Form
  | broadcastToSession (session_id : String)
  | broadcastGlobal

structure State (W : Type) where
  registry : Registry W
  progress : Progress
  sent : List W

/-- Where the loop of each form begins. -/
def enter (r : Registry W) : Form → Advance W
  | .broadcastGlobal => advance r ⟨none, some ⟨0, r.items.length, r.items.length⟩⟩
  | .broadcastToSession session_id =>
    match r.find session_id with
    | some l => advance r ⟨some (l, 0), none⟩
    | none => (.returned, [])

/-- Up to the first `await`. A message that is not JSON is not sent to anyone, without a wait. -/
def start (form : Form) (message : Dict) (r : Registry W) : State W :=
  if (refusedDict message).isSome then ⟨r, .returned, []⟩ else ⟨r, (enter r form).1, (enter r form).2⟩

/-- `send_text` comes back, or raises what is logged. -/
inductive Event (W : Type)
  | change (c : Change W)
  | resume (failed : Bool)

def step (u : State W) : Event W → Option (State W)
  | .change c => (change u.registry c).map fun registry => { u with registry }
  | .resume _ =>
    match u.progress with
    | .sending cursor =>
      let next := advance u.registry cursor
      some ⟨u.registry, next.1, u.sent ++ next.2⟩
    | _ => none

def Registered (form : Form) (r : Registry W) (websocket : W) : Prop :=
  match form with
  | .broadcastToSession session_id => ∃ l, r.find session_id = some l ∧ websocket ∈ r.lists l
  | .broadcastGlobal => r.registered websocket

instance (form : Form) (r : Registry W) (websocket : W) : Decidable (Registered form r websocket) :=
  match form with
  | .broadcastToSession session_id =>
    decidable_of_iff ((r.find session_id).any fun l => websocket ∈ r.lists l) (by
      rw [Option.any_eq_true]
      exact exists_congr fun l => and_congr_right fun _ => decide_eq_true_iff)
  | .broadcastGlobal => inferInstanceAs (Decidable (r.registered websocket = true))

/-- Registered from before the call until after the events. -/
def Stable (form : Form) (u : State W) (events : List (Event W)) (websocket : W) : Prop :=
  Along step (fun v _ => Registered form v.registry websocket) u events ∧
    ∀ t, run step u events = some t → Registered form t.registry websocket

def Delivers (form : Form) (message : Dict) (r : Registry W) (events : List (Event W)) : Prop :=
  ∀ t, run step (start form message r) events = some t →
    t.progress ≠ .raised ∧ (t.progress = .returned → ∀ websocket,
      Stable form (start form message r) events websocket → t.sent.count websocket = 1)

end OpsSentry.Agent.Connections
