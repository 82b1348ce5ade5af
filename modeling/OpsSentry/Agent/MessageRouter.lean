import OpsSentry.Agent.AgentVM
import OpsSentry.Foundation.Runs

/-! `MessageRouter.route_message`, which never awaits, and the background tasks it leaves behind.
They are closures over its loop variables and read them when they run. -/

namespace OpsSentry.Agent.MessageRouter

open Foundation.Runs Foundation.Strings Foundation.Values

/-- A match of `@DID-[0-9A-F]{8}-[0-9A-F]{6}`. -/
def isMention (cs : List Char) : Bool :=
  let hex c := c.isDigit || ('A' ≤ c && c ≤ 'F')
  cs.length = 20 && cs.take 5 = ['@', 'D', 'I', 'D', '-'] && ((cs.drop 5).take 8).all hex &&
    (cs.drop 13).take 1 = ['-'] && (cs.drop 14).all hex

/-- `re.findall`; the number counts the characters that the last match still covers. -/
def findMentions : ℕ → List Char → List String
  | _, [] => []
  | n + 1, _ :: cs => findMentions n cs
  | 0, c :: cs =>
    if isMention ((c :: cs).take 20) then String.ofList ((c :: cs).take 20) :: findMentions 19 cs
    else findMentions 0 cs

/-- A surrogate is part of no mention. -/
def extractMentions : PyStr → List String
  | .text s => findMentions 0 s.toList
  | .lone s => findMentions 0 (s.points.map Char.ofNat)

example : extractMentions "@@DID-1234ABCD-00FF00@DID-1234abcd-00FF00" = ["@DID-1234ABCD-00FF00"] := by decide +kernel

structure VM where
  uid : String
  did : String
deriving DecidableEq

def Chunk.type : Chunk → String
  | .content _ => "content"
  | .message _ => "message"
  | .tool_call .. => "tool_call"
  | .tool_result .. => "tool_result"
  | .done => "done"
  | .error _ => "error"

/-- A chunk with its type in the words of the front end. -/
structure MappedChunk where
  type : String
  chunk : Chunk

def mapChunk (chunk : Chunk) : MappedChunk :=
  let type := Chunk.type chunk
  ⟨if type = "content" then "thought" else if type = "tool_call" then "call"
    else if type = "tool_result" then "observation" else type, chunk⟩

structure AgentStream where
  did : String
  session_id : PyStr
  payload : MappedChunk

inductive Metadata
  | routed (session_id sender_did : PyStr) (mentions : List String) (content : PyStr)
  | action (did type : String) (payload : MappedChunk)

structure Entry where
  action : String
  metadata : Option Metadata

/-- `create_entry(self, action, *, metadata=None)`: a second positional argument is a `TypeError`. -/
def createEntry (positional : List (String ⊕ Metadata)) (metadata : Option Metadata) : Except Exc Entry :=
  match positional with
  | [.inl action] => .ok ⟨action, metadata⟩
  | args => .error (.other
      s!"OpsLedger.create_entry() takes 2 positional arguments but {args.length + 1} were given")

inductive Stage
  | created
  | iterating
  | broadcasting (chunk : Chunk)
  | ended

/-- A task of `run_inference`: the call of `chat` it made, what that has yielded, and what the task
has broadcast, appended to a session and entered into the ledger. -/
structure Task where
  stage : Stage := .created
  chat : Option (VM × List Message) := none
  yielded : List Chunk := []
  broadcasts : List AgentStream := []
  appended : List (PyStr × Message) := []
  entries : List Entry := []

/-- The variables of `route_message` that the closures share. -/
structure Frame where
  target_did : String
  vm : VM
  session_id : PyStr
  history : List Message

/-- The lines of a session file; `none` is one that is no JSON. -/
abbrev History := List (Option Message)

structure State where
  files : PyStr → History
  ledger : List Entry
  sessions : List PyStr
  frame : Option Frame
  tasks : List Task

def sessionIdOf (uid did : String) (session_id : PyStr) (now : ℤ) : PyStr :=
  if session_id = .text "" then .text s!"sess_{uid}_{did}_{now}" else session_id

def appendHistory (files : PyStr → History) (session_id : PyStr) (m : Message) : PyStr → History :=
  Function.update files session_id (files session_id ++ [some m])

/-- `load_history` leaves out the lines that are no JSON. -/
def loadHistory (lines : History) : List Message := (lines.drop (lines.length - 50)).filterMap id

/-- What raises in a round of the loop: the VM or the directory of the session cannot be made, its
file cannot be read or cannot be written. -/
inductive Fault
  | vm
  | session
  | load
  | append

/-- What the call meets: whether its ledger entry is written, and of each round what raises and the time. -/
structure Outside where
  entered : Bool
  fault : ℕ → Option Fault
  clock : ℕ → ℤ

section Route

variable (uid : String) (session_id content : PyStr) (outside : Outside)

/-- One round of the loop over the mentions; an error is the state that its exception leaves. The
file takes UTF-8: `append_history` raises for a content with a lone surrogate. -/
def routeTo (s : State) (target_did : String) : Except State State :=
  let vm : VM := ⟨uid, target_did⟩
  let id := sessionIdOf uid target_did session_id (outside.clock s.tasks.length)
  let user_msg := .user (.ofStr content)
  let made := { s with sessions := s.sessions ++ [id] }
  let loaded := { made with frame := some ⟨target_did, vm, id, loadHistory (s.files id) ++ [user_msg]⟩ }
  match outside.fault s.tasks.length, content.encode with
  | some .vm, _ => .error { s with frame := s.frame.map fun f => { f with target_did } }
  | some .session, _ => .error { s with frame := s.frame.map fun f => { f with target_did, vm } }
  | some .load, _ => .error { made with frame := s.frame.map fun f => { f with target_did, vm, session_id := id } }
  | some .append, _ | none, .error _ => .error loaded
  | none, .ok _ => .ok { loaded with
      files := appendHistory s.files id user_msg
      tasks := s.tasks ++ [{}] }

def reached : Except State State → State
  | .ok s | .error s => s

def routeMessage (sender_did : PyStr) (files : PyStr → History) : State :=
  let mentions := extractMentions content
  let entry : Entry := ⟨"message_routed", some (.routed session_id sender_did mentions content)⟩
  if outside.entered then
    reached (mentions.foldlM (routeTo uid session_id content outside) ⟨files, [entry], [], none, []⟩)
  else ⟨files, [], [], none, []⟩

end Route

def begin (f : Frame) (t : Task) : Option Task :=
  match t.stage with
  | .created => some { t with stage := .iterating, chat := some (f.vm, f.history) }
  | _ => none

def yield (f : Frame) (chunk : Chunk) (t : Task) : Option Task :=
  match t.stage with
  | .iterating => some { t with
      stage := .broadcasting chunk
      yielded := t.yielded ++ [chunk]
      broadcasts := t.broadcasts ++ [⟨f.target_did, f.session_id, mapChunk chunk⟩] }
  | _ => none

def message? : Chunk → Option Message
  | .message m => some m
  | _ => none

/-- What follows the broadcast of a chunk. -/
def record (f : Frame) (t : Task) : Option Task :=
  match t.stage with
  | .broadcasting chunk =>
    let mapped := mapChunk chunk
    let t := { t with appended := t.appended ++ (message? chunk).toList.map (f.session_id, ·) }
    match createEntry [.inl "agent_action", .inr (.action f.target_did mapped.type mapped)] none with
    | .ok e => some { t with stage := .iterating, entries := t.entries ++ [e] }
    | .error _ => some { t with stage := .ended }
  | _ => none

/-- The broadcast of a chunk or `append_history` raises. -/
def fail (t : Task) : Option Task :=
  match t.stage with
  | .broadcasting _ => some { t with stage := .ended }
  | _ => none

/-- The generator returns or raises. -/
def stop (t : Task) : Option Task :=
  match t.stage with
  | .iterating => some { t with stage := .ended }
  | _ => none

inductive Move
  | begin
  | yield (chunk : Chunk)
  | record
  | fail
  | stop

def move (f : Frame) (t : Task) : Move → Option Task
  | .begin => begin f t
  | .yield chunk => yield f chunk t
  | .record => record f t
  | .fail => fail t
  | .stop => stop t

/-- What a move adds to the session file and to the ledger is what it adds to the task. -/
def step (s : State) (a : ℕ × Move) : Option State :=
  match s.frame, s.tasks[a.1]? with
  | some f, some t => (move f t a.2).map fun t' =>
      { s with
        files := ((t'.appended.drop t.appended.length).foldl fun files p => appendHistory files p.1 p.2) s.files
        ledger := s.ledger ++ t'.entries.drop t.entries.length
        tasks := s.tasks.set a.1 t' }
  | _, _ => none

end OpsSentry.Agent.MessageRouter
