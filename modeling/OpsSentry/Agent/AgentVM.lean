import OpsSentry.Foundation.Programs
import OpsSentry.Foundation.Values
import Mathlib.Data.Int.Order.Basic

/-! `agent_vm.py`: the tool loop of `AgentVM.chat`, with the endpoint of `routers/sessions.py`
that consumes what it yields and the history file of `session_manager.py`. -/

namespace OpsSentry.Agent

open Foundation.Programs Foundation.Values

structure ToolCall where
  id : Option String
  name : String
  arguments : String
deriving DecidableEq

/-- An assistant message without `content` has `none`, one without `tool_calls` has `[]`. -/
inductive Message
  | system (content : String)
  | user (content : Value)
  | assistant (content : Option String) (tool_calls : List ToolCall)
  | tool (tool_call_id : Option String) (name content : String)

structure Fragment where
  index : ℤ
  id : Option String
  name : Option String
  arguments : Option String

structure Delta where
  content : Option String
  tool_calls : List Fragment

inductive Exc
  | index
  | jsonDecode
  | other (message : String)
deriving DecidableEq

def Exc.text : Exc → String
  | .index => "list index out of range"
  | .jsonDecode => "Expecting value"
  | .other message => message

/-- The chunks of a response, and what its stream raises at the end, if anything. -/
structure Stream where
  deltas : List Delta
  failure : Option Exc := none

/-- What `chat` yields, and the error that the endpoint sends. -/
inductive Chunk
  | content (content : String)
  | message (message : Message)
  | tool_call (name : String) (args : Value)
  | tool_result (name : String) (result : Value)
  | done
  | error (message : String)

inductive Command
  | assembleSystemPrompt
  | history
  | acompletion (messages : List Message)
  | loads (text : String)
  | dispatch (tool_name : String) (args : Value)
  | dumps (v : Value)
  | sendText (chunk : Chunk)
  | remember (m : Message)
  | appendHistory (m : Message)
  | loadHistory

/-- The libraries, the tools and the socket answer anything or raise. -/
def Reply : Command → Type
  | .assembleSystemPrompt => Except Exc String
  | .history => List Message
  | .acompletion _ => Except Exc Stream
  | .loads _ => Except Exc Value
  | .dispatch .. => Except Exc Value
  | .dumps _ => Except Exc String
  | .sendText _ => Except Exc Unit
  | .remember _ => Unit
  | .appendHistory _ => Except Exc Unit
  | .loadHistory => Unit

abbrev Host : Interface := ⟨Command, Reply⟩

abbrev Code (α : Type) := Prog Host Exc α

def perform (c : Command) : Code (Reply c) := Prog.perform (I := Host) c

def assembleSystemPrompt : Code (Except Exc String) := perform .assembleSystemPrompt
def history : Code (List Message) := perform .history
def acompletion (messages : List Message) : Code (Except Exc Stream) := perform (.acompletion messages)
def loads (text : String) : Code (Except Exc Value) := perform (.loads text)
def dispatch (tool_name : String) (args : Value) : Code (Except Exc Value) :=
  perform (.dispatch tool_name args)
def dumps (v : Value) : Code (Except Exc String) := perform (.dumps v)
def sendText (chunk : Chunk) : Code (Except Exc Unit) := perform (.sendText chunk)
def remember (m : Message) : Code Unit := perform (.remember m)
def appendHistory (m : Message) : Code (Except Exc Unit) := perform (.appendHistory m)
def loadHistory : Code Unit := perform .loadHistory

/-- The position that `xs[i]` reads in a list of length `n`. -/
def position (n : ℕ) (i : ℤ) : Option ℕ :=
  if 0 ≤ i then if i < n then some i.toNat else none
  else if 0 ≤ n + i then some (n + i).toNat else none

def addFragment (tool_calls : List ToolCall) (tc : Fragment) : Except Exc (List ToolCall) :=
  let tool_calls := if tool_calls.length ≤ tc.index then tool_calls ++ [⟨tc.id, "", ""⟩] else tool_calls
  let name := tc.name.getD ""
  let arguments := tc.arguments.getD ""
  -- an empty name and empty arguments never index the list
  if name = "" ∧ arguments = "" then .ok tool_calls
  else
    match position tool_calls.length tc.index with
    | none => .error .index
    | some i => .ok (tool_calls.modify i fun c =>
        { c with name := c.name ++ name, arguments := c.arguments ++ arguments })

def accumulate (tool_calls : List ToolCall) (deltas : List Delta) : Except Exc (List ToolCall) :=
  deltas.foldlM (fun calls delta => delta.tool_calls.foldlM addFragment calls) tool_calls

/-- What the endpoint does with a chunk that `chat` yields: it sends it, and puts a `message`
in the history. A failure of its own ends the loop over `chat` as one of `chat` would. -/
def yieldChunk (chunk : Chunk) : Code Unit := do
  orThrow (← sendText chunk)
  match chunk with
  | .message m => do
    remember m
    orThrow (← appendHistory m)
  | _ => pure ()

def yieldContent (content : Option String) : Code String :=
  match content with
  | none => pure ""
  | some c =>
    if c = "" then pure ""
    else do
      yieldChunk (.content c)
      pure c

def consume (full_content : String) (tool_calls : List ToolCall) : List Delta → Code (String × List ToolCall)
  | [] => pure (full_content, tool_calls)
  | delta :: deltas => do
    let c ← yieldContent delta.content
    let tool_calls ← orThrow (delta.tool_calls.foldlM addFragment tool_calls)
    consume (full_content ++ c) tool_calls deltas

def parseArguments (text : String) : Code Value := do
  match ← loads text with
  | .ok args => pure args
  | .error .jsonDecode => pure (.dict [])
  | .error e => throw e

def runTools (messages : List Message) : List ToolCall → Code (List Message)
  | [] => pure messages
  | tc :: tcs => do
    let args ← parseArguments tc.arguments
    yieldChunk (.tool_call tc.name args)
    let result_data ← orThrow (← dispatch tc.name args)
    let result_str ← orThrow (← dumps result_data)
    yieldChunk (.tool_result tc.name result_data)
    runTools (messages ++ [.tool tc.id tc.name result_str]) tcs

def assistantMsg (full_content : String) (tool_calls : List ToolCall) : Message :=
  .assistant (if full_content = "" then none else some full_content) tool_calls

def loop (messages : List Message) : ℕ → Code Unit
  | 0 => pure ()
  | max_loops + 1 => do
    let response_chunks ← orThrow (← acompletion messages)
    let (full_content, tool_calls) ← consume "" [] response_chunks.deltas
    orThrow (response_chunks.failure.elim (.ok ()) .error)
    let assistant_msg := assistantMsg full_content tool_calls
    yieldChunk (.message assistant_msg)
    if tool_calls = [] then pure ()
    else do
      let messages ← runTools (messages ++ [assistant_msg]) tool_calls
      loop messages max_loops

def compactContext (messages : List Message) : List Message :=
  if messages.length > 20 then messages.take 2 ++ messages.drop (messages.length - 10) else messages

def chat : Code Unit := do
  let system_prompt ← orThrow (← assembleSystemPrompt)
  let messages := .system system_prompt :: (← history)
  loop (compactContext messages) 10
  yieldChunk .done

/-- One round of the receive loop of the endpoint, for a text with this `message`. -/
def receive (message_text : Value) : Code Unit :=
  if message_text.truthy then do
    let user_msg := .user message_text
    remember user_msg
    orThrow (← appendHistory user_msg)
    tryCatch chat fun e => do orThrow (← sendText (.error e.text))
  else pure ()

inductive Procedure
  | connect
  | receive (message_text : Value)

def body : Procedure → Code Unit
  | .connect => loadHistory
  | .receive message_text => receive message_text

/-- `lines[-limit:]`: each line is one message. -/
def lastLines (file : List Message) (limit : ℕ) : List Message := file.drop (file.length - limit)

structure Turn where
  history : List Message
  responses : List (List Delta)

/-- One list that was passed to the LLM, with the turn it belongs to. -/
structure Completion where
  turn : Turn
  messages : List Message

/-- One session, opened by any number of connections. -/
structure World (A : Type) where
  file : List Message
  history : A → Option (List Message)
  turn : A → Turn
  completions : List Completion

structure Oracle where
  failure : Option Exc := none
  text : String := ""
  value : Value := .null
  stream : Stream := ⟨[], none⟩

def Oracle.reply {α : Type} (o : Oracle) (x : α) : Except Exc α :=
  match o.failure with
  | some e => .error e
  | none => .ok x

variable {A : Type} [DecidableEq A]

def newSession : World A := ⟨[], fun _ => none, fun _ => ⟨[], []⟩, []⟩

namespace World

variable (w : World A) (a : A)

def write (m : Message) : World A := { w with file := w.file ++ [m] }

def setHistory (h : Option (List Message)) : World A := { w with history := Function.update w.history a h }

def setTurn (t : Turn) : World A := { w with turn := Function.update w.turn a t }

def send (messages : List Message) : World A :=
  { w with completions := w.completions ++ [⟨w.turn a, messages⟩] }

def answered (deltas : List Delta) : World A :=
  w.setTurn a ⟨(w.turn a).history, (w.turn a).responses ++ [deltas]⟩

end World

def exec (a : A) (o : Oracle) (w : World A) : (c : Command) → Option (World A × Reply c)
  | .assembleSystemPrompt => some (w, o.reply o.text)
  | .history =>
    let h := (w.history a).getD []
    some (w.setTurn a ⟨h, []⟩, h)
  | .acompletion messages => some ((w.send a messages).answered a o.stream.deltas, o.reply o.stream)
  | .loads _ => some (w, o.reply o.value)
  | .dispatch _ _ => some (w, o.reply o.value)
  | .dumps _ => some (w, o.reply o.text)
  | .sendText _ => some (w, o.reply ())
  | .remember m => some (w.setHistory a ((w.history a).map (· ++ [m])), ())
  | .appendHistory m =>
    match o.failure with
    | some e => some (w, .error e)
    | none => some (w.write m, .ok ())
  | .loadHistory => some (w.setHistory a (some (lastLines w.file 50)), ())

/-- A connection starts with `connect`, and an exception that leaves `receive` closes it. -/
def chatSession (A : Type) [DecidableEq A] :
    Service Host A (World A) Procedure Oracle Empty Exc Unit where
  body _ := body
  exec := exec
  enter a p w :=
    match p, w.history a with
    | .connect, none | .receive _, some _ => some w
    | _, _ => none
  leave a _ x w :=
    match x with
    | .ok _ => w
    | .error _ => w.setHistory a none
  crash a w := some (w.setHistory a none)
  environment e _ := e.elim

end OpsSentry.Agent
