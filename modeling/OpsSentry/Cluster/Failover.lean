import OpsSentry.Cluster.Shipper
import OpsSentry.Foundation.Dicts

/-! `AgentManager.perform_failover`: any number of managers reclaim the tasks of one dead
node, while other nodes claim the tasks that were released. -/

namespace OpsSentry.Cluster.Failover

open Foundation.Dicts Foundation.Programs

abbrev NodeId := String
abbrev TaskId := String

/-- The pipeline of one task: DEL of its lock, HDEL of its registry entry, PUBLISH of REBALANCE. -/
structure Rebalance where
  task_id : TaskId
  old_node : NodeId
deriving DecidableEq, Repr

inductive Command
  | hgetall
  | pipeline (message : Rebalance)
  | setNx (task_id : TaskId)
  | hset (task_id : TaskId)

def Reply : Command → Type
  | .hgetall => Except Exc (List (TaskId × NodeId))
  | .pipeline _ => Except Exc Unit
  | .setNx _ => Bool
  | .hset _ => Unit

abbrev Redis : Interface := ⟨Command, Reply⟩

abbrev Code (α : Type) := Prog Redis Exc α

def redis (c : Command) : Code (Reply c) := Prog.perform (I := Redis) c

def hgetall : Code (Except Exc (List (TaskId × NodeId))) := redis .hgetall
def pipeline (message : Rebalance) : Code (Except Exc Unit) := redis (.pipeline message)
def setNx (task_id : TaskId) : Code Bool := redis (.setNx task_id)
def hset (task_id : TaskId) : Code Unit := redis (.hset task_id)

def reclaim (dead_node_id : NodeId) : List TaskId → ℕ → Code ℕ
  | [], reclaimed_count => pure reclaimed_count
  | tid :: tids, reclaimed_count => do
    orThrow (← pipeline ⟨tid, dead_node_id⟩)
    reclaim dead_node_id tids (reclaimed_count + 1)

/-- The alert at the end touches no task key, and its failure is only logged. -/
def performFailover (dead_node_id : NodeId) : Code ℕ :=
  tryCatch
    (do let all_tasks ← orThrow (← hgetall)
        let tasks_to_reclaim := (all_tasks.filter fun p => p.2 = dead_node_id).map Prod.fst
        reclaim dead_node_id tasks_to_reclaim 0)
    fun _ => pure 0

/-- How the schema document lets a node take a released task over. -/
def claim (task_id : TaskId) : Code ℕ := do
  if ← setNx task_id then
    hset task_id
    pure 1
  else pure 0

/-- One pipeline that was executed, with what it found. -/
structure Removal where
  task_id : TaskId
  lock : Option NodeId
  entry : Option NodeId

/-- A REBALANCE, for the assignment of the task that is current when it is published; and
which call of which manager published it. -/
structure Notice where
  task_id : TaskId
  assignment : ℕ
  manager : ℕ
  call : ℕ

structure Returned where
  manager : ℕ
  call : ℕ
  value : ℕ

/-- The task keys of Redis. `assignments` counts the HSETs of a task, `calls` the failovers
that a manager has started; `snapshot` is what its last HGETALL read, and `moved` says which
tasks were reclaimed since then. -/
structure World where
  registry : OrderedDict TaskId NodeId
  lock : TaskId → Option NodeId
  released : TaskId → Bool
  assignments : TaskId → ℕ
  calls : ℕ → ℕ
  snapshot : ℕ → List (TaskId × NodeId)
  moved : ℕ → TaskId → Bool
  removals : List Removal
  notices : List Notice
  returned : List Returned

inductive Actor
  | manager (m : ℕ)
  | node (n : NodeId)
deriving DecidableEq

namespace World

def readAll (w : World) (m : ℕ) : World :=
  { w with
    snapshot := Function.update w.snapshot m w.registry.items
    moved := Function.update w.moved m fun _ => false }

def remove (w : World) (m : ℕ) (tid : TaskId) : World :=
  { w with
    registry := w.registry.erase tid
    lock := Function.update w.lock tid none
    released := Function.update w.released tid true
    moved := fun i => Function.update (w.moved i) tid true
    removals := w.removals ++ [⟨tid, w.lock tid, w.registry.get? tid⟩]
    notices := w.notices ++ [⟨tid, w.assignments tid, m, w.calls m⟩] }

def take (w : World) (n : NodeId) (tid : TaskId) : World :=
  { w with lock := Function.update w.lock tid (some n) }

def assign (w : World) (n : NodeId) (tid : TaskId) : World :=
  { w with
    registry := w.registry.set tid n
    assignments := Function.update w.assignments tid (w.assignments tid + 1) }

def start (w : World) (m : ℕ) : World :=
  { w with calls := Function.update w.calls m (w.calls m + 1) }

def finish (w : World) (m value : ℕ) : World :=
  { w with returned := w.returned ++ [⟨m, w.calls m, value⟩] }

section Fields

variable (w : World) (m i : ℕ) (n : NodeId) (tid j : TaskId)

@[simp] lemma readAll_snapshot :
    (w.readAll m).snapshot i = if i = m then w.registry.items else w.snapshot i := by
  simp [readAll, Function.update_apply]

@[simp] lemma readAll_moved :
    (w.readAll m).moved i j = if i = m then false else w.moved i j := by
  by_cases h : i = m <;> simp [readAll, h]

@[simp] lemma remove_get? :
    (w.remove m tid).registry.get? j = if j = tid then none else w.registry.get? j :=
  OrderedDict.get?_erase

@[simp] lemma remove_lock : (w.remove m tid).lock j = if j = tid then none else w.lock j := by
  simp [remove, Function.update_apply]

@[simp] lemma remove_released :
    (w.remove m tid).released j = if j = tid then true else w.released j := by
  simp [remove, Function.update_apply]

@[simp] lemma remove_moved :
    (w.remove m tid).moved i j = if j = tid then true else w.moved i j := by
  simp [remove, Function.update_apply]

@[simp] lemma take_lock : (w.take n tid).lock j = if j = tid then some n else w.lock j := by
  simp [take, Function.update_apply]

@[simp] lemma assign_get? :
    (w.assign n tid).registry.get? j = if j = tid then some n else w.registry.get? j :=
  OrderedDict.get?_set

@[simp] lemma assign_assignments :
    (w.assign n tid).assignments j = if j = tid then w.assignments tid + 1 else w.assignments j := by
  simp [assign, Function.update_apply]

@[simp] lemma start_calls : (w.start m).calls i = if i = m then w.calls m + 1 else w.calls i := by
  simp [start, Function.update_apply]

end Fields

end World

def exec (a : Actor) (d : Delivery) (w : World) : (c : Command) → Option (World × Reply c)
  | .hgetall =>
    match a, d with
    | .manager m, .done => some (w.readAll m, .ok w.registry.items)
    | .manager _, _ => some (w, .error .redis)
    | .node _, _ => none
  | .pipeline message =>
    match a, d with
    | .manager m, .done => some (w.remove m message.task_id, .ok ())
    | .manager m, .unreported => some (w.remove m message.task_id, .error .redis)
    | .manager _, .lost => some (w, .error .redis)
    | .node _, _ => none
  | .setNx tid =>
    match a with
    | .node n => if w.lock tid = none then some (w.take n tid, true) else some (w, false)
    | .manager _ => none
  | .hset tid =>
    match a with
    | .node n => some (w.assign n tid, ())
    | .manager _ => none

inductive Procedure
  | performFailover
  | claim (task_id : TaskId)

def body (dead_node_id : NodeId) : Procedure → Code ℕ
  | .performFailover => performFailover dead_node_id
  | .claim task_id => claim task_id

/-- A node claims a task only after the task was released. -/
def enter (a : Actor) (p : Procedure) (w : World) : Option World :=
  match a, p with
  | .manager m, .performFailover => some (w.start m)
  | .node _, .claim tid => if w.released tid then some w else none
  | _, _ => none

def leave (a : Actor) (_ : Procedure) (x : Except Exc ℕ) (w : World) : World :=
  match a, x with
  | .manager m, .ok n => w.finish m n
  | _, _ => w

def failover (dead_node_id : NodeId) : Service Redis Actor World Procedure Delivery Empty Exc ℕ where
  body _ := body dead_node_id
  exec := exec
  enter := enter
  leave := leave
  crash _ w := some w
  environment e _ := e.elim

/-- Any registry and any locks, before the first failover. -/
def before (registry : OrderedDict TaskId NodeId) (lock : TaskId → Option NodeId) : World where
  registry := registry
  lock := lock
  released _ := false
  assignments _ := 0
  calls _ := 0
  snapshot _ := []
  moved _ _ := false
  removals := []
  notices := []
  returned := []

end OpsSentry.Cluster.Failover
