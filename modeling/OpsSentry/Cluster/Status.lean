import OpsSentry.Cluster.Heartbeat
import OpsSentry.Foundation.JsonLoads
import Mathlib.Algebra.BigOperators.Ring.Finset

/-! `get_cluster_status`: the nodes whose heartbeats are in Redis, and the heartbeats that
`HeartbeatSender` stores there with `get_node_metrics`. -/

namespace OpsSentry.Cluster.Status

open Foundation.JsonText Foundation.JsonLoads Heartbeat
open Foundation.Programs (bind_eq_ok)

/-- What the `except` clause catches. -/
inductive Exc
  | redis (message : String)
  | loads (e : LoadsError)
  | attribute
  | type
  | overflow

/-- The detail is a prefix and the text of the cause. -/
structure HTTPException where
  status_code : ℕ
  detail : String
  cause : Exc

/-- `int(time.time() * 1000)`: the clock counts nanoseconds in 64 bits. -/
structure Clock where
  ms : ℤ
  bounded : ms.natAbs < 2 ^ 63

inductive Num (F : Type)
  | int (n : ℤ)
  | float (x : Number F)

/-- The arithmetic of floats: `(now_ms - x) / 1000.0 > seconds`, and sums. -/
structure Arithmetic (F : Type) where
  older : ℤ → Number F → ℕ → Bool
  add : Num F → Num F → Except Exc (Num F)
  add_int : ∀ m n, add (.int m) (.int n) = .ok (.int (m + n))

inductive Liveness
  | active
  | suspect
  | dead
deriving DecidableEq

/-- What `GET` answers for a key that `KEYS` has listed. -/
inductive Stored
  | nothing
  | text (raw_hb : Word)
  | failure (message : String)

structure Redis where
  leader_lease : Except String (Option Word)
  keyspace : List (Word × Stored)

structure NodeStatus (F : Type) where
  id : Word
  status : Liveness
  last_seen : Json (Number F)
  metrics : Json (Number F)

structure ClusterStatus (F : Type) where
  leader_id : Option Word
  nodes : List (NodeStatus F)
  total_nodes : ℕ
  active_tasks : Num F
  redis_healthy : Bool

def hbPrefix : Word := "sentry:node:hb:".toList

section Route

variable {F : Type}

/-- `key.split(":")[-1]`. -/
def nodeId (key : Word) : Word := ((key.splitOn ':').getLast?).getD []

def zeroMetrics : Json (Number F) := .obj [(str "cpu", .int 0), (str "mem", .int 0), (str "tasks", .int 0)]

/-- `data.get(key, default)`, where only a `dict` has a `get`. -/
def get (data : Json (Number F)) (key : String) (default : Json (Number F)) : Except Exc (Json (Number F)) :=
  match data with
  | .obj kvs => .ok ((kvs.lookup (str key)).getD default)
  | _ => .error .attribute

/-- A value that can be added to a number or taken from one. -/
def toNum : Json (Number F) → Except Exc (Num F)
  | .int n => .ok (.int n)
  | .bool b => .ok (.int (if b then 1 else 0))
  | .float x => .ok (.float x)
  | _ => .error .type

def liveness (older : ℕ → Bool) : Liveness := if older 30 then .dead else if older 15 then .suspect else .active

variable {fl : Floats F} (py : Interpreter fl) (arith : Arithmetic F)

/-- The status of a node last seen then. An integer that is too large for a float cannot be divided; the
division rounds, which moves no age over a whole number of seconds. -/
def statusOf (now_ms : ℤ) : Num F → Except Exc Liveness
  | .int last_seen =>
    let diff := now_ms - last_seen
    if diff.natAbs < 2 ^ 1024 - 2 ^ 970 then .ok (liveness fun seconds => seconds * 1000 < diff) else .error .overflow
  | .float last_seen => .ok (liveness (arith.older now_ms last_seen))

def readHeartbeat (now_ms : ℤ) (key raw_hb : Word) : Except Exc (NodeStatus F × Num F) := do
  let hb_data ← (py.loads raw_hb).mapError .loads
  let last_seen ← get hb_data "ts" (.int 0)
  let status ← statusOf arith now_ms (← toNum last_seen)
  let metrics ← get hb_data "metrics" zeroMetrics
  let tasks ← toNum (← get metrics "tasks" (.int 0))
  pure (⟨nodeId key, status, last_seen, metrics⟩, tasks)

/-- The body of the loop up to the sum; `none` where it continues. -/
def readNode (now_ms : ℤ) (key : Word) : Stored → Except Exc (Option (NodeStatus F × Num F))
  | .nothing => .ok none
  | .failure message => .error (.redis message)
  | .text raw_hb => if raw_hb = [] then .ok none else (readHeartbeat py arith now_ms key raw_hb).map some

def collect (now_ms : ℤ) (nodes : List (NodeStatus F)) (total_tasks : Num F) :
    List (Word × Stored) → Except Exc (List (NodeStatus F) × Num F)
  | [] => .ok (nodes, total_tasks)
  | (key, stored) :: node_keys => do
    match ← readNode py arith now_ms key stored with
    | none => collect now_ms nodes total_tasks node_keys
    | some (node, tasks) => do
      let total_tasks ← arith.add total_tasks tasks
      collect now_ms (nodes ++ [node]) total_tasks node_keys

def aggregate (redis : Redis) (now_ms : ℤ) : Except Exc (ClusterStatus F) := do
  let leader_lease ← redis.leader_lease.mapError .redis
  let node_keys := redis.keyspace.filter fun e => hbPrefix.isPrefixOf e.1
  let (nodes, total_tasks) ← collect py arith now_ms [] (.int 0) node_keys
  pure ⟨leader_lease, nodes, nodes.length, total_tasks, true⟩

def standalone (node_id : Option Word) (now_ms : ℤ) : ClusterStatus F where
  leader_id := some "standalone".toList
  nodes := [⟨node_id.getD "default-node".toList, .active, .int now_ms, zeroMetrics⟩]
  total_nodes := 1
  active_tasks := .int 0
  redis_healthy := false

/-- `GET /cluster/status`, with the environment's `OPSSENTRY_NODE_ID`. -/
def getClusterStatus (redis : Option Redis) (node_id : Option Word) (now_ms : ℤ) : Except HTTPException (ClusterStatus F) :=
  match redis with
  | none => .ok (standalone node_id now_ms)
  | some redis => (aggregate py arith redis now_ms).mapError fun e => ⟨500, "Cluster status fetch failed: ", e⟩

end Route

section Nodes

variable {F : Type}

/-- A node whose heartbeat was stored: `json.dumps` takes no longer number of tasks. -/
structure Node (F : Type) where
  node_id : String
  nonempty : node_id ≠ ""
  secret : String
  sent : Clock
  cpu : F
  mem : F
  tasks : ℕ
  disk : F
  short : Short tasks

namespace Node

def metrics (n : Node F) : Json F :=
  .obj [(str "cpu", .float n.cpu), (str "mem", .float n.mem), (str "tasks", .int n.tasks), (str "disk", .float n.disk)]

/-- The key and the text that `HeartbeatSender` stores. -/
def entry (fl : Floats F) (mac : Hmac) (n : Node F) : Word × Stored :=
  (hbPrefix ++ n.node_id.toList, .text (sendHeartbeat fl mac n.secret (str n.node_id) n.sent.ms n.metrics))

/-- The status that the age of the last heartbeat calls for. -/
def expected (now : Clock) (n : Node F) : Liveness :=
  let age := now.ms - n.sent.ms
  if age ≤ 15000 then .active else if age ≤ 30000 then .suspect else .dead

end Node

end Nodes

section Keys

variable {key xs ys : Word}

lemma nodeId_append (h : ':' ∉ ys) : nodeId (xs ++ ':' :: ys) = ys := by
  rw [nodeId, List.splitOn_append_cons_self, List.splitOn_eq_singleton h, List.getLast?_append]
  rfl

lemma colon_notMem_nodeId (key : Word) : ':' ∉ nodeId key := by
  by_cases h : ':' ∈ key
  · obtain ⟨post, pre, hkey, hpost⟩ := List.eq_append_cons_of_mem (List.mem_reverse.mpr h)
    have hsplit : key = pre.reverse ++ ':' :: post.reverse := by
      rw [← List.reverse_reverse key, hkey]
      simp
    have hnot : ':' ∉ post.reverse := fun hmem => hpost (List.mem_reverse.mp hmem)
    rw [hsplit, nodeId_append hnot]
    exact hnot
  · rw [nodeId, List.splitOn_eq_singleton h]
    exact h

lemma nodeId_key (h : ':' ∉ xs) : nodeId (hbPrefix ++ xs) = xs := by
  have hkey : hbPrefix ++ xs = "sentry:node:hb".toList ++ ':' :: xs := rfl
  rw [hkey, nodeId_append h]

end Keys

section Read

variable {F : Type} {fl : Floats F} {py : Interpreter fl} {arith : Arithmetic F} {mac : Hmac} {now : Clock}
  {n : Node F}

lemma Clock.short (t : Clock) : Short t.ms := by
  have hbound := t.bounded
  rw [Short, Nat.length_toDigits_le_iff (by decide) (by decide)]
  have hten : 2 ^ 63 < 10 ^ 20 := by decide
  exact hbound.trans (hten.trans_le (Nat.pow_le_pow_right (by decide) (by decide)))

lemma readable_heartbeat (mac : Hmac) (n : Node F) : Readable ValidStr py.limit
    (.obj (signed fl mac n.secret (payload (str n.node_id) n.sent.ms n.metrics))) := by
  obtain ⟨room, hroom⟩ : ∃ room, py.limit = room + 2 := ⟨py.limit - 2, by have := py.room; omega⟩
  have hkeys : ((signed fl mac n.secret (payload (str n.node_id) n.sent.ms n.metrics)).map Prod.fst).Nodup := by
    simp only [signed, payload, List.map_append, List.map_cons, List.map_nil]
    decide
  have hmetrics : Readable ValidStr (room + 1) n.metrics := by
    rw [Node.metrics, Readable]
    refine ⟨by simp only [List.map_cons, List.map_nil]; decide, ?_⟩
    simp only [ReadableFields, Readable]
    exact ⟨⟨valid_str _, trivial⟩, ⟨valid_str _, trivial⟩, ⟨valid_str _, n.short⟩, ⟨valid_str _, trivial⟩, trivial⟩
  rw [hroom, Readable]
  refine ⟨hkeys, ?_⟩
  simp only [signed, payload, List.cons_append, List.nil_append, ReadableFields]
  refine ⟨⟨valid_str _, ?_⟩, ⟨valid_str _, ?_⟩, ⟨valid_str _, ?_⟩, ⟨valid_str _, hmetrics⟩, ⟨valid_str _, ?_⟩, trivial⟩
  · simpa only [Readable] using valid_str n.node_id
  · simpa only [Readable] using n.sent.short
  · simpa only [Readable] using valid_str "ACTIVE"
  · simpa only [Readable] using valid_str _

lemma statusOf_expected (now : Clock) (n : Node F) :
    statusOf arith now.ms (.int n.sent.ms) = .ok (n.expected now) := by
  have hnow := now.bounded
  have hsent := n.sent.bounded
  have hlarge : 2 ^ 64 ≤ 2 ^ 1024 - 2 ^ 970 := by decide +kernel
  have hdiff : (now.ms - n.sent.ms).natAbs < 2 ^ 1024 - 2 ^ 970 := by
    refine lt_of_lt_of_le ?_ hlarge
    omega
  simp only [statusOf]
  rw [if_pos hdiff]
  congr 1
  simp only [liveness, Node.expected, decide_eq_true_eq]
  split_ifs <;> first | rfl | omega

lemma readHeartbeat_of {now_ms ts : ℤ} {key raw_hb : Word} {kvs lws : List (Str × Json (Number F))}
    {status : Liveness}
    {tasks : ℤ} (hloads : py.loads raw_hb = .ok (.obj kvs)) (hts : kvs.lookup (str "ts") = some (.int ts))
    (hstatus : statusOf arith now_ms (.int ts) = .ok status) (hmetrics : kvs.lookup (str "metrics") = some (.obj lws))
    (htasks : lws.lookup (str "tasks") = some (.int tasks)) :
    readHeartbeat py arith now_ms key raw_hb = .ok (⟨nodeId key, status, .int ts, .obj lws⟩, .int tasks) := by
  simp only [readHeartbeat, hloads, Except.mapError, get, hts, hmetrics, htasks, Option.getD_some, toNum, bind,
    Except.bind, hstatus]
  rfl

lemma readNode_entry (now : Clock) (n : Node F) :
    readNode py arith now.ms (n.entry fl mac).1 (n.entry fl mac).2 =
    .ok (some (⟨nodeId (n.entry fl mac).1, n.expected now, .int n.sent.ms, lift n.metrics⟩, .int n.tasks)) := by
  have hloads := loads_dumps py (@readable_heartbeat F fl py mac n)
  rw [← sendHeartbeat_eq] at hloads
  have hne : sendHeartbeat fl mac n.secret (str n.node_id) n.sent.ms n.metrics ≠ [] := by
    rw [sendHeartbeat_eq]
    exact List.cons_ne_nil _ _
  have hread : readHeartbeat py arith now.ms (n.entry fl mac).1 _ = _ :=
    readHeartbeat_of hloads rfl (statusOf_expected now n) rfl rfl
  rw [Node.entry, readNode, if_neg hne]
  exact congrArg (Except.map some) hread

end Read

section Loop

variable {F : Type} {fl : Floats F} {py : Interpreter fl} {arith : Arithmetic F} {now_ms : ℤ}
  {nodes : List (NodeStatus F)} {total : Num F} {keys : List (Word × Stored)}

/-- The node that a key shows and its tasks, where they are a whole number. -/
def shown (py : Interpreter fl) (arith : Arithmetic F) (now_ms : ℤ) (e : Word × Stored) : Option (NodeStatus F × ℤ) :=
  match readNode py arith now_ms e.1 e.2 with
  | .ok (some (node, .int tasks)) => some (node, tasks)
  | _ => none

lemma collect_of_shown {total : ℤ} (h : ∀ e ∈ keys, readNode py arith now_ms e.1 e.2 =
      .ok ((shown py arith now_ms e).map fun x => (x.1, .int x.2))) :
    collect py arith now_ms nodes (.int total) keys =
      .ok (nodes ++ (keys.filterMap (shown py arith now_ms)).map Prod.fst,
        .int (total + ((keys.filterMap (shown py arith now_ms)).map Prod.snd).sum)) := by
  induction keys generalizing nodes total with
  | nil => simp [collect]
  | cons e keys ih =>
    have hkeys := fun e he => h e (List.mem_cons_of_mem _ he)
    have he := h e List.mem_cons_self
    rw [collect, he]
    cases hs : shown py arith now_ms e with
    | none =>
      rw [List.filterMap_cons_none hs]
      exact ih hkeys
    | some x =>
      rw [List.filterMap_cons_some hs]
      change (arith.add (.int total) (.int x.2) >>= fun total => collect py arith now_ms (nodes ++ [x.1]) total keys) = _
      rw [arith.add_int]
      change collect py arith now_ms (nodes ++ [x.1]) (.int (total + x.2)) keys = _
      rw [ih hkeys]
      simp [add_assoc]

lemma id_of_readNode {key : Word} {stored : Stored} {x : NodeStatus F × Num F}
    (h : readNode py arith now_ms key stored = .ok (some x)) : x.1.id = nodeId key := by
  cases stored with
  | nothing => cases h
  | failure message => cases h
  | text raw_hb =>
    rw [readNode] at h
    split at h
    · cases h
    · cases hread : readHeartbeat py arith now_ms key raw_hb with
      | error e =>
        rw [hread] at h
        cases h
      | ok y =>
        rw [hread] at h
        cases h
        obtain ⟨hb_data, -, hread⟩ := bind_eq_ok hread
        obtain ⟨last_seen, -, hread⟩ := bind_eq_ok hread
        obtain ⟨seen, -, hread⟩ := bind_eq_ok hread
        obtain ⟨status, -, hread⟩ := bind_eq_ok hread
        obtain ⟨metrics, -, hread⟩ := bind_eq_ok hread
        obtain ⟨found, -, hread⟩ := bind_eq_ok hread
        obtain ⟨tasks, -, hread⟩ := bind_eq_ok hread
        cases hread
        rfl

lemma collect_cons {e : Word × Stored} {result : List (NodeStatus F) × Num F}
    (h : collect py arith now_ms nodes total (e :: keys) = .ok result) :
    ∃ x total', readNode py arith now_ms e.1 e.2 = .ok x ∧
      collect py arith now_ms (nodes ++ (x.map Prod.fst).toList) total' keys = .ok result := by
  obtain ⟨x, hx, h⟩ := bind_eq_ok h
  cases x with
  | none => exact ⟨none, total, hx, by simpa using h⟩
  | some x =>
    obtain ⟨total', -, h⟩ := bind_eq_ok h
    exact ⟨some x, total', hx, h⟩

/-- An answer means that every key was read, and it names nodes by the last part of a key. -/
lemma collect_ok {result : List (NodeStatus F) × Num F}
    (h : collect py arith now_ms nodes total keys = .ok result) :
    (∀ e ∈ keys, ∃ x, readNode py arith now_ms e.1 e.2 = .ok x) ∧
      ∀ node ∈ result.1, node ∈ nodes ∨ ∃ key, node.id = nodeId key := by
  induction keys generalizing nodes total with
  | nil =>
    cases h
    exact ⟨List.forall_mem_nil _, fun node hnode => Or.inl hnode⟩
  | cons e keys ih =>
    obtain ⟨x, total', hx, hrest⟩ := collect_cons h
    obtain ⟨hreads, hids⟩ := ih hrest
    refine ⟨List.forall_mem_cons.mpr ⟨⟨x, hx⟩, hreads⟩, fun node hnode => ?_⟩
    rcases hids node hnode with hmem | hkey
    · rcases List.mem_append.mp hmem with hmem | hmem
      · exact Or.inl hmem
      · cases x with
        | none => cases hmem
        | some x =>
          obtain rfl : node = x.1 := by simpa using hmem
          exact Or.inr ⟨e.1, id_of_readNode hx⟩
    · exact Or.inr hkey

end Loop

section Mirror

/-- The nodes and their heartbeats in Redis, in the order that `KEYS` gives, among other keys: an expired
heartbeat, or one that is none and cannot be read. -/
structure Scene {F : Type} {fl : Floats F} (py : Interpreter fl) (arith : Arithmetic F) (mac : Hmac) where
  now : Clock
  nodes : List (Node F)
  distinct : (nodes.map Node.node_id).Nodup
  others : List (Word × Stored)
  unread : ∀ e ∈ others, hbPrefix <+: e.1 → ∀ x, readNode py arith now.ms e.1 e.2 ≠ .ok (some x)
  leader_lease : Option Word
  keyspace : List (Word × Stored)
  listed : keyspace.Perm (nodes.map (Node.entry fl mac) ++ others)
  keys : (keyspace.map Prod.fst).Nodup

variable {F : Type} {fl : Floats F} {py : Interpreter fl} {arith : Arithmetic F} {mac : Hmac}

namespace Scene

variable (s : Scene py arith mac)

def redis : Redis := ⟨.ok s.leader_lease, s.keyspace⟩

def answer (node_id : Option Word) : Except HTTPException (ClusterStatus F) :=
  getClusterStatus py arith (some s.redis) node_id s.now.ms

/-- Each node once with its status, and the sum of their tasks. -/
def MirroredBy (answer : Except HTTPException (ClusterStatus F)) : Prop :=
  ∃ status, answer = .ok status ∧
    (status.nodes.map fun n => (n.id, n.status)).Perm (s.nodes.map fun n => (n.node_id.toList, n.expected s.now)) ∧
    status.active_tasks = .int ((s.nodes.map Node.tasks).sum : ℕ)

/-- No node id has a colon, and no other key of a heartbeat holds anything. -/
def Plain : Prop :=
  (∀ n ∈ s.nodes, ':' ∉ n.node_id.toList) ∧
    ∀ e ∈ s.others, hbPrefix <+: e.1 → e.2 = .nothing ∨ e.2 = .text []

def nodeKeys : List (Word × Stored) := s.keyspace.filter fun e => hbPrefix.isPrefixOf e.1

variable {s} {node_id : Option Word}

lemma nodeKeys_perm : s.nodeKeys.Perm (s.nodes.map (Node.entry fl mac) ++
    s.others.filter fun e => hbPrefix.isPrefixOf e.1) := by
  have hnodes : (s.nodes.map (Node.entry fl mac)).filter (fun e => hbPrefix.isPrefixOf e.1) =
      s.nodes.map (Node.entry fl mac) := by
    apply List.filter_eq_self.mpr
    intro e he
    obtain ⟨n, -, rfl⟩ := List.mem_map.mp he
    exact List.isPrefixOf_iff_prefix.mpr (List.prefix_append _ _)
  have hperm := s.listed.filter fun e => hbPrefix.isPrefixOf e.1
  rwa [List.filter_append, hnodes] at hperm

lemma mem_nodeKeys_iff {e : Word × Stored} :
    e ∈ s.nodeKeys ↔ (∃ n ∈ s.nodes, n.entry fl mac = e) ∨ e ∈ s.others ∧ hbPrefix <+: e.1 := by
  rw [nodeKeys_perm.mem_iff, List.mem_append, List.mem_map, List.mem_filter, List.isPrefixOf_iff_prefix]

lemma answer_eq : s.answer node_id = ((collect py arith s.now.ms [] (.int 0) s.nodeKeys).map fun r =>
    (⟨s.leader_lease, r.1, r.1.length, r.2, true⟩ : ClusterStatus F)).mapError
      fun e => ⟨500, "Cluster status fetch failed: ", e⟩ := by
  change (collect py arith s.now.ms [] (.int 0) s.nodeKeys >>= fun r => _).mapError _ = _
  cases collect py arith s.now.ms [] (.int 0) s.nodeKeys <;> rfl

lemma collect_of_answer {status : ClusterStatus F} (h : s.answer node_id = .ok status) :
    collect py arith s.now.ms [] (.int 0) s.nodeKeys = .ok (status.nodes, status.active_tasks) := by
  rw [answer_eq] at h
  cases hcollect : collect py arith s.now.ms [] (.int 0) s.nodeKeys with
  | error e =>
    rw [hcollect] at h
    cases h
  | ok r =>
    rw [hcollect] at h
    cases h
    rfl

/-- What the answer says of a node. -/
def line (n : Node F) : NodeStatus F × ℤ :=
  (⟨nodeId (n.entry fl mac).1, n.expected s.now, .int n.sent.ms, lift n.metrics⟩, n.tasks)

lemma shown_entry (n : Node F) : shown py arith s.now.ms (n.entry fl mac) = some (s.line n) := by
  rw [shown, readNode_entry]
  rfl

lemma readNode_eq_none_iff {key : Word} {stored : Stored} :
    readNode py arith s.now.ms key stored = .ok none ↔
    stored = .nothing ∨ stored = .text [] := by
  cases stored with
  | nothing => simp [readNode]
  | failure message => simp [readNode]
  | text raw_hb =>
    rw [readNode]
    split
    · rename_i hempty
      simp [hempty]
    · rename_i hne
      cases readHeartbeat py arith s.now.ms key raw_hb <;> simp [Except.map, hne]

lemma reads_of_plain (h : s.Plain) : ∀ e ∈ s.nodeKeys, readNode py arith s.now.ms e.1 e.2 =
    .ok ((shown py arith s.now.ms e).map fun x => (x.1, .int x.2)) := by
  intro e he
  rcases mem_nodeKeys_iff.mp he with ⟨n, -, rfl⟩ | ⟨hother, hstarts⟩
  · rw [shown_entry, readNode_entry]
    rfl
  · have hnone : readNode py arith s.now.ms e.1 e.2 = .ok none := readNode_eq_none_iff.mpr (h.2 e hother hstarts)
    rw [shown, hnone]
    rfl

lemma filterMap_nodeKeys (h : s.Plain) :
    (s.nodeKeys.filterMap (shown py arith s.now.ms)).Perm (s.nodes.map s.line) := by
  refine (nodeKeys_perm.filterMap _).trans ?_
  have hnodes : (s.nodes.map (Node.entry fl mac)).filterMap (shown py arith s.now.ms) = s.nodes.map s.line := by
    rw [List.filterMap_map, ← List.filterMap_eq_map]
    exact List.filterMap_congr fun n _ => shown_entry n
  have hothers : (s.others.filter fun e => hbPrefix.isPrefixOf e.1).filterMap (shown py arith s.now.ms) = [] := by
    apply List.filterMap_eq_nil_iff.mpr
    intro e he
    obtain ⟨hother, hstarts⟩ := List.mem_filter.mp he
    have hnone : readNode py arith s.now.ms e.1 e.2 = .ok none :=
      readNode_eq_none_iff.mpr (h.2 e hother (List.isPrefixOf_iff_prefix.mp hstarts))
    rw [shown, hnone]
  rw [List.filterMap_append, hnodes, hothers, List.append_nil]

lemma mirroredBy_of_plain (h : s.Plain) : s.MirroredBy (s.answer node_id) := by
  have hcollect := @collect_of_shown F fl py arith s.now.ms [] s.nodeKeys 0 (reads_of_plain h)
  have hperm := filterMap_nodeKeys h
  refine ⟨_, by rw [answer_eq, hcollect]; rfl, ?_, ?_⟩
  · have hids := (hperm.map Prod.fst).map fun n => (n.id, n.status)
    rw [List.map_map, List.map_map, List.map_map] at hids
    refine (List.Perm.of_eq ?_).trans (hids.trans (List.Perm.of_eq ?_))
    · simp
    · apply List.map_congr_left
      intro n hn
      exact congrArg (·, n.expected s.now) (nodeId_key (h.1 n hn))
  · have hsum := (hperm.map Prod.snd).sum_eq
    rw [List.map_map] at hsum
    change Num.int (0 + _) = _
    rw [hsum, zero_add, Nat.cast_list_sum, List.map_map]
    rfl

lemma plain_of_mirroredBy (h : s.MirroredBy (s.answer node_id)) : s.Plain := by
  obtain ⟨status, hanswer, hids, -⟩ := h
  obtain ⟨hreads, hnames⟩ := collect_ok (collect_of_answer hanswer)
  constructor
  · intro n hn
    have hmem := hids.mem_iff.mpr (List.mem_map_of_mem hn)
    obtain ⟨node, hnode, heq⟩ := List.mem_map.mp hmem
    have hid : node.id = n.node_id.toList := congrArg Prod.fst heq
    rw [← hid]
    rcases hnames node hnode with hnil | ⟨key, hkey⟩
    · cases hnil
    · rw [hkey]
      exact colon_notMem_nodeId key
  · intro e he hstarts
    obtain ⟨x, hx⟩ := hreads e (mem_nodeKeys_iff.mpr (Or.inr ⟨he, hstarts⟩))
    cases x with
    | none => exact readNode_eq_none_iff.mp hx
    | some x => exact (s.unread e he hstarts x hx).elim

end Scene

theorem status_mirrors_iff (s : Scene py arith mac) (node_id : Option Word) :
    s.MirroredBy (s.answer node_id) ↔ s.Plain :=
  ⟨Scene.plain_of_mirroredBy, Scene.mirroredBy_of_plain⟩

end Mirror

section Sample

/-- Sums of whole numbers; of floats, the number that is not one. -/
def wholeNumbers : Arithmetic Unit where
  older _ _ _ := false
  add
    | .int m, .int n => .ok (.int (m + n))
    | _, _ => .ok (.float .nan)
  add_int _ _ := rfl

def portNode : Node Unit where
  node_id := "10.0.0.1:8000"
  nonempty := by decide
  secret := "secret"
  sent := ⟨1700000000000, by decide⟩
  cpu := ()
  mem := ()
  tasks := 3
  disk := ()
  short := by decide

/-- One node, one second after its heartbeat. -/
def portScene : Scene halvesInterpreter wholeNumbers sampleHmac where
  now := ⟨1700000001000, by decide⟩
  nodes := [portNode]
  distinct := List.nodup_singleton _
  others := []
  unread := List.forall_mem_nil _
  leader_lease := none
  keyspace := [portNode.entry halves sampleHmac]
  listed := List.Perm.refl _
  keys := List.nodup_singleton _

/-- The node is not listed under its own id. -/
theorem port_node_misnamed : ¬ portScene.MirroredBy (portScene.answer none) := by
  intro h
  have hplain := (Scene.plain_of_mirroredBy h).1 portNode List.mem_cons_self
  exact hplain (by decide)

end Sample

end OpsSentry.Cluster.Status
