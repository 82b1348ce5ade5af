import OpsSentry.Cluster.Status
import OpsSentry.Foundation.Runs

/-! `HeartbeatSender._run_loop` on the nodes of a cluster, against the one clock that they,
Redis and the reader have: when `get_cluster_status` shows a node that runs as one that does not, and how long it
shows one that has halted. -/

namespace OpsSentry.Cluster.FailureDetector

open Foundation.JsonText Foundation.JsonLoads Foundation.Runs Heartbeat Status

/-- `time.time()`: nanoseconds in 64 bits. -/
@[ext] structure Instant where
  ns : ℕ
  bounded : ns < 2 ^ 63

namespace Instant

def clock (t : Instant) : Clock := ⟨(t.ns / 1000000 : ℕ), by have := t.bounded; omega⟩

def after (t : Instant) (d : ℕ) : Option Instant := if h : t.ns + d < 2 ^ 63 then some ⟨t.ns + d, h⟩ else none

end Instant

/-- `get_node_metrics`. -/
structure Load (F : Type) where
  cpu : F
  mem : F
  tasks : ℕ
  disk : F
  short : Short tasks

structure Beat (F : Type) where
  stamp : Instant
  load : Load F

/-- The thread is not alive, in `_send_heartbeat` before or after the `SET`, or in `_stop_event.wait`. -/
inductive Phase (F : Type)
  | down
  | sending (beat : Beat F)
  | sent (stamp : ℕ)
  | waiting (since : ℕ)

/-- What Redis keeps under a node's key, until it expires. -/
structure Record (F : Type) where
  beat : Beat F
  expires : ℕ

/-- The thread and the key of a node. When the thread was started, how many heartbeats in a row have failed and
the last one that has not are kept for the sake of the statements. -/
structure Sender (F : Type) where
  phase : Phase F
  started : ℕ
  misses : ℕ
  beaten : Option ℕ
  record : Option (Record F)

inductive Action (F : Type)
  | start (load : Load F)
  | store
  | miss
  | reply
  | wake (load : Load F)
  | halt

/-- `px=45000`. -/
def px : ℕ := 45000 * 1000000

namespace Sender

variable {F : Type}

def idle : Sender F := ⟨.down, 0, 0, none, none⟩

def isAlive (x : Sender F) : Bool :=
  match x.phase with
  | .down => false
  | _ => true

/-- A heartbeat that fails is logged, and the thread waits as after one that does not. It ends while it waits
when it is stopped, and anywhere when the process dies. -/
def act (interval : ℕ) (now : Instant) (x : Sender F) (a : Action F) : Option (Sender F) :=
  match x.phase, a with
  | .down, .start load => some { x with phase := .sending ⟨now, load⟩, started := now.ns, misses := 0, beaten := none }
  | .sending beat, .store => some { x with
      phase := .sent beat.stamp.ns, misses := 0, beaten := some beat.stamp.ns, record := some ⟨beat, now.ns + px⟩ }
  | .sending _, .miss => some { x with phase := .waiting now.ns, misses := x.misses + 1 }
  | .sent _, .reply => some { x with phase := .waiting now.ns }
  | .waiting since, .wake load =>
    if since + interval ≤ now.ns then some { x with phase := .sending ⟨now, load⟩ } else none
  | .sending _, .halt | .sent _, .halt | .waiting _, .halt => some { x with phase := .down }
  | _, _ => none

end Sender

structure State (ι F : Type) where
  clock : Instant
  senders : ι → Sender F

inductive Label (ι F : Type)
  | pass (d : ℕ)
  | act (i : ι) (a : Action F)

section Steps

variable {ι F : Type}

def initial (clock : Instant) : State ι F := ⟨clock, fun _ => .idle⟩

def step [DecidableEq ι] (interval : ℕ) (s : State ι F) : Label ι F → Option (State ι F)
  | .pass d => (s.clock.after d).map fun clock => { s with clock }
  | .act i a => ((s.senders i).act interval s.clock a).map fun x => { s with senders := Function.update s.senders i x }

/-- What `GET` finds under the key of a node. -/
def State.heartbeat (s : State ι F) (i : ι) : Option (Beat F) :=
  (s.senders i).record.bind fun r => if s.clock.ns < r.expires then some r.beat else none

def halts [DecidableEq ι] (i : ι) : Label ι F → Bool
  | .act j .halt => j = i
  | _ => false

def starts [DecidableEq ι] (i : ι) : Label ι F → Bool
  | .act j (.start _) => j = i
  | _ => false

end Steps

/-- The nanoseconds between two heartbeats, those that one takes at most, and those by which the thread wakes up
late; and how many heartbeats in a row may fail. -/
structure Timing where
  interval : ℕ
  send : ℕ
  wake : ℕ
  misses : ℕ

namespace Timing

variable (t : Timing)

def cycle : ℕ := t.send + t.interval + t.wake

/-- The age that a heartbeat reaches before the next one replaces it. -/
def gap : ℕ := t.misses * t.cycle + t.cycle + t.send

def InTime {F : Type} (clock : ℕ) : Phase F → Prop
  | .down => True
  | .sending beat => clock ≤ beat.stamp.ns + t.send
  | .sent stamp => clock ≤ stamp + t.send
  | .waiting since => clock ≤ since + t.interval + t.wake

def Keeps {ι F : Type} (s : State ι F) : Label ι F → Prop
  | .pass d => ∀ i, t.InTime (s.clock.ns + d) (s.senders i).phase
  | .act i .miss => (s.senders i).misses < t.misses
  | .act _ _ => True

instance {F : Type} (clock : ℕ) : (phase : Phase F) → Decidable (t.InTime clock phase)
  | .down => isTrue trivial
  | .sending _ | .sent _ | .waiting _ => inferInstanceAs (Decidable (_ ≤ _))

instance {ι F : Type} [Fintype ι] (s : State ι F) : (l : Label ι F) → Decidable (t.Keeps s l)
  | .pass _ => inferInstanceAs (Decidable (∀ _, _))
  | .act _ .miss => inferInstanceAs (Decidable (_ < _))
  | .act _ (.start _) | .act _ .store | .act _ .reply | .act _ (.wake _) | .act _ .halt => isTrue trivial

/-- The verdicts on a node that runs. -/
def Allows : Option Liveness → Prop
  | some .active => True
  | some .suspect => 15000 * 1000000 < t.gap
  | some .dead => 30000 * 1000000 < t.gap
  | none => px ≤ t.gap

end Timing

/-- The configuration of the nodes. -/
structure Members (ι : Type) where
  node_id : ι → String
  nonempty : ∀ i, node_id i ≠ ""
  distinct : Function.Injective node_id
  plain : ∀ i, ':' ∉ (node_id i).toList
  secret : ι → String

namespace Members

variable {ι F : Type} (members : Members ι)

def node (i : ι) (beat : Beat F) : Node F where
  node_id := members.node_id i
  nonempty := members.nonempty i
  secret := members.secret i
  sent := beat.stamp.clock
  cpu := beat.load.cpu
  mem := beat.load.mem
  tasks := beat.load.tasks
  disk := beat.load.disk
  short := beat.load.short

def key (i : ι) : Word := hbPrefix ++ (members.node_id i).toList

def stored (fl : Floats F) (mac : Hmac) (i : ι) : Option (Beat F) → Stored
  | some beat => ((members.node i beat).entry fl mac).2
  | none => .nothing

end Members

/-- `get_cluster_status` from the state where `KEYS` is answered: what happens until it reads the clock, and from
there until each `GET`. -/
structure Poll {ι F : Type} [DecidableEq ι] (interval : ℕ) (s : State ι F) where
  listed : List ι
  nodup : listed.Nodup
  mem_listed : ∀ i, i ∈ listed ↔ (s.heartbeat i).isSome = true
  before : List (Label ι F)
  now : State ι F
  reads : run (step interval) s before = some now
  between : ι → List (Label ι F)
  got : ι → State ι F
  gets : ∀ i, run (step interval) now (between i) = some (got i)

namespace Poll

section Answer

variable {ι F : Type} [DecidableEq ι] {interval : ℕ} {s : State ι F} (p : Poll interval s) {fl : Floats F}
  (py : Interpreter fl) (arith : Arithmetic F) (mac : Hmac) (members : Members ι) (leader : Option Word)

def keyspace (fl : Floats F) : List (Word × Stored) :=
  p.listed.map fun i => (members.key i, members.stored fl mac i ((p.got i).heartbeat i))

def answer : Except HTTPException (ClusterStatus F) :=
  getClusterStatus py arith (some ⟨.ok leader, p.keyspace mac members fl⟩) none p.now.clock.clock.ms

end Answer

end Poll

/-- The status that an answer gives to a node. -/
def verdict {F : Type} (answer : Except HTTPException (ClusterStatus F)) (id : Word) : Option Liveness :=
  match answer with
  | .ok status => (status.nodes.map fun n => (n.id, n.status)).lookup id
  | .error _ => none

section Verdicts

variable {ι F : Type} {members : Members ι} {fl : Floats F} {mac : Hmac} {i : ι}

lemma Members.key_injective : Function.Injective members.key := by
  intro i j h
  exact members.distinct (String.toList_inj.mp (List.append_cancel_left h))

lemma expected_eq (members : Members ι) (i : ι) (beat : Beat F) (now : Instant) :
    (members.node i beat).expected now.clock =
      if now.ns / 1000000 ≤ beat.stamp.ns / 1000000 + 15000 then .active
      else if now.ns / 1000000 ≤ beat.stamp.ns / 1000000 + 30000 then .suspect else .dead := by
  change (if ((now.ns / 1000000 : ℕ) : ℤ) - ((beat.stamp.ns / 1000000 : ℕ) : ℤ) ≤ 15000 then _
    else if ((now.ns / 1000000 : ℕ) : ℤ) - ((beat.stamp.ns / 1000000 : ℕ) : ℤ) ≤ 30000 then _ else _) = _
  split_ifs <;> first | rfl | omega

/-- The keys that still hold a heartbeat, and those that have expired since they were listed. -/
lemma entries_perm (listed : List ι) (beats : ι → Option (Beat F)) :
    (listed.map fun i => (members.key i, members.stored fl mac i (beats i))).Perm
      ((listed.filterMap fun i => (beats i).map (members.node i)).map (Node.entry fl mac) ++
        (listed.filter fun i => (beats i).isNone).map fun i => (members.key i, .nothing)) := by
  induction listed with
  | nil => exact List.Perm.refl _
  | cons i listed ih =>
    cases hbeat : beats i with
    | none =>
      rw [List.filterMap_cons_none (by rw [hbeat]; rfl), List.filter_cons_of_pos (by rw [hbeat]; rfl), List.map_cons,
        List.map_cons, hbeat]
      exact (ih.cons _).trans List.perm_middle.symm
    | some beat =>
      rw [List.filterMap_cons_some (by rw [hbeat]; rfl), List.filter_cons_of_neg (by rw [hbeat]; simp), List.map_cons,
        List.map_cons, hbeat]
      exact ih.cons _

namespace Poll

variable [DecidableEq ι] {interval : ℕ} {s : State ι F} {p : Poll interval s} {py : Interpreter fl}
  {arith : Arithmetic F} {leader : Option Word}

def present (p : Poll interval s) (members : Members ι) : List (Node F) :=
  p.listed.filterMap fun i => ((p.got i).heartbeat i).map (members.node i)

lemma mem_present_iff {n : Node F} : n ∈ p.present members ↔
    ∃ i ∈ p.listed, ∃ beat, (p.got i).heartbeat i = some beat ∧ members.node i beat = n := by
  simp [present, List.mem_filterMap, Option.map_eq_some_iff]

lemma present_distinct : ((p.present members).map Node.node_id).Nodup := by
  rw [present, List.map_filterMap]
  refine List.Nodup.filterMap ?_ p.nodup
  intro i j id hi hj
  simp only [Option.map_map, Option.mem_def, Option.map_eq_some_iff] at hi hj
  obtain ⟨beat, -, hi⟩ := hi
  obtain ⟨beat', -, hj⟩ := hj
  exact members.distinct (hi.trans hj.symm)

def scene (p : Poll interval s) (py : Interpreter fl) (arith : Arithmetic F) (mac : Hmac) (members : Members ι)
    (leader : Option Word) : Scene py arith mac where
  now := p.now.clock.clock
  nodes := p.present members
  distinct := present_distinct
  others := (p.listed.filter fun i => ((p.got i).heartbeat i).isNone).map fun i => (members.key i, .nothing)
  unread := by
    intro e he _ x
    obtain ⟨i, -, rfl⟩ := List.mem_map.mp he
    rw [readNode]
    exact fun h => nomatch h
  leader_lease := leader
  keyspace := p.keyspace mac members fl
  listed := entries_perm p.listed fun i => (p.got i).heartbeat i
  keys := by
    rw [keyspace, List.map_map]
    exact p.nodup.map Members.key_injective

lemma scene_plain : (p.scene py arith mac members leader).Plain := by
  constructor
  · intro n hn
    obtain ⟨i, -, beat, -, rfl⟩ := mem_present_iff.mp hn
    exact members.plain i
  · intro e he _
    obtain ⟨i, -, rfl⟩ := List.mem_map.mp he
    exact Or.inl rfl

lemma verdict_eq_some_iff {v : Liveness} :
    verdict (p.answer py arith mac members leader) (members.node_id i).toList = some v ↔
    i ∈ p.listed ∧ ∃ beat, (p.got i).heartbeat i = some beat ∧
      (members.node i beat).expected p.now.clock.clock = v := by
  obtain ⟨status, hanswer, hperm, -⟩ := @Scene.mirroredBy_of_plain F fl py arith mac
    (p.scene py arith mac members leader) none scene_plain
  have hids : ((status.nodes.map fun n => (n.id, n.status)).map Prod.fst).Nodup := by
    have hdistinct : ((p.present members).map Node.node_id).Nodup := present_distinct
    have hnames := hdistinct.map fun _ _ => String.toList_inj.mp
    rw [(hperm.map Prod.fst).nodup_iff, List.map_map]
    rwa [List.map_map] at hnames
  change p.answer py arith mac members leader = .ok status at hanswer
  rw [hanswer, verdict, lookup_eq_some_iff hids, hperm.mem_iff, List.mem_map]
  constructor
  · rintro ⟨n, hn, heq⟩
    obtain ⟨j, hj, beat, hbeat, rfl⟩ := mem_present_iff.mp hn
    obtain ⟨hid, hv⟩ := Prod.mk.inj heq
    obtain rfl : j = i := members.distinct (String.toList_inj.mp hid)
    exact ⟨hj, beat, hbeat, hv⟩
  · rintro ⟨hi, beat, hbeat, rfl⟩
    exact ⟨members.node i beat, mem_present_iff.mpr ⟨i, hi, beat, hbeat, rfl⟩, rfl⟩

end Poll

end Verdicts

section Invariant

variable {F : Type} {t : Timing} {clock stamp : ℕ} {now : Instant} {x y : Sender F} {a : Action F}

namespace Sender

/-- When the first heartbeat since the last stored one is begun at the latest. -/
def due (t : Timing) (started : ℕ) : Option ℕ → ℕ
  | some stamp => stamp + t.cycle
  | none => started

def OnTime (t : Timing) (clock : ℕ) (x : Sender F) : Prop :=
  match x.phase with
  | .down => True
  | .sending beat => x.beaten.getD x.started ≤ beat.stamp.ns ∧ beat.stamp.ns ≤ clock ∧
      beat.stamp.ns ≤ due t x.started x.beaten + x.misses * t.cycle ∧ clock ≤ beat.stamp.ns + t.send
  | .sent stamp => x.beaten = some stamp ∧ x.misses = 0 ∧ clock ≤ stamp + t.send
  | .waiting since => clock ≤ since + t.interval + t.wake ∧
      since + t.interval + t.wake ≤ due t x.started x.beaten + x.misses * t.cycle

structure Sound (t : Timing) (clock : ℕ) (x : Sender F) : Prop where
  misses_le : x.misses ≤ t.misses
  onTime : x.OnTime t clock
  past : x.beaten.getD x.started ≤ clock
  kept : ∀ stamp, x.beaten = some stamp →
    ∃ r, x.record = some r ∧ r.beat.stamp.ns = stamp ∧ stamp + px ≤ r.expires
  recorded : ∀ r, x.record = some r → r.beat.stamp.ns ≤ clock ∧ r.expires ≤ clock + px

lemma sound_idle (t : Timing) (clock : ℕ) : (idle : Sender F).Sound t clock where
  misses_le := Nat.zero_le _
  onTime := trivial
  past := Nat.zero_le _
  kept := fun _ h => by cases h
  recorded := fun _ h => by cases h

lemma Sound.pass {d : ℕ} (h : x.Sound t clock) (hin : t.InTime (clock + d) x.phase) : x.Sound t (clock + d) where
  misses_le := h.misses_le
  onTime := by
    have htime := h.onTime
    rw [OnTime] at htime ⊢
    cases hphase : x.phase with
    | down => trivial
    | sending beat =>
      rw [hphase] at htime hin
      exact ⟨htime.1, htime.2.1.trans (Nat.le_add_right _ _), htime.2.2.1, hin⟩
    | sent stamp =>
      rw [hphase] at htime hin
      exact ⟨htime.1, htime.2.1, hin⟩
    | waiting since =>
      rw [hphase] at htime hin
      exact ⟨hin, htime.2⟩
  past := h.past.trans (Nat.le_add_right _ _)
  kept := h.kept
  recorded := fun r hr => by
    obtain ⟨hstamp, hexpires⟩ := h.recorded r hr
    omega

/-- What one step of a sender can be. -/
lemma act_cases {interval : ℕ} (ha : x.act interval now a = some y) :
    (∃ load, a = .start load ∧ x.phase = .down ∧
      y = { x with phase := .sending ⟨now, load⟩, started := now.ns, misses := 0, beaten := none }) ∨
    (∃ beat, x.phase = .sending beat ∧ a = .store ∧ y = { x with
      phase := .sent beat.stamp.ns, misses := 0, beaten := some beat.stamp.ns, record := some ⟨beat, now.ns + px⟩ }) ∨
    (∃ beat, x.phase = .sending beat ∧ a = .miss ∧ y = { x with phase := .waiting now.ns, misses := x.misses + 1 }) ∨
    (∃ stamp, x.phase = .sent stamp ∧ a = .reply ∧ y = { x with phase := .waiting now.ns }) ∨
    (∃ since load, x.phase = .waiting since ∧ a = .wake load ∧ since + interval ≤ now.ns ∧
      y = { x with phase := .sending ⟨now, load⟩ }) ∨
    (x.isAlive = true ∧ a = .halt ∧ y = { x with phase := .down }) := by
  obtain ⟨phase, started, misses, beaten, record⟩ := x
  cases phase with
  | down =>
    cases a with
    | start load => exact Or.inl ⟨load, rfl, rfl, (Option.some.inj ha).symm⟩
    | _ => cases ha
  | sending beat =>
    cases a with
    | store => exact Or.inr (Or.inl ⟨beat, rfl, rfl, (Option.some.inj ha).symm⟩)
    | miss => exact Or.inr (Or.inr (Or.inl ⟨beat, rfl, rfl, (Option.some.inj ha).symm⟩))
    | halt => exact Or.inr (Or.inr (Or.inr (Or.inr (Or.inr ⟨rfl, rfl, (Option.some.inj ha).symm⟩))))
    | _ => cases ha
  | sent stamp =>
    cases a with
    | reply => exact Or.inr (Or.inr (Or.inr (Or.inl ⟨stamp, rfl, rfl, (Option.some.inj ha).symm⟩)))
    | halt => exact Or.inr (Or.inr (Or.inr (Or.inr (Or.inr ⟨rfl, rfl, (Option.some.inj ha).symm⟩))))
    | _ => cases ha
  | waiting since =>
    cases a with
    | wake load =>
      change (if since + interval ≤ now.ns then _ else none) = some y at ha
      split at ha
      · rename_i hready
        exact Or.inr (Or.inr (Or.inr (Or.inr (Or.inl ⟨since, load, rfl, rfl, hready, (Option.some.inj ha).symm⟩))))
      · cases ha
    | halt => exact Or.inr (Or.inr (Or.inr (Or.inr (Or.inr ⟨rfl, rfl, (Option.some.inj ha).symm⟩))))
    | _ => cases ha

lemma Sound.act (h : x.Sound t now.ns) (hm : a = .miss → x.misses < t.misses)
    (ha : x.act t.interval now a = some y) : y.Sound t now.ns := by
  obtain ⟨hmisses, htime, hpast, hkept, hrecorded⟩ := h
  rw [OnTime] at htime
  rcases act_cases ha with ⟨load, rfl, -, rfl⟩ | ⟨beat, hphase, rfl, rfl⟩ | ⟨beat, hphase, rfl, rfl⟩ |
    ⟨stamp, hphase, rfl, rfl⟩ | ⟨since, load, hphase, rfl, -, rfl⟩ | ⟨-, rfl, rfl⟩
  · have htime : OnTime t now.ns
        { x with phase := .sending ⟨now, load⟩, started := now.ns, misses := 0, beaten := none } :=
      ⟨le_refl _, le_refl _, Nat.le_add_right _ _, Nat.le_add_right _ _⟩
    exact ⟨Nat.zero_le _, htime, le_refl _, (fun _ h => by cases h), hrecorded⟩
  · rw [hphase] at htime
    obtain ⟨-, hnow, -, hsend⟩ := htime
    refine ⟨Nat.zero_le _, ⟨rfl, rfl, hsend⟩, hnow, fun stamp hstamp => ?_, fun r hr => ?_⟩
    · obtain rfl := Option.some.inj hstamp
      exact ⟨_, rfl, rfl, Nat.add_le_add_right hnow _⟩
    · obtain rfl := Option.some.inj hr
      exact ⟨hnow, le_refl _⟩
  · rw [hphase] at htime
    obtain ⟨-, -, hbegun, hsend⟩ := htime
    have hcycle : (x.misses + 1) * t.cycle = x.misses * t.cycle + (t.send + t.interval + t.wake) := Nat.succ_mul _ _
    have htime : OnTime t now.ns { x with phase := .waiting now.ns, misses := x.misses + 1 } := by
      simp only [OnTime]
      omega
    exact ⟨hm rfl, htime, hpast, hkept, hrecorded⟩
  · rw [hphase] at htime
    obtain ⟨hbeaten, hzero, hsend⟩ := htime
    have htime : OnTime t now.ns { x with phase := .waiting now.ns } := by
      rw [OnTime, hbeaten, due, Timing.cycle]
      omega
    exact ⟨hmisses, htime, hpast, hkept, hrecorded⟩
  · rw [hphase] at htime
    obtain ⟨hwake, hdue⟩ := htime
    exact ⟨hmisses, ⟨hpast, le_refl _, hwake.trans hdue, Nat.le_add_right _ _⟩, hpast, hkept, hrecorded⟩
  · exact ⟨hmisses, trivial, hpast, hkept, hrecorded⟩

lemma Sound.clock_le (h : x.Sound t clock) (hr : x.isAlive = true) :
    clock ≤ due t x.started x.beaten + t.misses * t.cycle + t.send := by
  have htime := h.onTime
  have hcost := Nat.mul_le_mul_right t.cycle h.misses_le
  rw [OnTime] at htime
  cases hphase : x.phase with
  | down =>
    rw [isAlive, hphase] at hr
    cases hr
  | sending beat =>
    rw [hphase] at htime
    obtain ⟨-, -, hbegun, hsend⟩ := htime
    omega
  | sent stamp =>
    rw [hphase] at htime
    obtain ⟨hbeaten, -, hsend⟩ := htime
    rw [hbeaten, due]
    omega
  | waiting since =>
    rw [hphase] at htime
    obtain ⟨hwake, hdue⟩ := htime
    omega

/-- A heartbeat is replaced before it gets older than that. -/
lemma Sound.age_le (h : x.Sound t clock) (hr : x.isAlive = true) (hb : x.beaten = some stamp) :
    clock ≤ stamp + t.gap := by
  have hclock := h.clock_le hr
  rw [hb, due] at hclock
  rw [Timing.gap]
  omega

/-- It runs, and its last heartbeat is no older than that. -/
def BeatenSince (stamp : ℕ) (x : Sender F) : Prop := x.isAlive = true ∧ ∃ last, x.beaten = some last ∧ stamp ≤ last

lemma Sound.act_beatenSince (h : x.Sound t now.ns) (hx : x.BeatenSince stamp) (hne : a ≠ .halt)
    (ha : x.act t.interval now a = some y) : y.BeatenSince stamp := by
  obtain ⟨halive, last, hlast, hle⟩ := hx
  have htime := h.onTime
  rw [OnTime] at htime
  rcases act_cases ha with ⟨load, rfl, hphase, -⟩ | ⟨beat, hphase, rfl, rfl⟩ | ⟨beat, hphase, rfl, rfl⟩ |
    ⟨since, hphase, rfl, rfl⟩ | ⟨since, load, hphase, rfl, -, rfl⟩ | ⟨-, rfl, -⟩
  · rw [isAlive, hphase] at halive
    cases halive
  · rw [hphase, hlast] at htime
    exact ⟨rfl, _, rfl, hle.trans htime.1⟩
  · exact ⟨rfl, last, hlast, hle⟩
  · exact ⟨rfl, last, hlast, hle⟩
  · exact ⟨rfl, last, hlast, hle⟩
  · exact (hne rfl).elim

lemma start_of_act {interval : ℕ} (hx : x.isAlive = false) (ha : x.act interval now a = some y) :
    ∃ load, a = .start load := by
  rcases act_cases ha with ⟨load, rfl, -, -⟩ | ⟨beat, hphase, -, -⟩ | ⟨beat, hphase, -, -⟩ | ⟨stamp, hphase, -, -⟩ |
    ⟨since, load, hphase, -, -, -⟩ | ⟨halive, -, -⟩
  · exact ⟨load, rfl⟩
  · rw [isAlive, hphase] at hx
    cases hx
  · rw [isAlive, hphase] at hx
    cases hx
  · rw [isAlive, hphase] at hx
    cases hx
  · rw [isAlive, hphase] at hx
    cases hx
  · rw [hx] at halive
    cases halive

lemma act_halt {interval : ℕ} (ha : x.act interval now .halt = some y) :
    x.isAlive = true ∧ y = { x with phase := .down } := by
  rcases act_cases ha with ⟨load, h, -, -⟩ | ⟨beat, -, h, -⟩ | ⟨beat, -, h, -⟩ | ⟨stamp, -, h, -⟩ |
    ⟨since, load, -, h, -, -⟩ | ⟨halive, -, hy⟩
  · cases h
  · cases h
  · cases h
  · cases h
  · cases h
  · exact ⟨halive, hy⟩

end Sender

variable {ι : Type} [DecidableEq ι] {s s' u : State ι F} {l : Label ι F} {ls : List (Label ι F)} {i : ι}

def AllSound (t : Timing) (s : State ι F) : Prop := ∀ i, (s.senders i).Sound t s.clock.ns

lemma step_act_eq {interval : ℕ} {j : ι} (h : step interval s (.act j a) = some s') :
    ∃ y, (s.senders j).act interval s.clock a = some y ∧ s' = ⟨s.clock, Function.update s.senders j y⟩ := by
  obtain ⟨y, hy, rfl⟩ := Option.map_eq_some_iff.mp h
  exact ⟨y, hy, rfl⟩

lemma step_pass_eq {interval d : ℕ} (h : step interval s (.pass d) = some s') :
    s'.clock.ns = s.clock.ns + d ∧ s'.senders = s.senders := by
  obtain ⟨clock, hclock, rfl⟩ := Option.map_eq_some_iff.mp h
  rw [Instant.after] at hclock
  split at hclock
  · cases hclock
    exact ⟨rfl, rfl⟩
  · cases hclock

lemma allSound_step (hs : AllSound t s) (hk : t.Keeps s l) (h : step t.interval s l = some s') : AllSound t s' := by
  intro i
  cases l with
  | pass d =>
    obtain ⟨hclock, hsenders⟩ := step_pass_eq h
    rw [hclock, hsenders]
    exact (hs i).pass (hk i)
  | act j a =>
    obtain ⟨y, hy, rfl⟩ := step_act_eq h
    change ((Function.update s.senders j y) i).Sound t s.clock.ns
    by_cases hij : i = j
    · subst hij
      rw [Function.update_self]
      refine (hs i).act ?_ hy
      rintro rfl
      exact hk
    · rw [Function.update_of_ne hij]
      exact hs i

lemma allSound_run (hs : AllSound t s) (hk : Along (step t.interval) t.Keeps s ls)
    (hr : run (step t.interval) s ls = some u) : AllSound t u := run_invariant allSound_step hs hk hr

lemma clock_le_step {interval : ℕ} (h : step interval s l = some s') : s.clock.ns ≤ s'.clock.ns := by
  cases l with
  | pass d =>
    rw [(step_pass_eq h).1]
    exact Nat.le_add_right _ _
  | act j a =>
    obtain ⟨y, -, rfl⟩ := step_act_eq h
    exact le_refl _

lemma beatenSince_step (hs : AllSound t s) (hx : (s.senders i).BeatenSince stamp) (hl : halts i l = false)
    (h : step t.interval s l = some s') : (s'.senders i).BeatenSince stamp := by
  cases l with
  | pass d => rwa [(step_pass_eq h).2]
  | act j a =>
    obtain ⟨y, hy, rfl⟩ := step_act_eq h
    change ((Function.update s.senders j y) i).BeatenSince stamp
    by_cases hij : i = j
    · subst hij
      rw [Function.update_self]
      refine (hs i).act_beatenSince hx ?_ hy
      rintro rfl
      exact of_decide_eq_false hl rfl
    · rwa [Function.update_of_ne hij]

lemma beatenSince_run (hs : AllSound t s) (hx : (s.senders i).BeatenSince stamp)
    (hk : Along (step t.interval) t.Keeps s ls) (hl : ∀ l ∈ ls, halts i l = false)
    (hr : run (step t.interval) s ls = some u) : (u.senders i).BeatenSince stamp := by
  have hstep : ∀ {v : State ι F} {l w}, AllSound t v ∧ (v.senders i).BeatenSince stamp →
      t.Keeps v l ∧ halts i l = false → step t.interval v l = some w → AllSound t w ∧ (w.senders i).BeatenSince stamp :=
    fun hinv hl h => ⟨allSound_step hinv.1 hl.1 h, beatenSince_step hinv.1 hinv.2 hl.2 h⟩
  exact (run_invariant hstep ⟨hs, hx⟩ (hk.and (along_of_mem hl s)) hr).2

lemma clock_le_run {interval : ℕ} (hr : run (step interval) s ls = some u) : s.clock.ns ≤ u.clock.ns := by
  have hstep : ∀ {v : State ι F} {l w}, s.clock.ns ≤ v.clock.ns → step interval v l = some w →
      s.clock.ns ≤ w.clock.ns := fun hle h => hle.trans (clock_le_step h)
  exact reachable_invariant hstep (le_refl _) ⟨ls, hr⟩

lemma still_step {interval : ℕ} (hx : (s.senders i).isAlive = false) (hl : starts i l = false)
    (h : step interval s l = some s') : s'.senders i = s.senders i := by
  cases l with
  | pass d =>
    rw [(step_pass_eq h).2]
  | act j a =>
    obtain ⟨y, hy, rfl⟩ := step_act_eq h
    refine Function.update_of_ne ?_ _ _
    rintro rfl
    obtain ⟨load, rfl⟩ := Sender.start_of_act hx hy
    exact of_decide_eq_false hl rfl

/-- A node that has halted and is not started again leaves its key as it is. -/
lemma still_run {interval : ℕ} (hx : (s.senders i).isAlive = false) (hl : ∀ l ∈ ls, starts i l = false)
    (hr : run (step interval) s ls = some u) : u.senders i = s.senders i := by
  have hstep : ∀ {v : State ι F} {l w}, v.senders i = s.senders i → starts i l = false →
      step interval v l = some w → w.senders i = s.senders i :=
    fun heq hl h => (still_step (by rwa [heq]) hl h).trans heq
  exact run_invariant hstep rfl (along_of_mem hl s) hr

end Invariant

section Slowest

/-! The run in which a node is as slow as it may be. -/

variable {ι F : Type} [DecidableEq ι] {t : Timing} {i : ι} {x y : Sender F} {c c' now : Instant} {a : Action F}

/-- No other node has ever been started. -/
def only (i : ι) (x : Sender F) (clock : Instant) : State ι F := ⟨clock, Function.update (fun _ => .idle) i x⟩

def Slow (t : Timing) (c : Instant) (s : State ι F) : Prop := Leads (step t.interval) t.Keeps (initial c) s

lemma slow_initial (t : Timing) (c : Instant) (i : ι) : Slow t c (only i (Sender.idle : Sender F) c) := by
  rw [only, Function.update_eq_self]
  exact Leads.refl _

@[simp] lemma only_self (i : ι) (x : Sender F) (clock : Instant) : (only i x clock).senders i = x := by
  simp only [only, Function.update_self]

lemma only_ne {j : ι} (hj : j ≠ i) : (only i x now).senders j = .idle := by
  simp only [only, Function.update_of_ne hj]

lemma Slow.act (h : Slow t c (only i x now)) (ha : x.act t.interval now a = some y)
    (hk : t.Keeps (only i x now) (.act i a)) : Slow t c (only i y now) := by
  refine Leads.next h ?_ hk
  simp only [step, only, Function.update_self, ha, Option.map_some, Function.update_idem]

lemma Slow.pass {d : ℕ} (h : Slow t c (only i x now)) (hd : c'.ns = now.ns + d)
    (hin : t.InTime (now.ns + d) x.phase) : Slow t c (only i x c') := by
  have hbound := hd ▸ c'.bounded
  have hafter : now.after d = some c' := by
    rw [Instant.after, dif_pos hbound]
    exact congrArg some (Instant.ext hd.symm)
  refine Leads.next (a := .pass d) h ?_ fun j => ?_
  · change (now.after d).map _ = _
    rw [hafter]
    rfl
  · by_cases hj : j = i
    · rwa [hj, only_self]
    · rw [only_ne hj]
      trivial

variable (load : Load F)

/-- Its first heartbeat is stored at once, and the last `misses` have failed. -/
def beaten (c : Instant) (phase : Phase F) (misses : ℕ) : Sender F :=
  ⟨phase, c.ns, misses, some c.ns, some ⟨⟨c, load⟩, c.ns + px⟩⟩

lemma slow_sent (t : Timing) (c : Instant) (i : ι) : Slow t c (only i (beaten load c (.sent c.ns) 0) c) :=
  ((slow_initial t c i).act (a := .start load) rfl trivial).act (a := .store) rfl trivial

variable {load} {k : ℕ}

lemma Slow.begun {asleep : Instant} (h : Slow t c (only i (beaten load c (.waiting asleep.ns) k) asleep))
    (hnow : now.ns = asleep.ns + (t.interval + t.wake)) :
    Slow t c (only i (beaten load c (.sending ⟨now, load⟩) k) now) := by
  have hawake := h.pass hnow (by rw [← Nat.add_assoc]; exact le_refl _)
  exact hawake.act (a := .wake load) (if_pos (by omega)) trivial

lemma slow_missed (load : Load F) (i : ι) (hk : k ≤ t.misses) (hnow : now.ns = c.ns + t.send + k * t.cycle) :
    Slow t c (only i (beaten load c (.waiting now.ns) k) now) := by
  induction k generalizing now with
  | zero =>
    have hlate : now.ns = c.ns + t.send := by omega
    have hsent := (slow_sent load t c i).pass hlate (le_refl _)
    exact hsent.act (a := .reply) rfl trivial
  | succ k ih =>
    have hcycle : (k + 1) * t.cycle = k * t.cycle + (t.send + t.interval + t.wake) := Nat.succ_mul _ _
    have hbound := now.bounded
    obtain ⟨asleep, hasleep⟩ : ∃ asleep : Instant, asleep.ns = c.ns + t.send + k * t.cycle := ⟨⟨_, by omega⟩, rfl⟩
    obtain ⟨awake, hawake⟩ : ∃ awake : Instant, awake.ns = asleep.ns + (t.interval + t.wake) := ⟨⟨_, by omega⟩, rfl⟩
    have hbegun := (ih (Nat.le_of_succ_le hk) hasleep).begun hawake
    have hlast : Slow t c (only i (beaten load c (.sending ⟨awake, load⟩) k) now) :=
      hbegun.pass (d := t.send) (by omega) (le_refl _)
    refine hlast.act (a := .miss) rfl ?_
    rw [Timing.Keeps, only_self]
    exact hk

/-- The heartbeat can reach every age up to the gap. -/
lemma exists_aged (load : Load F) (i : ι) {d : ℕ} (hd : d ≤ t.gap) (hnow : now.ns = c.ns + d) :
    ∃ phase misses, (beaten load c phase misses).isAlive = true ∧
      Slow t c (only i (beaten load c phase misses) now) := by
  by_cases hsend : d ≤ t.send
  · exact ⟨.sent c.ns, 0, rfl, (slow_sent load t c i).pass hnow (Nat.add_le_add_left hsend _)⟩
  · have hgap : d - t.send - 1 < (t.misses + 1) * t.cycle := by
      rw [Timing.gap] at hd
      rw [Nat.succ_mul]
      omega
    have hcycle : 0 < t.cycle := Nat.pos_of_ne_zero fun h => by rw [h, Nat.mul_zero] at hgap; omega
    have hk := Nat.le_of_lt_succ ((Nat.div_lt_iff_lt_mul hcycle).mpr hgap)
    have hsplit := Nat.div_add_mod' (d - t.send - 1) t.cycle
    have hr := Nat.mod_lt (d - t.send - 1) hcycle
    generalize (d - t.send - 1) / t.cycle = k at hk hsplit
    generalize (d - t.send - 1) % t.cycle = r at hsplit hr
    have hbound := now.bounded
    obtain ⟨asleep, hasleep⟩ : ∃ asleep : Instant, asleep.ns = c.ns + t.send + k * t.cycle := ⟨⟨_, by omega⟩, rfl⟩
    have hmissed := slow_missed load i hk hasleep
    by_cases hwake : r + 1 ≤ t.interval + t.wake
    · refine ⟨.waiting asleep.ns, k, rfl, hmissed.pass (d := r + 1) (by omega) ?_⟩
      change asleep.ns + (r + 1) ≤ asleep.ns + t.interval + t.wake
      omega
    · obtain ⟨awake, hawake⟩ : ∃ awake : Instant, awake.ns = asleep.ns + (t.interval + t.wake) := ⟨⟨_, by omega⟩, rfl⟩
      rw [Timing.cycle] at hr
      refine ⟨.sending ⟨awake, load⟩, k, rfl,
        (hmissed.begun hawake).pass (d := r + 1 - (t.interval + t.wake)) (by omega) ?_⟩
      change awake.ns + (r + 1 - (t.interval + t.wake)) ≤ awake.ns + t.send
      omega

end Slowest

section Heartbeats

variable {ι F : Type} {t : Timing} {i : ι} {s : State ι F} {stamp : ℕ} {beat : Beat F}

lemma exists_heartbeat (hs : AllSound t s) (hr : (s.senders i).isAlive = true) (hb : (s.senders i).beaten = some stamp)
    (hgap : t.gap < px) : ∃ beat, s.heartbeat i = some beat := by
  obtain ⟨r, hrecord, -, hexpires⟩ := (hs i).kept stamp hb
  have hage := (hs i).age_le hr hb
  refine ⟨r.beat, ?_⟩
  rw [State.heartbeat, hrecord, Option.bind_some, if_pos (by omega)]

lemma heartbeat_eq_some {r : Record F} (hrecord : (s.senders i).record = some r) :
    s.heartbeat i = some beat ↔ s.clock.ns < r.expires ∧ r.beat = beat := by
  rw [State.heartbeat, hrecord, Option.bind_some]
  split
  · rename_i hlive
    simp [hlive]
  · rename_i hgone
    simp [hgone]

end Heartbeats

section Running

variable {ι F : Type} [DecidableEq ι] {t : Timing} {i : ι} {fl : Floats F} {py : Interpreter fl} {arith : Arithmetic F}
  {mac : Hmac} {members : Members ι} {leader : Option Word}

/-- An answer to a poll while a node keeps running that has stored a heartbeat since it was started. -/
structure Watch (t : Timing) (i : ι) (F : Type) where
  clock : Instant
  labels : List (Label ι F)
  state : State ι F
  reached : run (step t.interval) (initial clock) labels = some state
  timely : Along (step t.interval) t.Keeps (initial clock) labels
  alive : (state.senders i).isAlive = true
  stored : (state.senders i).beaten.isSome = true
  poll : Poll t.interval state
  timely_before : Along (step t.interval) t.Keeps state poll.before
  timely_between : ∀ j, Along (step t.interval) t.Keeps poll.now (poll.between j)
  runs_before : ∀ l ∈ poll.before, halts i l = false
  runs_between : ∀ l ∈ poll.between i, halts i l = false

lemma Watch.allows (w : Watch t i F) :
    t.Allows (verdict (w.poll.answer py arith mac members leader) (members.node_id i).toList) := by
  have hs : AllSound t w.state := allSound_run (fun _ => Sender.sound_idle _ _) w.timely w.reached
  have hnow := allSound_run hs w.timely_before w.poll.reads
  have hgot := allSound_run hnow (w.timely_between i) (w.poll.gets i)
  obtain ⟨first, hfirst⟩ := Option.isSome_iff_exists.mp w.stored
  obtain ⟨halive, second, hsecond, -⟩ :=
    beatenSince_run hs ⟨w.alive, first, hfirst, le_refl _⟩ w.timely_before w.runs_before w.poll.reads
  obtain ⟨halive', third, hthird, hle⟩ :=
    beatenSince_run hnow ⟨halive, second, hsecond, le_refl _⟩ (w.timely_between i) w.runs_between (w.poll.gets i)
  have hage := (hnow i).age_le halive hsecond
  cases hv : verdict (w.poll.answer py arith mac members leader) (members.node_id i).toList with
  | none =>
    by_contra hgap
    obtain ⟨beat, hbeat⟩ := exists_heartbeat hs w.alive hfirst (not_le.mp hgap)
    obtain ⟨beat', hbeat'⟩ := exists_heartbeat hgot halive' hthird (not_le.mp hgap)
    have hlisted := (w.poll.mem_listed i).mpr (hbeat ▸ rfl)
    have hshown : verdict (w.poll.answer py arith mac members leader) (members.node_id i).toList = some _ :=
      Poll.verdict_eq_some_iff.mpr ⟨hlisted, beat', hbeat', rfl⟩
    rw [hv] at hshown
    cases hshown
  | some v =>
    obtain ⟨-, beat, hbeat, hexpected⟩ := Poll.verdict_eq_some_iff.mp hv
    obtain ⟨r, hrecord, hstamp, -⟩ := (hgot i).kept third hthird
    obtain ⟨-, rfl⟩ := (heartbeat_eq_some hrecord).mp hbeat
    rw [expected_eq] at hexpected
    cases v with
    | active => trivial
    | suspect =>
      rw [Timing.Allows]
      split_ifs at hexpected
      omega
    | dead =>
      rw [Timing.Allows]
      split_ifs at hexpected
      omega

def Poll.atOnce {interval : ℕ} (s : State ι F) (listed : List ι) (nodup : listed.Nodup)
    (mem_listed : ∀ i, i ∈ listed ↔ (s.heartbeat i).isSome = true) : Poll interval s :=
  ⟨listed, nodup, mem_listed, [], s, rfl, fun _ => [], fun _ => s, fun _ => rfl⟩

lemma exists_watch (py : Interpreter fl) (arith : Arithmetic F) (mac : Hmac) (members : Members ι)
    (leader : Option Word) (i : ι) (load : Load F) (c now : Instant) {d : ℕ} (hd : d ≤ t.gap)
    (hnow : now.ns = c.ns + d) :
    ∃ w : Watch t i F, ∀ v, verdict (w.poll.answer py arith mac members leader) (members.node_id i).toList = some v ↔
      now.ns < c.ns + px ∧ (members.node i ⟨c, load⟩).expected now.clock = v := by
  obtain ⟨phase, misses, halive, labels, hreached, htimely⟩ := exists_aged load i hd hnow
  have hrecord : ((only i (beaten load c phase misses) now).senders i).record = some ⟨⟨c, load⟩, c.ns + px⟩ := by
    rw [only_self]
    rfl
  have hlisted : ∀ j, j ∈ (if now.ns < c.ns + px then [i] else []) ↔
      ((only i (beaten load c phase misses) now).heartbeat j).isSome = true := by
    intro j
    by_cases hj : j = i
    · subst hj
      rw [State.heartbeat, hrecord, Option.bind_some]
      change _ ↔ (if now.ns < c.ns + px then _ else none).isSome = true
      split <;> simp
    · have hnone : (only i (beaten load c phase misses) now).heartbeat j = none := by
        rw [State.heartbeat, only_ne hj]
        rfl
      rw [hnone]
      split <;> simp [hj]
  refine ⟨⟨c, labels, _, hreached, htimely, by rwa [only_self], by rw [only_self]; rfl,
    Poll.atOnce _ _ (by split <;> simp) hlisted, trivial, fun _ => trivial, List.forall_mem_nil _,
    List.forall_mem_nil _⟩, ?_⟩
  intro v
  rw [Poll.verdict_eq_some_iff]
  change _ ∧ (∃ beat, (only i (beaten load c phase misses) now).heartbeat i = some beat ∧
    (members.node i beat).expected now.clock = v) ↔ _
  simp only [heartbeat_eq_some hrecord]
  constructor
  · rintro ⟨-, beat, ⟨hlive, rfl⟩, hv⟩
    exact ⟨hlive, hv⟩
  · rintro ⟨hlive, hv⟩
    exact ⟨(hlisted i).mpr (by rw [(heartbeat_eq_some hrecord).mpr ⟨hlive, rfl⟩]; rfl), _, ⟨hlive, rfl⟩, hv⟩

/-- A node that runs can be shown as suspect, as dead or not at all exactly when its heartbeats can get so old. -/
theorem verdict_iff [Inhabited F] (t : Timing) (i : ι) (members : Members ι) (leader : Option Word)
    (v : Option Liveness) :
    (∃ w : Watch t i F, verdict (w.poll.answer py arith mac members leader) (members.node_id i).toList = v) ↔
      t.Allows v := by
  constructor
  · rintro ⟨w, rfl⟩
    exact w.allows
  · intro h
    have load : Load F := ⟨default, default, 0, default, by decide⟩
    cases v with
    | none =>
      obtain ⟨w, hw⟩ := exists_watch py arith mac members leader i load ⟨0, by decide⟩ ⟨px, by decide⟩ h
        (Nat.zero_add _).symm
      refine ⟨w, Option.eq_none_iff_forall_ne_some.mpr fun v hv => ?_⟩
      have hlive := ((hw v).mp hv).1
      simp at hlive
    | some v =>
      cases v with
      | active =>
        obtain ⟨w, hw⟩ := exists_watch py arith mac members leader i load ⟨0, by decide⟩ ⟨0, by decide⟩
          (Nat.zero_le _) rfl
        exact ⟨w, (hw _).mpr ⟨by decide, by rw [expected_eq]; rfl⟩⟩
      | suspect =>
        obtain ⟨w, hw⟩ := exists_watch py arith mac members leader i load ⟨999999, by decide⟩
          ⟨15001000000, by decide⟩ (Nat.succ_le_of_lt h) (by decide)
        exact ⟨w, (hw _).mpr ⟨by decide, by rw [expected_eq, if_neg (by norm_num), if_pos (by norm_num)]⟩⟩
      | dead =>
        obtain ⟨w, hw⟩ := exists_watch py arith mac members leader i load ⟨999999, by decide⟩
          ⟨30001000000, by decide⟩ (Nat.succ_le_of_lt h) (by decide)
        exact ⟨w, (hw _).mpr ⟨by decide, by rw [expected_eq, if_neg (by norm_num), if_neg (by norm_num)]⟩⟩

end Running

section Sample

/-- The default interval, and no failed heartbeat. -/
def everyTenSeconds : Timing where
  interval := 10000000000
  send := 1000000000
  wake := 0
  misses := 0

example : everyTenSeconds.gap ≤ 15000 * 1000000 ∧ 15000 * 1000000 < { everyTenSeconds with misses := 1 }.gap := by
  decide

end Sample

section Halted

variable {ι F : Type} [DecidableEq ι] {t : Timing} {i : ι} {fl : Floats F} {py : Interpreter fl} {arith : Arithmetic F}
  {mac : Hmac} {members : Members ι} {leader : Option Word}

/-- An answer to a poll after a node has halted, before it is started again. Nothing is asked of the other nodes
from then on. -/
structure Halt (t : Timing) (i : ι) (F : Type) where
  clock : Instant
  labels : List (Label ι F)
  state : State ι F
  reached : run (step t.interval) (initial clock) labels = some state
  timely : Along (step t.interval) t.Keeps (initial clock) labels
  halted : State ι F
  halts : step t.interval state (.act i .halt) = some halted
  later : List (Label ι F)
  asked : State ι F
  continues : run (step t.interval) halted later = some asked
  poll : Poll t.interval asked
  down_later : ∀ l ∈ later, starts i l = false
  down_before : ∀ l ∈ poll.before, starts i l = false
  down_between : ∀ l ∈ poll.between i, starts i l = false

namespace Halt

variable (h : Halt t i F)

lemma sound : AllSound t h.state := allSound_run (fun _ => Sender.sound_idle _ _) h.timely h.reached

lemma step_halted : (h.state.senders i).isAlive = true ∧ h.halted.clock = h.state.clock ∧
    h.halted.senders i = { h.state.senders i with phase := .down } := by
  obtain ⟨y, hy, heq⟩ := step_act_eq h.halts
  obtain ⟨halive, rfl⟩ := Sender.act_halt hy
  rw [heq]
  exact ⟨halive, rfl, Function.update_self _ _ _⟩

/-- Its key stays as it was. -/
lemma record_eq : (h.asked.senders i).record = (h.state.senders i).record ∧
    ((h.poll.got i).senders i).record = (h.state.senders i).record := by
  obtain ⟨-, -, hdown⟩ := h.step_halted
  have hasked := still_run (by rw [hdown]; rfl) h.down_later h.continues
  have hnow := still_run (by rw [hasked, hdown]; rfl) h.down_before h.poll.reads
  have hgot := still_run (by rw [hnow, hasked, hdown]; rfl) h.down_between (h.poll.gets i)
  rw [hgot, hnow, hasked, hdown]
  exact ⟨rfl, rfl⟩

lemma clock_le : h.state.clock.ns ≤ h.asked.clock.ns ∧ h.asked.clock.ns ≤ (h.poll.got i).clock.ns := by
  have hlater := clock_le_run h.continues
  have hbefore := clock_le_run h.poll.reads
  have hbetween := clock_le_run (h.poll.gets i)
  rw [h.step_halted.2.1] at hlater
  omega

end Halt

/-- A node that has halted is never shown as one that runs from thirty seconds on, nor at all from forty-five on;
in between it is shown as dead, as long as its last heartbeat is there. -/
theorem halted_shown (h : Halt t i F) (members : Members ι) (leader : Option Word) :
    (h.state.clock.clock.ms + 30000 < h.poll.now.clock.clock.ms →
      (∀ v, verdict (h.poll.answer py arith mac members leader) (members.node_id i).toList = some v → v = .dead) ∧
        ((h.state.senders i).started + t.misses * t.cycle + t.send < h.state.clock.ns →
          (h.poll.got i).clock.ns + t.gap < h.state.clock.ns + px →
            verdict (h.poll.answer py arith mac members leader) (members.node_id i).toList = some .dead)) ∧
      (h.state.clock.ns + px ≤ (h.poll.got i).clock.ns →
        verdict (h.poll.answer py arith mac members leader) (members.node_id i).toList = none) := by
  obtain ⟨hasked, hgot⟩ := h.record_eq
  obtain ⟨hclock, hclock'⟩ := h.clock_le
  have hdead : h.state.clock.clock.ms + 30000 < h.poll.now.clock.clock.ms → ∀ r : Record F,
      (h.state.senders i).record = some r → (members.node i r.beat).expected h.poll.now.clock.clock = .dead := by
    intro hage r hr
    obtain ⟨hstamp, -⟩ := (h.sound i).recorded r hr
    change ((h.state.clock.ns / 1000000 : ℕ) : ℤ) + 30000 < ((h.poll.now.clock.ns / 1000000 : ℕ) : ℤ) at hage
    rw [expected_eq, if_neg (by omega), if_neg (by omega)]
  refine ⟨fun hage => ⟨fun v hv => ?_, fun hwarm hsoon => ?_⟩, fun hlate => ?_⟩
  · obtain ⟨-, beat, hbeat, rfl⟩ := Poll.verdict_eq_some_iff.mp hv
    obtain ⟨r, hr, -⟩ := Option.bind_eq_some_iff.mp hbeat
    obtain ⟨-, rfl⟩ := (heartbeat_eq_some hr).mp hbeat
    exact hdead hage r (hgot ▸ hr)
  · have halive := h.step_halted.1
    obtain ⟨stamp, hstamp⟩ : ∃ stamp, (h.state.senders i).beaten = some stamp := by
      cases hb : (h.state.senders i).beaten with
      | some stamp => exact ⟨stamp, rfl⟩
      | none =>
        have hle := (h.sound i).clock_le halive
        rw [hb, Sender.due] at hle
        omega
    obtain ⟨r, hr, -, hexpires⟩ := (h.sound i).kept stamp hstamp
    have hage' := (h.sound i).age_le halive hstamp
    have hlisted := (heartbeat_eq_some (hasked.trans hr)).mpr ⟨by omega, rfl⟩
    have hfound := (heartbeat_eq_some (hgot.trans hr)).mpr ⟨by omega, rfl⟩
    exact Poll.verdict_eq_some_iff.mpr
      ⟨(h.poll.mem_listed i).mpr (by rw [hlisted]; rfl), r.beat, hfound, hdead hage r hr⟩
  · refine Option.eq_none_iff_forall_ne_some.mpr fun v hv => ?_
    obtain ⟨-, beat, hbeat, -⟩ := Poll.verdict_eq_some_iff.mp hv
    obtain ⟨r, hr, -⟩ := Option.bind_eq_some_iff.mp hbeat
    obtain ⟨hlive, -⟩ := (heartbeat_eq_some hr).mp hbeat
    obtain ⟨-, hexpires⟩ := (h.sound i).recorded r (hgot ▸ hr)
    omega

end Halted

section Sample

def oneMember : Members Unit where
  node_id _ := "node-1"
  nonempty _ := by decide
  distinct _ _ _ := rfl
  plain _ := by decide
  secret _ := "secret"

def quietLoad : Load Unit := ⟨(), (), 0, (), by decide⟩

def midnight : Instant := ⟨0, by decide⟩

/-- Two heartbeats, the second two seconds ago. -/
def beats : List (Label Unit Unit) :=
  [.act () (.start quietLoad), .act () .store, .act () .reply, .pass 10000000000, .act () (.wake quietLoad),
    .act () .store, .act () .reply, .pass 2000000000]

end Sample

theorem crash_shown_dead : ∃ h : Halt everyTenSeconds () Unit,
    (h.poll.got ()).clock.ns = h.state.clock.ns + 31000000000 ∧
      verdict (h.poll.answer halvesInterpreter wholeNumbers sampleHmac oneMember none) (oneMember.node_id ()).toList =
        some .dead := by
  obtain ⟨s, hs, hstate⟩ := exists_of_run_any (step everyTenSeconds.interval) (initial midnight) beats
    (fun s => s.clock.ns == 12000000000 && (s.senders ()).started == 0) (by decide +kernel)
  obtain ⟨u, hu, hlater⟩ := exists_of_run_any (step everyTenSeconds.interval) (initial midnight)
    (beats ++ [.act () .halt, .pass 31000000000]) (fun u => u.clock.ns == 43000000000 && (u.heartbeat ()).isSome)
    (by decide +kernel)
  rw [Bool.and_eq_true, beq_iff_eq] at hstate hlater
  obtain ⟨hclock, hstarted⟩ := hstate
  obtain ⟨hclock', hkey⟩ := hlater
  obtain ⟨s', hs', hrest⟩ := run_append.mp hu
  obtain rfl := Option.some.inj (hs.symm.trans hs')
  obtain ⟨halted, hhalts, hcontinues⟩ := run_cons.mp hrest
  let h : Halt everyTenSeconds () Unit :=
    ⟨midnight, beats, s, hs, by decide +kernel, halted, hhalts, [.pass 31000000000], u, hcontinues,
      Poll.atOnce u [()] (List.nodup_singleton _) (fun _ => iff_of_true (List.mem_singleton.mpr rfl) hkey),
      by decide, List.forall_mem_nil _, List.forall_mem_nil _⟩
  have hgot : (h.poll.got ()).clock.ns = 43000000000 := hclock'
  have hage : h.state.clock.clock.ms + 30000 < h.poll.now.clock.clock.ms := by
    change ((s.clock.ns / 1000000 : ℕ) : ℤ) + 30000 < ((u.clock.ns / 1000000 : ℕ) : ℤ)
    omega
  have hwarm : (h.state.senders ()).started + everyTenSeconds.misses * everyTenSeconds.cycle + everyTenSeconds.send <
      h.state.clock.ns := by
    change (s.senders ()).started + 0 * everyTenSeconds.cycle + 1000000000 < s.clock.ns
    rw [beq_iff_eq] at hstarted
    omega
  refine ⟨h, by change u.clock.ns = s.clock.ns + _; omega, ((halted_shown h oneMember none).1 hage).2 hwarm ?_⟩
  change u.clock.ns + everyTenSeconds.gap < s.clock.ns + px
  rw [hclock, hclock']
  decide

end OpsSentry.Cluster.FailureDetector
