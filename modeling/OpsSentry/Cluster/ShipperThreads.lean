import OpsSentry.Cluster.AuditResume
import OpsSentry.Foundation.Workers

/-! `AuditShipper.start`, `stop` and `_run_loop`: the thread that ships one batch after the other until it is
stopped. -/

namespace OpsSentry.Cluster.ShipperThreads

open Foundation.Programs Foundation.Runs Foundation.Workers
open Ledger (Table)
open Resume (Resumable)

abbrev Threads := State Node Actor World Procedure Exc Result

abbrev Event := Foundation.Workers.Label Actor Procedure Oracle Empty

/-- What a batch raises is logged; after it, as after one that succeeds, the loop waits for the event. -/
def runLoop (batch_size : ℕ) : Threads → Event → Option Threads := step (auditNode batch_size) .shipper .shipBatch

/-- No call writes to the ledger. -/
def LeavesLedger (table : Table) (s : Threads) (l : Event) : Prop :=
  ∀ l' ∈ emitted .shipper .shipBatch s l, (Resume.contract table).Respects (project .shipper .shipBatch s) l'

instance (table : Table) (s : Threads) (l : Event) : Decidable (LeavesLedger table s l) :=
  inferInstanceAs (Decidable (∀ l' ∈ _, _))

/-- However one caller uses `start` and `stop` and the waiting of `stop` ends, one thread at most is alive, and
the threads do what one shipper does in a run of its own; while nobody writes to the ledger, the stream stays one
that a restart can resume. -/
theorem threads_resumable {batch_size : ℕ} {table : Table} {ls : List Event} {t : Threads}
    (hr : run (runLoop batch_size) (initial (unshipped table)) ls = some t) :
    (∀ i x, t.threads[i]? = some x → x.alive = true → i = 0) ∧
      (∃ ls', run (auditNode batch_size).step (Pool.idle (unshipped table)) ls' =
        some (project .shipper .shipBatch t)) ∧
      (0 < batch_size → (∀ e ∈ table.rows, 0 ≤ e.created_at ∧ e.id ≠ "") →
        Along (runLoop batch_size) (LeavesLedger table) (initial (unshipped table)) ls →
        Resumable table t.pool.shared) := by
  have hsound : Sound .shipper (initial (unshipped table) : Threads) := initial_sound _
  refine ⟨fun i x hx halive => (sound_run hsound hr).one_alive hx halive, ?_, fun hb hrows hg => ?_⟩
  · obtain ⟨ls', hls, -⟩ := run_refines (G := fun _ _ => True) hsound (along_of_forall (fun _ _ _ _ => trivial) _ _) hr
    rw [project_initial] at hls
    exact ⟨ls', hls⟩
  · obtain ⟨ls', hls, halong⟩ := run_refines hsound hg hr
    rw [project_initial] at hls halong
    have hinv : Resume.Inv table (unshipped table) := ⟨0, 0, 0, Resume.unshipped_progress hrows⟩
    obtain ⟨k, m, d, hprogress⟩ := (Resume.contract table).sound (Resume.auditNode_meets hb) hinv halong hls
    exact hprogress.resumable

section Calls

def startCall : List Event := [.start, .proceed, .proceed, .proceed]

def steps (k : ℕ) (o : Oracle) : List Event := List.replicate k (.run 0 o)

/-- The first batch is shipped, the second is under way when `stop` waits in vain. -/
def stopInVain : List Event := startCall ++ steps 8 {} ++ steps 3 {} ++ [.stop, .timeout]

/-- A `start` that finds the first thread alive, which then ends its batch and itself, and one that does not. -/
def startedTwice : List Event := stopInVain ++ [.start] ++ steps 5 { writeFails := true } ++ startCall ++ steps 8 {}

end Calls

theorem started_twice_resumable : ∃ t, run (runLoop 2) (initial (unshipped Resume.threeRows)) startedTwice = some t ∧
    t.threads.length = 2 ∧ t.pool.shared.stream.map Payload.id = ["c", "a", "b"] ∧
      (∀ i x, t.threads[i]? = some x → x.alive = true → i = 0) ∧ Resumable Resume.threeRows t.pool.shared := by
  obtain ⟨t, ht, hs⟩ := exists_of_run_any (runLoop 2) (initial (unshipped Resume.threeRows)) startedTwice
    (fun t => t.threads.length == 2 && t.pool.shared.stream.map Payload.id == ["c", "a", "b"]) (by decide +kernel)
  rw [Bool.and_eq_true, beq_iff_eq, beq_iff_eq] at hs
  obtain ⟨hone, -, hresumable⟩ := threads_resumable ht
  exact ⟨t, ht, hs.1, hs.2, hone, hresumable (by decide) (by decide +kernel) (by decide +kernel)⟩

lemma start_ignored {b : ℕ} {s : Threads} (hidle : s.control = .idle) (halive : s.isAlive = true) :
    run (runLoop b) s [.start] = some s := by
  refine run_cons.mpr ⟨s, ?_, rfl⟩
  change s.startCall = some s
  rw [State.startCall, hidle, if_pos halive]

/-- When `start` has returned a thread serves, unless the call found the last one alive and told to stop: then it
has done nothing, and no batch begins until the next `start`, whatever else the one caller calls. -/
theorem start_lost_iff {batch_size : ℕ} {w : World} {ls₀ ls : List Event} {s t : Threads}
    (hs : run (runLoop batch_size) (initial w) ls₀ = some s) (hidle : s.control = .idle)
    (hls : ∀ l ∈ ls, quiet l = true) (hr : run (runLoop batch_size) s (.start :: ls) = some t)
    (ht : t.control = .idle) :
    (Serving t ↔ ¬ (s.stopped = true ∧ s.isAlive = true)) ∧
      (¬ Serving t → run (runLoop batch_size) s [.start] = some s ∧ ∀ ls', (∀ l ∈ ls', lasting l = true) →
        Along (runLoop batch_size) (fun s l => .invoke .shipper .shipBatch ∉ emitted .shipper .shipBatch s l) t ls') := by
  have hsound := sound_run (initial_sound w) hs
  rcases start_returned hsound hidle hls hr ht with ⟨hserving, hnot⟩ | ⟨hstop, hfound⟩
  · exact ⟨iff_of_true hserving hnot, fun h => (h hserving).elim⟩
  · refine ⟨iff_of_false hstop.not_serving fun h => h hfound, fun _ => ⟨?_, fun ls' hls' => ?_⟩⟩
    · apply start_ignored hidle hfound.2
    · exact stopping_begins_none (sound_run hsound hr) hstop hls'

theorem second_start_lost : ∃ t, run (runLoop 2) (initial (unshipped Resume.threeRows)) (stopInVain ++ [.start]) = some t ∧
    ¬ Serving t ∧ ∀ ls', (∀ l ∈ ls', lasting l = true) →
      Along (runLoop 2) (fun s l => .invoke .shipper .shipBatch ∉ emitted .shipper .shipBatch s l) t ls' := by
  obtain ⟨s, hs, hstate⟩ := exists_of_run_any (runLoop 2) (initial (unshipped Resume.threeRows)) stopInVain
    (fun s => s.control == .idle && s.stopped && s.isAlive) (by decide +kernel)
  rw [Bool.and_eq_true, Bool.and_eq_true, beq_iff_eq] at hstate
  obtain ⟨⟨hidle, hstopped⟩, halive⟩ := hstate
  have hcall := start_ignored (b := 2) hidle halive
  obtain ⟨hiff, hlost⟩ := start_lost_iff hs hidle (List.forall_mem_nil _) hcall hidle
  have hnot : ¬ Serving s := fun h => hiff.mp h ⟨hstopped, halive⟩
  exact ⟨s, run_append.mpr ⟨s, hs, hcall⟩, hnot, (hlost hnot).2⟩

end OpsSentry.Cluster.ShipperThreads
