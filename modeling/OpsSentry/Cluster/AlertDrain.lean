import OpsSentry.Cluster.AlertEngine

/-! Where the alerts of the Redis buffer are, batch after batch. -/

namespace OpsSentry.Cluster.Alerts

open Foundation.Runs

/-! What a pipeline takes. -/

/-- The oldest alerts, oldest first. -/
def oldest (n : ℕ) (buffer : Buffer) : List String := buffer.reverse.take n

lemma oldest_concat (n : ℕ) (buffer : Buffer) (raw : String) :
    oldest (n + 1) (buffer ++ [raw]) = raw :: oldest n buffer := by
  rw [oldest, List.reverse_append, List.reverse_singleton, List.singleton_append, List.take_succ_cons, oldest]

lemma rpop_nil : rpop [] = (none, []) := rfl

lemma execute_concat (n : ℕ) (buffer : Buffer) (raw : String) :
    execute (n + 1) (buffer ++ [raw]) = (some raw :: (execute n buffer).1, (execute n buffer).2) := by
  rw [execute, rpop, List.getLast?_concat, List.dropLast_concat]

lemma execute_nil (n : ℕ) : execute n [] = (List.replicate n none, []) := by
  induction n with
  | zero => rfl
  | succ n ih => rw [execute, rpop_nil, ih, List.replicate_succ]

lemma execute_results (n : ℕ) (buffer : Buffer) :
    ∃ k, (execute n buffer).1 = (oldest n buffer).map some ++ List.replicate k none := by
  induction n generalizing buffer with
  | zero => exact ⟨0, by simp [execute, oldest]⟩
  | succ n ih =>
    rcases List.eq_nil_or_concat buffer with rfl | ⟨buffer, raw, rfl⟩
    · exact ⟨n + 1, by rw [execute_nil]; rfl⟩
    · obtain ⟨k, hk⟩ := ih buffer
      refine ⟨k, ?_⟩
      rw [List.concat_eq_append, oldest_concat, execute_concat, hk, List.map_cons, List.cons_append]

lemma execute_perm (n : ℕ) (buffer : Buffer) : buffer.Perm ((execute n buffer).2 ++ oldest n buffer) := by
  induction n generalizing buffer with
  | zero => simp [execute, oldest]
  | succ n ih =>
    rcases List.eq_nil_or_concat buffer with rfl | ⟨buffer, raw, rfl⟩
    · rw [execute_nil]
      rfl
    · rw [List.concat_eq_append, oldest_concat, execute_concat]
      refine (List.perm_append_singleton raw buffer).trans ?_
      exact ((ih buffer).cons raw).trans List.perm_middle.symm

/-! What the loop over the results makes of it. -/

section Collect

variable {valid : String → Bool}

/-- The valid events after the first string that is not one. -/
def missed (valid : String → Bool) : List String → List String
  | [] => []
  | raw :: popped => if raw = "" then missed valid popped else if valid raw then missed valid popped else popped.filter valid

/-- No valid event has been pushed after a malformed string. -/
def Orderly (valid : String → Bool) (popped : List String) : Prop :=
  popped.Pairwise fun raw later => raw ≠ "" → valid raw = false → valid later = false

lemma collect_none (k : ℕ) (found : Bool) (raw_events : List String) :
    collect valid (List.replicate k none) found raw_events = (raw_events, .found_any found) := by
  induction k with
  | zero => rfl
  | succ k ih => rw [List.replicate_succ, collect, ih]

lemma collect_missed (hempty : valid "" = false) (popped : List String) (k : ℕ) (found : Bool)
    (raw_events : List String) :
    (collect valid (popped.map some ++ List.replicate k none) found raw_events).1 ++ missed valid popped =
      raw_events ++ popped.filter valid := by
  induction popped generalizing found raw_events with
  | nil => simp [collect_none, missed]
  | cons raw popped ih =>
    rw [List.map_cons, List.cons_append, collect, missed]
    by_cases hraw : raw = ""
    · subst hraw
      rw [if_pos rfl, if_pos rfl, ih, List.filter_cons_of_neg (by simp [hempty])]
    · rw [if_neg hraw, if_neg hraw]
      by_cases hvalid : valid raw = true
      · rw [if_pos hvalid, if_pos hvalid, ih, List.filter_cons_of_pos hvalid, List.append_assoc, List.singleton_append]
      · rw [if_neg hvalid, if_neg hvalid, List.filter_cons_of_neg hvalid]

lemma missed_eq_nil_iff (popped : List String) :
    missed valid popped = [] ↔ Orderly valid popped := by
  induction popped with
  | nil => simp [missed, Orderly]
  | cons raw popped ih =>
    rw [missed, Orderly, List.pairwise_cons]
    by_cases hraw : raw = ""
    · rw [if_pos hraw, ih, Orderly]
      exact (and_iff_right fun later _ hne => absurd hraw hne).symm
    · rw [if_neg hraw]
      by_cases hvalid : valid raw = true
      · rw [if_pos hvalid, ih, Orderly]
        exact (and_iff_right fun later _ _ hnot => absurd hvalid (by simp [hnot])).symm
      · rw [if_neg hvalid, List.filter_eq_nil_iff]
        constructor
        · intro h
          have hnone : ∀ later ∈ popped, valid later = false := fun later hmem => by simpa using h later hmem
          exact ⟨fun later hmem _ _ => hnone later hmem,
            List.pairwise_of_forall_mem_list fun _ _ later hmem _ _ => hnone later hmem⟩
        · intro h later hmem
          simpa using h.1 later hmem hraw (by simpa using hvalid)

end Collect

/-! Every valid event has its place. -/

section Runs

variable {A : Type} [DecidableEq A] {valid : String → Bool} {w v t : World A} {a : A}
  {raw_events lost : List String}

/-- Where the valid events are, those included that are lost. -/
def Accounted (valid : String → Bool) (w : World A) (lost : List String) : Prop :=
  ∀ raw, (w.pushed.filter valid).count raw = (w.buffer.filter valid).count raw +
    (w.running.flatMap Prod.snd).count raw + (w.passed.flatMap Prod.snd).count raw + lost.count raw

/-- What a pipeline takes from the list and nobody gets. -/
def lostIn (valid : String → Bool) (w : World A) : Event A → List String
  | .emit _ => []
  | .begin _ => []
  | .execute _ fails => if fails then [] else missed valid (oldest batch_size w.buffer)

def losses (valid : String → Bool) : World A → List (Event A) → List String
  | _, [] => []
  | w, e :: events => lostIn valid w e ++ ((step valid w e).elim [] fun v => losses valid v events)

/-- No pipeline takes a valid event together with a malformed string that was pushed before it. -/
def Clean (valid : String → Bool) (w : World A) : Event A → Prop
  | .emit _ => True
  | .begin _ => True
  | .execute _ fails => fails = false → Orderly valid (oldest batch_size w.buffer)

omit [DecidableEq A] in
lemma accounted_start (buffer : Buffer) : Accounted valid (World.start buffer : World A) [] := by
  intro raw
  simp [World.start]

omit [DecidableEq A] in
lemma count_leave (w : World A) (a : A) (raw_events : List String) (raw : String) :
    ((w.leave a raw_events).passed.flatMap Prod.snd).count raw = (w.passed.flatMap Prod.snd).count raw + raw_events.count raw := by
  rw [World.leave]
  dsimp only
  split
  · rename_i hnil
    rw [hnil, List.count_nil, Nat.add_zero]
  · rw [List.flatMap_append, List.count_append, List.flatMap_singleton]

lemma count_erase (h : w.running.lookup a = some raw_events) (raw : String) :
    (w.running.flatMap Prod.snd).count raw =
    raw_events.count raw + ((w.running.erase (a, raw_events)).flatMap Prod.snd).count raw := by
  have hmem : (a, raw_events) ∈ w.running := by
    obtain ⟨xs, ys, hsplit, -⟩ := List.lookup_eq_some_iff.mp h
    rw [hsplit]
    exact List.mem_append_right _ List.mem_cons_self
  have hperm := (List.perm_cons_erase hmem).flatMap_right Prod.snd
  rw [hperm.count_eq raw, List.flatMap_cons, List.count_append]

lemma count_fetch (hempty : valid "" = false) (buffer : Buffer) (raw_events : List String) (raw : String) :
    ((execute batch_size buffer).2.filter valid).count raw +
        (collect valid (execute batch_size buffer).1 false raw_events).1.count raw +
        (missed valid (oldest batch_size buffer)).count raw =
      (buffer.filter valid).count raw + raw_events.count raw := by
  obtain ⟨k, hk⟩ := execute_results batch_size buffer
  have htaken := ((execute_perm batch_size buffer).filter valid).count_eq raw
  have hcollect := congrArg (List.count raw) (collect_missed hempty (oldest batch_size buffer) k false raw_events)
  rw [← hk] at hcollect
  simp only [List.filter_append, List.count_append] at htaken hcollect
  omega

lemma accounted_fetch (hempty : valid "" = false) (h : Accounted valid w lost)
    (hrunning : w.running.lookup a = some raw_events) :
    Accounted valid (fetch valid w a raw_events) (lost ++ missed valid (oldest batch_size w.buffer)) := by
  intro raw
  have hbefore := h raw
  have herase := count_erase hrunning raw
  have hfetch := count_fetch hempty w.buffer raw_events raw
  rw [fetch]
  generalize collect valid (execute batch_size w.buffer).1 false raw_events = got at hfetch ⊢
  obtain ⟨gathered, outcome⟩ := got
  rw [List.count_append]
  cases outcome with
  | raised =>
    dsimp only at hfetch ⊢
    rw [count_leave]
    dsimp only [World.leave]
    omega
  | found_any found =>
    dsimp only at hfetch ⊢
    split
    · rw [count_leave]
      dsimp only [World.leave]
      omega
    · dsimp only
      rw [List.flatMap_cons, List.count_append]
      dsimp only
      omega

lemma accounted_step {e : Event A} (hempty : valid "" = false) (h : Accounted valid w lost)
    (hstep : step valid w e = some v) :
    Accounted valid v (lost ++ lostIn valid w e) := by
  cases e with
  | emit raw =>
    cases hstep
    intro other
    have hbefore := h other
    rw [lostIn, List.append_nil, lpush]
    dsimp only
    by_cases hraw : valid raw = true
    · rw [List.filter_cons_of_pos hraw, List.filter_cons_of_pos hraw, List.count_cons, List.count_cons]
      omega
    · rw [List.filter_cons_of_neg hraw, List.filter_cons_of_neg hraw]
      exact hbefore
  | begin a =>
    rw [step] at hstep
    split at hstep
    · cases hstep
    · cases hstep
      intro raw
      rw [lostIn, List.append_nil, List.flatMap_cons, List.nil_append]
      exact h raw
  | execute a fails =>
    rw [step] at hstep
    split at hstep
    · cases hstep
    · rename_i raw_events hrunning
      cases fails with
      | true =>
        cases hstep
        intro raw
        have hbefore := h raw
        have herase := count_erase hrunning raw
        rw [lostIn, if_pos rfl, List.append_nil, count_leave]
        dsimp only [World.leave]
        omega
      | false =>
        cases hstep
        rw [lostIn, if_neg Bool.false_ne_true]
        exact accounted_fetch hempty h hrunning

lemma accounted_run {events : List (Event A)} (hempty : valid "" = false) (h : Accounted valid w lost)
    (hrun : run (step valid) w events = some t) : Accounted valid t (lost ++ losses valid w events) := by
  induction events generalizing w lost with
  | nil =>
    cases hrun
    rw [losses, List.append_nil]
    exact h
  | cons e events ih =>
    obtain ⟨v, hstep, hrun⟩ := run_cons.mp hrun
    rw [losses, hstep, ← List.append_assoc]
    exact ih (accounted_step hempty h hstep) hrun

omit [DecidableEq A] in
lemma lostIn_eq_nil_iff (w : World A) (e : Event A) : lostIn valid w e = [] ↔ Clean valid w e := by
  cases e with
  | emit raw => exact iff_of_true rfl trivial
  | begin a => exact iff_of_true rfl trivial
  | execute a fails =>
    rw [lostIn, Clean]
    cases fails with
    | true => exact iff_of_true rfl nofun
    | false => exact (missed_eq_nil_iff _).trans ⟨fun h _ => h, fun h => h rfl⟩

lemma losses_eq_nil_iff (w : World A) (events : List (Event A)) :
    losses valid w events = [] ↔ Along (step valid) (Clean valid) w events := by
  induction events generalizing w with
  | nil => exact iff_of_true rfl trivial
  | cons e events ih =>
    rw [losses, Along, List.append_eq_nil_iff, lostIn_eq_nil_iff]
    refine and_congr_right fun _ => ?_
    cases hstep : step valid w e with
    | none => simp
    | some v =>
      rw [Option.elim_some, ih]
      exact ⟨fun h t ht => Option.some.inj ht ▸ h, fun h => h v rfl⟩

omit [DecidableEq A] in
/-- Outside of a `_process_batch`, what is lost is all that is missing. -/
lemma kept_iff_nil (h : Accounted valid w lost) (hquiet : w.running = []) : Kept valid w ↔ lost = [] := by
  have hcount (raw : String) : (w.pushed.filter valid).count raw =
      (w.buffer.filter valid ++ w.passed.flatMap Prod.snd).count raw + lost.count raw := by
    have hbefore := h raw
    rw [hquiet, List.flatMap_nil, List.count_nil] at hbefore
    rw [List.count_append]
    omega
  constructor
  · intro hkept
    rw [List.eq_nil_iff_forall_not_mem]
    intro raw hmem
    have hpos := List.count_pos_iff.mpr hmem
    have hsame := hkept.count_eq raw
    have hall := hcount raw
    omega
  · rintro rfl
    exact List.perm_iff_count.mpr fun raw => by simpa using hcount raw

/-- The drain keeps every valid event exactly if no batch holds one behind a malformed string. -/
theorem kept_iff {buffer : Buffer} {events : List (Event A)} (hempty : valid "" = false)
    (hrun : run (step valid) (World.start buffer) events = some t) (hquiet : t.running = []) :
    Kept valid t ↔ Along (step valid) (Clean valid) (World.start buffer) events := by
  rw [kept_iff_nil (accounted_run hempty (accounted_start buffer) hrun) hquiet, List.nil_append]
  exact losses_eq_nil_iff _ _

def died : String := "\x7b\"type\":\"NODE_DEAD\",\"source\":\"node-1\",\"message\":\"\"\x7d"

lemma execute_one (e : String) : execute batch_size [e] = (some e :: List.replicate 999 none, []) := by
  change execute (999 + 1) ([] ++ [e]) = _
  rw [execute_concat, execute_nil]

lemma execute_two (e x : String) :
    execute batch_size [e, x] = (some x :: some e :: List.replicate 998 none, []) := by
  change execute (998 + 1 + 1) ([] ++ [e] ++ [x]) = _
  rw [execute_concat, execute_concat, execute_nil]

lemma run_one {e : String} (he : e ≠ "") (hvalid : valid e = true) :
    run (step valid) (World.start [e] : World ℕ) [.begin 0, .execute 0 false, .execute 0 false] =
      some ⟨[], [], [(0, [e])], [e]⟩ := by
  have hsize : ¬ 1000 < batch_size := Nat.lt_irrefl 1000
  simp [-List.reduceReplicate, run, step, fetch, World.start, World.leave, execute_one, execute_nil, collect, collect_none, he,
    hvalid, hsize]

theorem one_alert_orderly :
    Along (step fun raw => raw = died) (Clean fun raw => raw = died) (World.start [died] : World ℕ)
    [.begin 0, .execute 0 false, .execute 0 false] :=
  (kept_iff (by decide) (run_one (by decide) (by decide)) rfl).mp (List.Perm.refl _)

lemma run_raised {e x : String} (hx : x ≠ "") (hvalid : valid x = false) :
    run (step valid) (World.start [e, x] : World ℕ) [.begin 0, .execute 0 false] = some ⟨[], [], [], [e, x]⟩ := by
  simp [-List.reduceReplicate, run, step, fetch, World.start, World.leave, execute_two, collect, hx, hvalid]

/-- The alert that stands behind a malformed string is popped with it, and nobody gets it. -/
theorem malformed_hides_alert : ¬ ∀ (buffer : Buffer) (events : List (Event ℕ)) (t : World ℕ),
    run (step fun raw => raw = died) (World.start buffer) events = some t → t.running = [] →
      Kept (fun raw => raw = died) t := by
  intro h
  have hkept := h [died, "x"] _ _ (run_raised (by decide) (by decide)) rfl
  have hlength := hkept.length_eq
  simp [died] at hlength

end Runs

end OpsSentry.Cluster.Alerts
