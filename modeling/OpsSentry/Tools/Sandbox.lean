import OpsSentry.Foundation.Utf8
import OpsSentry.Tools.Registry

/-! `DirectRunner.execute` from the moment the command has ended: the outputs are cut on bytes and
decoded afterwards. A wait that is given up loses what it has read. -/

namespace OpsSentry.Tools

open Foundation Foundation.Utf8

structure DirectRunner where
  stdout_limit : ℕ
  stderr_limit : ℕ

namespace DirectRunner

def defaultStdoutBytes : ℕ := 1048576
def defaultStderrBytes : ℕ := 262144

/-- `limit or default`. -/
def limitOr (limit : Option ℕ) (default : ℕ) : ℕ :=
  match limit with
  | none | some 0 => default
  | some n => n

def init (stdout_limit stderr_limit : Option ℕ) : DirectRunner where
  stdout_limit := limitOr stdout_limit defaultStdoutBytes
  stderr_limit := limitOr stderr_limit defaultStderrBytes

/-- What a command writes to a pipe if the wait times out: the cancelled `communicate()` has read
`lost` from it and drops that, the second one returns the rest. -/
structure Interrupted where
  lost : List UInt8
  rest : List UInt8

/-- How the wait for the command ends, with what the command writes to its pipes. -/
inductive Ending
  | finished (returncode : Option ℤ) (stdout stderr : List UInt8)
  | timedOut (stdout stderr : Interrupted)
  | raised (message : String) (stdout stderr : List UInt8)

namespace Ending

def exitCode : Ending → ℤ
  | finished returncode _ _ => returncode.getD 0
  | timedOut _ _ => 124
  | raised _ _ _ => -1

def stdoutData : Ending → List UInt8
  | finished _ stdout _ => stdout
  | timedOut stdout _ => stdout.rest
  | raised _ _ _ => []

def stderrData : Ending → List UInt8
  | finished _ _ stderr => stderr
  | timedOut _ stderr => stderr.rest ++ encode "\n[ERROR] Command timed out".toList
  | raised message _ _ => encode ("\n[ERROR] Sandbox Exception: " ++ message).toList

/-- What the command has written and the runner does not get. -/
def stdoutLost : Ending → List UInt8
  | finished _ _ _ => []
  | timedOut stdout _ => stdout.lost
  | raised _ stdout _ => stdout

def stderrLost : Ending → List UInt8
  | finished _ _ _ => []
  | timedOut _ stderr => stderr.lost
  | raised _ _ stderr => stderr

def stdoutWritten (ending : Ending) : List UInt8 := ending.stdoutLost ++ ending.stdoutData

/-- With the note of the runner behind it, if there is one. -/
def stderrWritten (ending : Ending) : List UInt8 := ending.stderrLost ++ ending.stderrData

end Ending

def cut (limit : ℕ) (data : List UInt8) : List UInt8 := if limit < data.length then data.take limit else data

def execute (r : DirectRunner) (ending : Ending) (duration_ms : ℤ) : SandboxResult where
  exit_code := ending.exitCode
  stdout := String.ofList (decode (cut r.stdout_limit ending.stdoutData))
  stderr := String.ofList (decode (cut r.stderr_limit ending.stderrData))
  duration_ms := duration_ms
  truncated := decide (r.stdout_limit < ending.stdoutData.length)
  sandbox_mode := "direct"

/-- A text that stands for what was written, under a limit. -/
structure Capped (limit : ℕ) (written : List UInt8) (text : String) : Prop where
  bytes : text.utf8ByteSize ≤ limit
  unchanged : ∀ s : String, written = encode s.toList → written.length ≤ limit → text = s

structure OutputsCapped (r : DirectRunner) (ending : Ending) (result : SandboxResult) : Prop where
  stdout : Capped r.stdout_limit ending.stdoutWritten result.stdout
  stderr : Capped r.stderr_limit ending.stderrWritten result.stderr
  truncated : result.truncated = true ↔ r.stdout_limit < ending.stdoutWritten.length

/-- What is kept of an output leaves room for the replacement characters. -/
def Fits (limit : ℕ) (data : List UInt8) : Prop := (cut limit data).length + growth (cut limit data) ≤ limit

instance (limit : ℕ) (data : List UInt8) : Decidable (Fits limit data) :=
  inferInstanceAs (Decidable ((cut limit data).length + growth (cut limit data) ≤ limit))

/-- Of a text within the limit nothing is lost, unless what is left reads the same. -/
def Whole (limit : ℕ) (lost data : List UInt8) : Prop :=
  ∀ s : String, lost ++ data = encode s.toList → (lost ++ data).length ≤ limit → lost = [] ∨ Disguised lost data

def Condition (r : DirectRunner) (ending : Ending) : Prop :=
  (Fits r.stdout_limit ending.stdoutData ∧ Whole r.stdout_limit ending.stdoutLost ending.stdoutData) ∧
    (Fits r.stderr_limit ending.stderrData ∧ Whole r.stderr_limit ending.stderrLost ending.stderrData) ∧
    (r.stdout_limit < ending.stdoutWritten.length → r.stdout_limit < ending.stdoutData.length)

variable {limit : ℕ} {lost data : List UInt8}

lemma cut_eq_self (h : data.length ≤ limit) : cut limit data = data := if_neg (Nat.not_lt.mpr h)

lemma utf8ByteSize_decode (bs : List UInt8) :
    (String.ofList (decode bs)).utf8ByteSize = bs.length + growth bs := by
  rw [utf8ByteSize_ofList, size_decode]

lemma length_rest_le (h : (lost ++ data).length ≤ limit) : data.length ≤ limit := by
  rw [List.length_append] at h
  omega

lemma whole_kept_iff {s : String} (hwritten : lost ++ data = encode s.toList) (hlimit : (lost ++ data).length ≤ limit) :
    String.ofList (decode (cut limit data)) = s ↔ lost = [] ∨ Disguised lost data := by
  rw [cut_eq_self (length_rest_le hlimit), ← decode_rest_iff hwritten]
  constructor
  · rintro rfl
    simp
  · intro h
    rw [h, String.ofList_toList]

lemma capped_iff : Capped limit (lost ++ data) (String.ofList (decode (cut limit data))) ↔
    Fits limit data ∧ Whole limit lost data := by
  constructor
  · intro h
    refine ⟨by simpa only [Fits, utf8ByteSize_decode] using h.bytes, ?_⟩
    intro s hwritten hlimit
    exact (whole_kept_iff hwritten hlimit).mp (h.unchanged s hwritten hlimit)
  · rintro ⟨hfits, hwhole⟩
    refine ⟨by simpa only [Fits, utf8ByteSize_decode] using hfits, ?_⟩
    intro s hwritten hlimit
    exact (whole_kept_iff hwritten hlimit).mpr (hwhole s hwritten hlimit)

theorem outputs_capped_iff (stdout_limit stderr_limit : Option ℕ) (ending : Ending) (duration_ms : ℤ) :
    OutputsCapped (init stdout_limit stderr_limit) ending
        ((init stdout_limit stderr_limit).execute ending duration_ms) ↔
      Condition (init stdout_limit stderr_limit) ending := by
  generalize init stdout_limit stderr_limit = r
  constructor
  · intro h
    refine ⟨capped_iff.mp h.stdout, capped_iff.mp h.stderr, ?_⟩
    intro hlong
    simpa [execute] using h.truncated.mpr hlong
  · rintro ⟨hout, herr, hlong⟩
    refine ⟨capped_iff.mpr hout, capped_iff.mpr herr, ?_⟩
    simp only [execute, decide_eq_true_eq]
    refine ⟨fun h => ?_, hlong⟩
    rw [Ending.stdoutWritten, List.length_append]
    omega

/-- One byte that is no UTF-8, under a limit of one byte. -/
theorem invalid_byte_grows :
    ¬ OutputsCapped (init (some 1) (some 1)) (.finished (some 0) [0xFF] [])
      ((init (some 1) (some 1)).execute (.finished (some 0) [0xFF] []) 0) := by
  intro h
  have hfits : Fits 1 [0xFF] := (capped_iff.mp h.stdout).1
  revert hfits
  decide

lemma whole_nil : Whole limit [] data := fun _ _ _ => Or.inl rfl

/-- Under limits that the bytes fit into, a command that ends by itself loses nothing. -/
lemma condition_finished (r : DirectRunner) (returncode : Option ℤ) (stdout stderr : List UInt8) :
    Condition r (.finished returncode stdout stderr) ↔ Fits r.stdout_limit stdout ∧ Fits r.stderr_limit stderr := by
  simp [Condition, Ending.stdoutWritten, Ending.stdoutData, Ending.stderrData, Ending.stdoutLost, Ending.stderrLost,
    whole_nil]

/-- Valid output within the limit always fits. -/
lemma fits_encode {written : List Char} (h : (encode written).length ≤ limit) :
    Fits limit (encode written) := by
  rw [Fits, cut_eq_self h, growth_encode]
  exact h

end DirectRunner

end OpsSentry.Tools
