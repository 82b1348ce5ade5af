import OpsSentry.Tools.Registry

/-! Path approval against what the sandbox opens: the check reads a command in the directory
of the server, the sandbox runs it in `workdir`. -/

namespace OpsSentry.Tools

open Foundation.Dicts Foundation.PosixPath Foundation.Programs Foundation.Values

def NoExecute : Command → Prop
  | .execute _ => False
  | .ledger _ => True

/-- The directory the sandbox runs in: `workdir` when given, else that of the server. A value
that is no path starts nothing. -/
def sandboxDir (cwd : AbsPath) (args : Dict) : Option AbsPath :=
  match (args.lookup (.text "workdir")).getD .null with
  | .null => some cwd
  | .str workdir => resolveToken cwd workdir
  | _ => none

def Opens (cwd : AbsPath) (args : Dict) (command p : String) : Prop :=
  ∃ words dir, Foundation.Shlex.split command = some words ∧ sandboxDir cwd args = some dir ∧
    ∃ token ∈ words, ∃ path, resolveToken dir token = some path ∧ (resolve AbsPath.root p).Below path

/-- Some absolute protected path is opened. -/
def OpensProtected (cwd : AbsPath) (args : Dict) (command : String) : Prop :=
  ∃ p ∈ REQUIRE_APPROVAL_PATHS, IsAbsolute p ∧ Opens cwd args command p

def Covered (r : ToolRegistry) (args : Dict) (command : String) : Prop :=
  OpensProtected r.cwd args command → (r.dispatch "bash" args).Issues NoExecute

/-- Some word contains an approval path, or its resolution in the directory of the server
starts with the characters of one. -/
def SeenFromServer (cwd : AbsPath) (command : String) : Prop :=
  ∃ words, Foundation.Shlex.split command = some words ∧ ∃ token ∈ words, ∃ p ∈ REQUIRE_APPROVAL_PATHS,
    p.toList <:+: token.toList ∨
      ∃ path, resolveToken cwd token = some path ∧ (resolve cwd p).chars <+: path.chars

/-- When approval keeps its promise. -/
def CoverCondition (r : ToolRegistry) (args : Dict) (command : String) : Prop :=
  ¬ OpensProtected r.cwd args command ∨ r.disabled "bash" = true ∨ isGloballyDenied command = true ∨
    SeenFromServer r.cwd command

lemma tokenNeedsApproval_iff {cwd : AbsPath} {token p : String} :
    tokenNeedsApproval cwd token p = true ↔ p.toList <:+: token.toList ∨
      ∃ path, resolveToken cwd token = some path ∧ (resolve cwd p).chars <+: path.chars := by
  rw [tokenNeedsApproval]
  rw [Bool.or_eq_true, decide_eq_true_eq]
  cases resolveToken cwd token <;> simp

lemma requiresApproval_iff {cwd : AbsPath} {command : String} :
    requiresApproval cwd command = true ↔
      Foundation.Shlex.split command = none ∨ SeenFromServer cwd command := by
  rw [requiresApproval, SeenFromServer]
  cases Foundation.Shlex.split command with
  | none => simp
  | some words => simp [tokenNeedsApproval_iff]

lemma denied_of_split_none {command : String} (h : Foundation.Shlex.split command = none) :
    isGloballyDenied command = true := by
  rw [isGloballyDenied, h, Bool.or_true]

lemma ledger_noExecute {α : Type} (p : Ledger.Code α) : (ledger p).Issues NoExecute :=
  Prog.Issues.lift (Prog.issues_of_forall (fun _ => trivial) p)

lemma dispatchSandbox_executes (x : Execution) : ¬ (ToolRegistry.dispatchSandbox x).Issues NoExecute := by
  intro h
  have hmark : ∀ i, Ledger.markRunning i none = Ledger.transitionTo i .running none none :=
    fun i => Ledger.transition_text i .running none none
  simp only [ToolRegistry.dispatchSandbox, hmark] at h
  -- a ledger that answers every call leads straight to the sandbox
  have entry : Ledger.LedgerEntry := ⟨"", "", .pending, [], 0, 0, none, [], none⟩
  have hcreated := (((((h.2 "").2 (.ok none)).2 (0 : Int64)).2 (0 : Int64)).2 (.ok ())).2 (.ok (some entry))
  have hrunning := ((hcreated.2 (0 : Int64)).2 (.ok true)).2 (.ok (some entry))
  exact hrunning.1

lemma dispatch_noExecute_iff {r : ToolRegistry} {args : Dict} {command : String}
    (hc : (args.lookup (.text "command")).getD (.str "") = .str command) :
    (r.dispatch "bash" args).Issues NoExecute ↔
      r.disabled "bash" = true ∨ isGloballyDenied command = true ∨ requiresApproval r.cwd command = true := by
  have hdispatch : r.dispatch "bash" args =
      if r.disabled "bash" then throw (.toolDisabled "bash") else r.dispatchCommand "bash" command args := by
    simp [ToolRegistry.dispatch, hc]
  rw [hdispatch]
  by_cases hd : r.disabled "bash" = true
  · simp [hd, Prog.Issues]
  by_cases hg : isGloballyDenied command = true
  · simp only [hd, hg, ToolRegistry.dispatchCommand]
    simp only [Bool.false_eq_true, ↓reduceIte, true_or, or_true, iff_true]
    exact (ledger_noExecute _).bind fun _ => trivial
  by_cases ha : requiresApproval r.cwd command = true
  · simp only [hd, hg, ha, ToolRegistry.dispatchCommand]
    simp only [Bool.false_eq_true, ↓reduceIte, or_true, iff_true]
    exact (ledger_noExecute _).bind fun _ => trivial
  · simp only [hd, hg, ha, ToolRegistry.dispatchCommand]
    simp only [Bool.false_eq_true, ↓reduceIte, or_self, iff_false]
    exact dispatchSandbox_executes _

lemma seen_of_opens {cwd : AbsPath} {args : Dict} {command : String} (hdir : sandboxDir cwd args = some cwd)
    (h : OpensProtected cwd args command) : SeenFromServer cwd command := by
  obtain ⟨p, hp, habs, words, dir, hsplit, hdir', token, htoken, path, hpath, hbelow⟩ := h
  rw [hdir] at hdir'
  cases hdir'
  rw [resolve_of_isAbsolute habs AbsPath.root cwd] at hbelow
  exact ⟨words, hsplit, token, htoken, p, hp, Or.inr ⟨path, hpath, AbsPath.chars_prefix hbelow⟩⟩

section Calls

def server : ToolRegistry := ⟨⟨["srv", "app"], by decide⟩, OrderedDict.empty⟩

def upward : String := "cat ../../etc/nginx/./nginx.conf"

/-- The same file, named from a working directory that the check does not look at. -/
def inNginx : Dict := [("command", .str "cat nginx.conf"), ("workdir", .str "/etc/nginx")]

end Calls

end OpsSentry.Tools
