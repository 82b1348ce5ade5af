import OpsSentry.Agent.ToolResults
import OpsSentry.Foundation.Lines
import OpsSentry.Foundation.PosixPath
import OpsSentry.Foundation.Utf8

/-! `agent_key_vault.py`: the API key of an agent, from the secrets of the agent, the secrets of its
account and the environment. -/

namespace OpsSentry.Agent.KeyVault

open Foundation Foundation.JsonText Foundation.JsonLoads Foundation.PosixPath
open Foundation.Lines (newlines newlines_self)
open ToolResults (zerosInterpreter)

/-- A path. `exists` raises where `stat` is refused (a directory that may not be searched, a name that
is too long); reading may fail with an `IOError`. -/
inductive File
  | absent
  | refused
  | failing
  | content (bytes : List UInt8)

inductive Exc
  | os
  | unicodeDecode
  | loads (e : LoadsError)
  | type
  | key (arg : Str)
deriving DecidableEq

structure AgentKeySet (F : Type) where
  agent_did : String
  provider : Str
  api_key : Json (Number F)
  api_base : Json (Number F)
  extra : List (Str × Json (Number F))

def ENV_KEY_MAP : List (Str × String) :=
  [(str "openai", "OPENAI_API_KEY"), (str "claude", "ANTHROPIC_API_KEY"), (str "qwen", "DASHSCOPE_API_KEY"),
    (str "moonshot", "MOONSHOT_API_KEY"), (str "zhipu", "ZHIPU_API_KEY"), (str "minimax", "MINIMAX_API_KEY")]

def agentSecrets (accio_home : Parts) (uid did : String) : Parts :=
  ["accounts", uid, "agents", did, "agent-core", "secrets.json"].foldl joined accio_home

def accountSecrets (accio_home : Parts) (uid : String) : Parts :=
  ["accounts", uid, "secrets.json"].foldl joined accio_home

def envVar (provider : Str) : String := (ENV_KEY_MAP.lookup provider).getD ""

def notFound (did : String) (provider : Str) : Str :=
  str ("No API key found for agent=" ++ did ++ ", provider=") ++ provider ++
    str (". Checked: agent secrets, account secrets, env $" ++ envVar provider)

section Vault

variable {F : Type} {fl : Floats F} (py : Interpreter fl) (zero : F → Bool)

/-- What is no JSON and what cannot be read is no secrets file. -/
def loadSecrets : File → Except Exc (Option (Json (Number F)))
  | .absent | .failing => .ok none
  | .refused => .error .os
  | .content bytes =>
    match Utf8.decodeStrict bytes with
    | none => .error .unicodeDecode
    | some text =>
      match py.loads (newlines text) with
      | .ok secrets => .ok (some secrets)
      | .error .decode => .ok none
      | .error e => .error (.loads e)

def truthy : Json (Number F) → Bool
  | .null => false
  | .bool b => b
  | .int n => n ≠ 0
  | .float (.finite x) => !zero x
  | .float _ => true
  | .str s => !s.isEmpty
  | .arr xs => !xs.isEmpty
  | .obj kvs => !kvs.isEmpty

def isProvider (provider : Str) : Json (Number F) → Bool
  | .str s => s = provider
  | _ => false

/-- `provider in secrets`: a key, an element or a part. -/
def contains (provider : Str) : Json (Number F) → Except Exc Bool
  | .obj kvs => .ok (kvs.lookup provider).isSome
  | .arr xs => .ok (xs.any (isProvider provider))
  | .str s => .ok (provider <:+: s)
  | _ => .error .type

def item (provider : Str) : Json (Number F) → Except Exc (Json (Number F))
  | .obj kvs =>
    match kvs.lookup provider with
    | some config => .ok config
    | none => .error (.key provider)
  | _ => .error .type

def buildKeySet (did : String) (provider : Str) : Json (Number F) → Except Exc (AgentKeySet F)
  | .str config => .ok ⟨did, provider, .str config, .null, []⟩
  | .obj config =>
    match config.lookup (str "api_key") with
    | some api_key =>
      .ok ⟨did, provider, api_key, (config.lookup (str "api_base")).getD .null,
        config.filter fun p => p.1 ≠ str "api_key" ∧ p.1 ≠ str "api_base"⟩
    | none => .error (.key (str "api_key"))
  | _ => .error .type

/-- What the secrets of one level give; `none` where the next level is asked. -/
def fromSecrets (did : String) (provider : Str) : Option (Json (Number F)) → Except Exc (Option (AgentKeySet F))
  | none => .ok none
  | some secrets =>
    if truthy zero secrets then do
      if ← contains provider secrets then
        let config ← item provider secrets
        let keys ← buildKeySet did provider config
        pure (some keys)
      else pure none
    else .ok none

def fromEnviron (environ : String → Option Str) (did : String) (provider : Str) : Except Exc (AgentKeySet F) :=
  let env_val := if envVar provider = "" then [] else (environ (envVar provider)).getD []
  if env_val ≠ [] then .ok ⟨did, provider, .str env_val, .null, []⟩ else .error (.key (notFound did provider))

def resolveKeys (files : Parts → File) (environ : String → Option Str) (accio_home : Parts) (uid did : String)
    (provider : Str) : Except Exc (AgentKeySet F) := do
  let agent_secrets ← loadSecrets py (files (agentSecrets accio_home uid did))
  match ← fromSecrets zero did provider agent_secrets with
  | some keys => pure keys
  | none =>
    let account_secrets ← loadSecrets py (files (accountSecrets accio_home uid))
    match ← fromSecrets zero did provider account_secrets with
    | some keys => pure keys
    | none => fromEnviron environ did provider

end Vault

section Property

variable {F : Type} {fl : Floats F} (py : Interpreter fl) (zero : F → Bool)

/-- The JSON value in a file, if there is one. -/
def document : File → Option (Json (Number F))
  | .absent | .refused | .failing => none
  | .content bytes => (Utf8.decodeStrict bytes).bind fun text => (py.loads (newlines text)).toOption

/-- A usable entry is a string, or an object with an `api_key`. -/
def entryKey : Json (Number F) → Option (Json (Number F))
  | .str s => some (.str s)
  | .obj config => config.lookup (str "api_key")
  | _ => none

def fileKey (provider : Str) (file : File) : Option (Json (Number F)) :=
  match document py file with
  | some (.obj kvs) => (kvs.lookup provider).bind entryKey
  | _ => none

/-- A variable that is empty holds no key. -/
def environKey (environ : String → Option Str) (provider : Str) : Option (Json (Number F)) :=
  (ENV_KEY_MAP.lookup provider).bind fun env_var => ((environ env_var).filter (· ≠ [])).map .str

def FallsThrough (files : Parts → File) (environ : String → Option Str) (accio_home : Parts) (uid did : String)
    (provider : Str) : Prop :=
  match fileKey py provider (files (agentSecrets accio_home uid did)) <|>
      fileKey py provider (files (accountSecrets accio_home uid)) <|> environKey environ provider with
  | some api_key => ∃ keys, resolveKeys py zero files environ accio_home uid did provider = .ok keys ∧
      keys.api_key = api_key
  | none => resolveKeys py zero files environ accio_home uid did provider = .error (.key (notFound did provider))

/-- An object without an unusable entry for the provider, a list without its name, a text without it,
or what counts as false. -/
def Passable (provider : Str) : Json (Number F) → Prop
  | .null => True
  | .bool b => b = false
  | .int n => n = 0
  | .float (.finite x) => zero x = true
  | .float _ => False
  | .str s => s = [] ∨ ¬ provider <:+: s
  | .arr xs => .str provider ∉ xs
  | .obj kvs => ∀ config, kvs.lookup provider = some config → entryKey config ≠ none

/-- A file that does not hide the levels below it, unless by a usable entry. -/
def Harmless (provider : Str) : File → Prop
  | .absent | .failing => True
  | .refused => False
  | .content bytes => ∃ text, Utf8.decodeStrict bytes = some text ∧
      match py.loads (newlines text) with
      | .ok secrets => Passable zero provider secrets
      | .error e => e = .decode

end Property

section Entries

variable {F : Type} {zero : F → Bool} {did : String} {provider : Str} {secrets config api_key : Json (Number F)}
  {kvs : List (Str × Json (Number F))}

/-- No other `KeyError` has this argument. -/
lemma notFound_ne : notFound did provider ≠ str "api_key" := by
  intro h
  have hhead := congrArg List.head? h
  simp [notFound, str] at hhead

lemma buildKeySet_usable (h : entryKey config = some api_key) :
    ∃ keys, buildKeySet did provider config = .ok keys ∧ keys.api_key = api_key := by
  cases config with
  | str s =>
    cases h
    exact ⟨_, rfl, rfl⟩
  | obj kvs =>
    rw [entryKey] at h
    rw [buildKeySet, h]
    exact ⟨_, rfl, rfl⟩
  | _ => cases h

lemma buildKeySet_unusable (h : entryKey config = none) :
    ∃ e, buildKeySet did provider config = .error e ∧ e ≠ .key (notFound did provider) := by
  cases config with
  | str s => cases h
  | obj kvs =>
    rw [entryKey] at h
    rw [buildKeySet, h]
    refine ⟨_, rfl, ?_⟩
    intro heq
    exact notFound_ne (Exc.key.inj heq).symm
  | _ => exact ⟨.type, rfl, nofun⟩

lemma fromSecrets_false (h : truthy zero secrets = false) :
    fromSecrets zero did provider (some secrets) = .ok none := by
  rw [fromSecrets, h]
  rfl

lemma fromSecrets_lacking (h : contains provider secrets = .ok false) :
    fromSecrets zero did provider (some secrets) = .ok none := by
  cases htrue : truthy zero secrets with
  | false => exact fromSecrets_false htrue
  | true =>
    rw [fromSecrets, if_pos htrue, h]
    rfl

lemma fromSecrets_raising {e : Exc} (htrue : truthy zero secrets = true) (h : contains provider secrets = .error e) :
    fromSecrets zero did provider (some secrets) = .error e := by
  rw [fromSecrets, if_pos htrue, h]
  rfl

lemma fromSecrets_found (htrue : truthy zero secrets = true) (h : contains provider secrets = .ok true) :
    fromSecrets zero did provider (some secrets) =
      (item provider secrets >>= buildKeySet did provider).map some := by
  rw [fromSecrets, if_pos htrue, h]
  change (item provider secrets >>= fun config => buildKeySet did provider config >>= fun keys => pure (some keys)) = _
  cases item provider secrets with
  | error e => rfl
  | ok config =>
    change (buildKeySet did provider config >>= fun keys => pure (some keys)) =
      (buildKeySet did provider config).map some
    cases buildKeySet did provider config <;> rfl

lemma fromSecrets_entry (h : kvs.lookup provider = some config) :
    fromSecrets zero did provider (some (.obj kvs)) = (buildKeySet did provider config).map some := by
  have hne : kvs ≠ [] := by
    rintro rfl
    cases h
  have htrue : truthy zero (.obj kvs) = true := by simpa [truthy] using hne
  have hcontains : contains provider (.obj kvs) = .ok true := by rw [contains, h, Option.isSome_some]
  have hitem : item provider (.obj kvs) = .ok config := by rw [item, h]
  rw [fromSecrets_found htrue hcontains, hitem]
  rfl

lemma isProvider_iff : isProvider provider config = true ↔ config = .str provider := by
  cases config <;> simp [isProvider]

lemma contains_arr (xs : List (Json (Number F))) :
    contains provider (.arr xs) = .ok true ↔ .str provider ∈ xs := by
  rw [contains, Except.ok.injEq, List.any_eq_true]
  constructor
  · rintro ⟨x, hx, hprovider⟩
    exact isProvider_iff.mp hprovider ▸ hx
  · intro h
    exact ⟨_, h, isProvider_iff.mpr rfl⟩

/-- What is found in no object cannot be looked up there. -/
lemma fromSecrets_found_error (htrue : truthy zero secrets = true) (h : contains provider secrets = .ok true)
    (hsecrets : ∀ kvs, secrets ≠ .obj kvs) : fromSecrets zero did provider (some secrets) = .error .type := by
  rw [fromSecrets_found htrue h]
  cases secrets with
  | obj kvs => exact (hsecrets kvs rfl).elim
  | _ => rfl

/-- Without a usable entry, secrets that hide nothing give nothing. -/
lemma fromSecrets_passable (h : Passable zero provider secrets)
    (hunusable : ∀ kvs config, secrets = .obj kvs → kvs.lookup provider = some config → entryKey config = none) :
    fromSecrets zero did provider (some secrets) = .ok none := by
  cases secrets with
  | null => exact fromSecrets_false rfl
  | bool b => exact fromSecrets_false h
  | int n => exact fromSecrets_false (decide_eq_false (not_not.mpr h))
  | float x =>
    cases x with
    | finite x =>
      apply fromSecrets_false
      rw [truthy, h]
      rfl
    | _ => exact h.elim
  | str s =>
    rcases h with rfl | h
    · exact fromSecrets_false rfl
    · apply fromSecrets_lacking
      rw [contains, decide_eq_false h]
  | arr xs =>
    apply fromSecrets_lacking
    cases hany : xs.any (isProvider provider) with
    | false => rw [contains, hany]
    | true => exact (h (contains_arr xs |>.mp (by rw [contains, hany]))).elim
  | obj kvs =>
    apply fromSecrets_lacking
    rw [contains]
    cases hlook : kvs.lookup provider with
    | none => rfl
    | some config => exact (h config hlook (hunusable kvs config rfl hlook)).elim

lemma fromSecrets_hiding (h : ¬ Passable zero provider secrets) :
    ∃ e, fromSecrets zero did provider (some secrets) = .error e ∧ e ≠ .key (notFound did provider) := by
  cases secrets with
  | null => exact (h trivial).elim
  | bool b =>
    have htrue : truthy zero (.bool b) = true := by simpa [Passable, truthy] using h
    exact ⟨.type, fromSecrets_raising htrue rfl, nofun⟩
  | int n => exact ⟨.type, fromSecrets_raising (decide_eq_true h) rfl, nofun⟩
  | float x =>
    cases x with
    | finite x =>
      have htrue : truthy zero (.float (.finite x)) = true := by simpa [Passable, truthy] using h
      exact ⟨.type, fromSecrets_raising htrue rfl, nofun⟩
    | _ => exact ⟨.type, fromSecrets_raising rfl rfl, nofun⟩
  | str s =>
    obtain ⟨hne, hpart⟩ := not_or.mp h
    have htrue : truthy zero (.str s) = true := by simpa [truthy] using hne
    have hcontains : contains provider (.str s : Json (Number F)) = .ok true := by
      rw [contains, decide_eq_true (not_not.mp hpart)]
    exact ⟨.type, fromSecrets_found_error htrue hcontains nofun, nofun⟩
  | arr xs =>
    have hmem : .str provider ∈ xs := not_not.mp h
    have htrue : truthy zero (.arr xs) = true := by simpa [truthy] using List.ne_nil_of_mem hmem
    exact ⟨.type, fromSecrets_found_error htrue ((contains_arr xs).mpr hmem) nofun, nofun⟩
  | obj kvs =>
    rw [Passable] at h
    push Not at h
    obtain ⟨config, hlook, hunusable⟩ := h
    obtain ⟨e, he, hne⟩ := @buildKeySet_unusable F did provider config hunusable
    refine ⟨e, ?_, hne⟩
    rw [fromSecrets_entry hlook, he]
    rfl

end Entries

section Levels

variable {F : Type} {fl : Floats F} {py : Interpreter fl} {zero : F → Bool} {did : String} {provider : Str}
  {file : File} {api_key : Json (Number F)}

variable (py zero did provider) in
/-- One level of the chain: its file is loaded and asked. -/
def fromFile (file : File) : Except Exc (Option (AgentKeySet F)) :=
  loadSecrets py file >>= fromSecrets zero did provider

lemma loadSecrets_content {bytes : List UInt8} {text : List Char} (htext : Utf8.decodeStrict bytes = some text) :
    loadSecrets py (.content bytes) = match py.loads (newlines text) with
      | .ok secrets => .ok (some secrets)
      | .error .decode => .ok none
      | .error e => .error (.loads e) := by
  rw [loadSecrets, htext]

lemma loadSecrets_document {secrets : Json (Number F)} (h : document py file = some secrets) :
    loadSecrets py file = .ok (some secrets) := by
  cases file with
  | content bytes =>
    obtain ⟨text, htext, hloads⟩ := Option.bind_eq_some_iff.mp h
    cases hread : py.loads (newlines text) with
    | error e =>
      rw [hread] at hloads
      cases hloads
    | ok x =>
      rw [hread] at hloads
      cases hloads
      rw [loadSecrets_content htext, hread]
  | _ => cases h

lemma document_content {bytes : List UInt8} {text : List Char} {secrets : Json (Number F)}
    (htext : Utf8.decodeStrict bytes = some text) (hread : py.loads (newlines text) = .ok secrets) :
    document py (.content bytes) = some secrets := by
  rw [document, htext, Option.bind_some, hread]
  rfl

/-- Secrets that `json.dumps` has written are read back. -/
lemma document_dumps {secrets : Json F} (h : Readable ValidStr py.limit secrets) :
    document py (.content (Utf8.encode (JsonText.dumps fl secrets))) = some (lift secrets) := by
  have hreturn : '\r' ∉ JsonText.dumps fl secrets := (printable_dumps fl secrets).notMem (by decide)
  rw [document, Utf8.decodeStrict_encode, Option.bind_some, newlines_self hreturn, loads_dumps py h]
  rfl

lemma fromFile_entry {kvs : List (Str × Json (Number F))} {config : Json (Number F)}
    (hdocument : document py file = some (.obj kvs)) (h : kvs.lookup provider = some config) :
    fromFile py zero did provider file = (buildKeySet did provider config).map some := by
  rw [fromFile, loadSecrets_document hdocument]
  exact fromSecrets_entry h

lemma fromFile_usable (h : fileKey py provider file = some api_key) :
    ∃ keys, fromFile py zero did provider file = .ok (some keys) ∧ keys.api_key = api_key := by
  rw [fileKey] at h
  split at h
  · rename_i kvs hdocument
    obtain ⟨config, hlook, hkey⟩ := Option.bind_eq_some_iff.mp h
    obtain ⟨keys, hkeys, rfl⟩ := @buildKeySet_usable F did provider config _ hkey
    refine ⟨keys, ?_, rfl⟩
    rw [fromFile_entry hdocument hlook, hkeys]
    rfl
  · cases h

/-- A file that hides nothing and holds no usable entry leaves the choice to the next level. -/
lemma fromFile_harmless (h : Harmless py zero provider file) (hunusable : fileKey py provider file = none) :
    fromFile py zero did provider file = .ok none := by
  cases file with
  | content bytes =>
    obtain ⟨text, htext, hloads⟩ := h
    cases hread : py.loads (newlines text) with
    | error e =>
      rw [hread] at hloads
      cases hloads
      rw [fromFile, loadSecrets_content htext, hread]
      rfl
    | ok secrets =>
      rw [hread] at hloads
      have hdocument := document_content htext hread
      rw [fromFile, loadSecrets_document hdocument]
      change fromSecrets zero did provider (some secrets) = _
      apply fromSecrets_passable hloads
      rintro kvs config rfl hlook
      rw [fileKey, hdocument] at hunusable
      dsimp only at hunusable
      rwa [hlook] at hunusable
  | refused => exact h.elim
  | _ => rfl

lemma fromFile_harmful (h : ¬ Harmless py zero provider file) :
    ∃ e, fromFile py zero did provider file = .error e ∧ e ≠ .key (notFound did provider) := by
  cases file with
  | content bytes =>
    cases htext : Utf8.decodeStrict bytes with
    | none =>
      refine ⟨.unicodeDecode, ?_, nofun⟩
      rw [fromFile, loadSecrets, htext]
      rfl
    | some text =>
      cases hread : py.loads (newlines text) with
      | error e =>
        have he : e ≠ .decode := by
          rintro rfl
          exact h ⟨text, htext, by rw [hread]⟩
        refine ⟨.loads e, ?_, nofun⟩
        rw [fromFile, loadSecrets_content htext, hread]
        cases e with
        | decode => exact (he rfl).elim
        | _ => rfl
      | ok secrets =>
        have hpassable : ¬ Passable zero provider secrets := by
          intro hpassable
          exact h ⟨text, htext, by rwa [hread]⟩
        rw [fromFile, loadSecrets_document (document_content htext hread)]
        exact fromSecrets_hiding hpassable
  | refused => exact ⟨.os, rfl, nofun⟩
  | _ => exact (h trivial).elim

lemma fromEnviron_eq (environ : String → Option Str) : fromEnviron environ did provider =
    match environKey environ provider with
    | some api_key => .ok (⟨did, provider, api_key, .null, []⟩ : AgentKeySet F)
    | none => .error (.key (notFound did provider)) := by
  have hvars : ∀ p ∈ ENV_KEY_MAP, p.2 ≠ "" := by decide
  rw [fromEnviron, environKey, envVar]
  cases hlook : ENV_KEY_MAP.lookup provider with
  | none => rfl
  | some env_var =>
    obtain ⟨before, after, hmap, -⟩ := List.lookup_eq_some_iff.mp hlook
    have hvar : env_var ≠ "" := hvars (provider, env_var) (hmap ▸ by simp)
    rw [Option.getD_some, if_neg hvar, Option.bind_some]
    cases henv : environ env_var with
    | none => rfl
    | some env_val =>
      cases env_val with
      | nil => rfl
      | cons c cs => rfl

end Levels

section Chain

variable {F : Type} {fl : Floats F} {py : Interpreter fl} {zero : F → Bool} {files : Parts → File}
  {environ : String → Option Str} {accio_home : Parts} {uid did : String} {provider : Str}

lemma resolveKeys_eq : resolveKeys py zero files environ accio_home uid did provider =
    fromFile py zero did provider (files (agentSecrets accio_home uid did)) >>= fun keys =>
      match keys with
      | some keys => pure keys
      | none => fromFile py zero did provider (files (accountSecrets accio_home uid)) >>= fun keys =>
        match keys with
        | some keys => pure keys
        | none => fromEnviron environ did provider := by
  rw [resolveKeys, fromFile, bind_assoc]
  congr 1
  funext agent_secrets
  congr 1
  funext keys
  cases keys with
  | some keys => rfl
  | none =>
    dsimp only
    rw [fromFile, bind_assoc]

lemma resolveKeys_of_agent {keys : AgentKeySet F}
    (h : fromFile py zero did provider (files (agentSecrets accio_home uid did)) = .ok (some keys)) :
    resolveKeys py zero files environ accio_home uid did provider = .ok keys := by
  rw [resolveKeys_eq, h]
  rfl

/-- Where the agent's file gives no key, the account's is asked. -/
lemma resolveKeys_of_passed
    (hagent : fromFile py zero did provider (files (agentSecrets accio_home uid did)) = .ok none) :
    resolveKeys py zero files environ accio_home uid did provider =
      fromFile py zero did provider (files (accountSecrets accio_home uid)) >>= fun keys =>
        match keys with
        | some keys => pure keys
        | none => fromEnviron environ did provider := by
  rw [resolveKeys_eq, hagent]
  rfl

lemma resolveKeys_of_account {keys : AgentKeySet F}
    (hagent : fromFile py zero did provider (files (agentSecrets accio_home uid did)) = .ok none)
    (h : fromFile py zero did provider (files (accountSecrets accio_home uid)) = .ok (some keys)) :
    resolveKeys py zero files environ accio_home uid did provider = .ok keys := by
  rw [resolveKeys_of_passed hagent, h]
  rfl

lemma resolveKeys_of_neither
    (hagent : fromFile py zero did provider (files (agentSecrets accio_home uid did)) = .ok none)
    (haccount : fromFile py zero did provider (files (accountSecrets accio_home uid)) = .ok none) :
    resolveKeys py zero files environ accio_home uid did provider = fromEnviron environ did provider := by
  rw [resolveKeys_of_passed hagent, haccount]
  rfl

/-- An exception other than the vault's own is neither a key nor the end of the chain. -/
lemma not_fallsThrough {e : Exc} (h : resolveKeys py zero files environ accio_home uid did provider = .error e)
    (he : e ≠ .key (notFound did provider)) :
    ¬ FallsThrough py zero files environ accio_home uid did provider := by
  rw [FallsThrough, h]
  split
  · rintro ⟨keys, hkeys, -⟩
    cases hkeys
  · intro hnone
    exact he (Except.error.inj hnone)

lemma harmless_agent (h : FallsThrough py zero files environ accio_home uid did provider) :
    Harmless py zero provider (files (agentSecrets accio_home uid did)) := by
  by_contra hharmful
  obtain ⟨e, he, hne⟩ := @fromFile_harmful F fl py zero did provider _ hharmful
  apply not_fallsThrough _ hne h
  rw [resolveKeys_eq, he]
  rfl

lemma harmless_account (h : FallsThrough py zero files environ accio_home uid did provider)
    (hunusable : fileKey py provider (files (agentSecrets accio_home uid did)) = none) :
    Harmless py zero provider (files (accountSecrets accio_home uid)) := by
  have hagent := @fromFile_harmless F fl py zero did provider _ (harmless_agent h) hunusable
  by_contra hharmful
  obtain ⟨e, he, hne⟩ := @fromFile_harmful F fl py zero did provider _ hharmful
  apply not_fallsThrough _ hne h
  rw [resolveKeys_of_passed hagent, he]
  rfl

theorem falls_through_iff (py : Interpreter fl) (zero : F → Bool) (files : Parts → File)
    (environ : String → Option Str) (accio_home : Parts) (uid did : String) (provider : Str) :
    FallsThrough py zero files environ accio_home uid did provider ↔
      Harmless py zero provider (files (agentSecrets accio_home uid did)) ∧
        (fileKey py provider (files (agentSecrets accio_home uid did)) = none →
          Harmless py zero provider (files (accountSecrets accio_home uid))) := by
  refine ⟨fun h => ⟨harmless_agent h, harmless_account h⟩, ?_⟩
  rintro ⟨hagent, haccount⟩
  rw [FallsThrough]
  cases hkey : fileKey py provider (files (agentSecrets accio_home uid did)) with
  | some api_key =>
    obtain ⟨keys, hkeys, rfl⟩ := @fromFile_usable F fl py zero did provider _ _ hkey
    exact ⟨keys, resolveKeys_of_agent hkeys, rfl⟩
  | none =>
    have hpassed := @fromFile_harmless F fl py zero did provider _ hagent hkey
    cases hkey' : fileKey py provider (files (accountSecrets accio_home uid)) with
    | some api_key =>
      obtain ⟨keys, hkeys, rfl⟩ := @fromFile_usable F fl py zero did provider _ _ hkey'
      exact ⟨keys, resolveKeys_of_account hpassed hkeys, rfl⟩
    | none =>
      have hpassed' := @fromFile_harmless F fl py zero did provider _ (haccount hkey) hkey'
      rw [resolveKeys_of_neither hpassed hpassed', fromEnviron_eq]
      cases @environKey F environ provider with
      | some api_key => exact ⟨_, rfl, rfl⟩
      | none => rfl

end Chain

section Sample

def nullEntry : Json Unit := .obj [(str "openai", .null)]

/-- The agent has a file with `null` for its key, the account has none. -/
def withNullEntry (path : Parts) : File :=
  if path = agentSecrets [] "ops" "DID-1" then
    .content (Utf8.encode (JsonText.dumps History.zeros nullEntry))
  else .absent

def withKey (env_var : String) : Option Str := if env_var = "OPENAI_API_KEY" then some (str "sk-env") else none

/-- The key of the environment is hidden by an entry that is no key. -/
theorem null_entry_hides_environment :
    resolveKeys zerosInterpreter (fun _ => true) withNullEntry withKey [] "ops" "DID-1" (str "openai") = .error .type ∧
      ¬ FallsThrough zerosInterpreter (fun _ => true) withNullEntry withKey [] "ops" "DID-1" (str "openai") := by
  have hfile : withNullEntry (agentSecrets [] "ops" "DID-1") =
      .content (Utf8.encode (JsonText.dumps History.zeros nullEntry)) := if_pos rfl
  have hreadable : Readable ValidStr zerosInterpreter.limit nullEntry := by
    change Readable ValidStr (1 + 1) nullEntry
    rw [nullEntry, Readable]
    exact ⟨List.nodup_singleton _, ⟨valid_str _, trivial⟩, trivial⟩
  have hagent : fromFile zerosInterpreter (fun _ => true) "DID-1" (str "openai")
      (withNullEntry (agentSecrets [] "ops" "DID-1")) = .error .type := by
    rw [hfile, fromFile_entry (document_dumps hreadable) List.lookup_cons_self]
    rfl
  have hresolve : resolveKeys zerosInterpreter (fun _ => true) withNullEntry withKey [] "ops" "DID-1" (str "openai") =
      .error .type := by
    rw [resolveKeys_eq, hagent]
    rfl
  exact ⟨hresolve, not_fallsThrough hresolve nofun⟩

end Sample

end OpsSentry.Agent.KeyVault
