import OpsSentry.Agent.KeyVault
import OpsSentry.Foundation.Base64
import OpsSentry.Foundation.Urlencoded

/-! `channels/feishu.py` and `channels/dingtalk.py`: where the secret of a webhook comes from, how an inbound
request is verified with it, and how an outbound one is signed. -/

namespace OpsSentry.Channels

open Agent Foundation Foundation.JsonText Foundation.JsonLoads Foundation.PosixPath
open Agent.KeyVault (AgentKeySet File truthy)
open Foundation.Urlencoded (Bytes urlencode parseQsl parseQsl_urlencode)

/-- The interpreter, with `hmac.new(key, msg, sha256).digest()` and the text of a value that is no string. -/
structure Runtime {F : Type} (fl : Floats F) extends Interpreter fl where
  zero : F → Bool
  hmac : Bytes → Bytes → Bytes
  digest_size : ∀ key msg, (hmac key msg).length = 32
  text : Json (Number F) → Str

/-- The files and the environment of the process. -/
structure Node where
  accio_home : Parts
  files : Parts → File
  environ : String → Option Str

inductive Exc
  | unicodeEncode
  | type
  | attribute
  | validation
  | loads (e : LoadsError)
  | http (status_code : ℕ) (detail : String)
  | call (message : String)
deriving DecidableEq

def character (n : ℕ) : Option Char := if n.isValidChar then some (Char.ofNat n) else none

/-- `encode("utf-8")`: there is no text for a surrogate. -/
def encodeUtf8 (s : Str) : Except Exc Bytes :=
  match s.mapM character with
  | some cs => .ok (Utf8.encode cs)
  | none => .error .unicodeEncode

/-- `hmac.compare_digest` of two strings. -/
def compareDigest (calc_signature : Word) : Option Str → Except Exc Bool
  | none => .error .type
  | some signature =>
    if signature.all (· < 128) then .ok (calc_signature.map Char.toNat = signature) else .error .type

section Channel

variable {F : Type} {fl : Floats F}

def member (d : List (Str × Json (Number F))) (key : String) : Json (Number F) := (d.lookup (str key)).getD .null

def getenv (environ : String → Option Str) (name : String) : Json (Number F) := ((environ name).map .str).getD .null

structure FeishuChannel (F : Type) where
  app_id : Json (Number F)
  app_secret : Json (Number F)
  webhook_secret : Json (Number F)
  webhook_url : Json (Number F)

structure DingTalkChannel (F : Type) where
  webhook_secret : Json (Number F)
  webhook_url : Json (Number F)

def Node.getSecret (node : Node) (rt : Runtime fl) (uid did provider : String) : Except KeyVault.Exc (AgentKeySet F) :=
  KeyVault.resolveKeys rt.toInterpreter rt.zero node.files node.environ node.accio_home uid did (str provider)

def FeishuChannel.init (rt : Runtime fl) (node : Node) (uid did : String) : FeishuChannel F :=
  match node.getSecret rt uid did "feishu" with
  | .ok keys =>
    ⟨keys.api_key, member keys.extra "app_secret", member keys.extra "webhook_secret", member keys.extra "webhook_url"⟩
  | .error _ =>
    ⟨getenv node.environ "FEISHU_APP_ID", getenv node.environ "FEISHU_APP_SECRET",
      getenv node.environ "FEISHU_WEBHOOK_SECRET", getenv node.environ "FEISHU_WEBHOOK_URL"⟩

def DingTalkChannel.init (rt : Runtime fl) (node : Node) (uid did : String) : DingTalkChannel F :=
  match node.getSecret rt uid did "dingtalk" with
  | .ok keys => ⟨member keys.extra "webhook_secret", member keys.extra "webhook_url"⟩
  | .error _ => ⟨getenv node.environ "DINGTALK_WEBHOOK_SECRET", getenv node.environ "DINGTALK_WEBHOOK_URL"⟩

variable (rt : Runtime fl)

/-- A value in an f-string. -/
def Runtime.shown : Json (Number F) → Str
  | .str s => s
  | x => rt.text x

/-- The text of a header that is missing is `None`. -/
def stamp (timestamp : Option Str) : Str := timestamp.getD (str "None")

def Runtime.stringToSign (timestamp : Option Str) (webhook_secret : Json (Number F)) : Str :=
  stamp timestamp ++ str "\n" ++ rt.shown webhook_secret

/-- Only a string has `encode`. -/
def encodeSecret : Json (Number F) → Except Exc Bytes
  | .str s => encodeUtf8 s
  | _ => .error .attribute

def FeishuChannel.verifyWebhookSignature (channel : FeishuChannel F) (timestamp signature : Option Str) (body : Bytes) :
    Except Exc Bool :=
  if truthy rt.zero channel.webhook_secret then do
    let string_to_sign ← encodeUtf8 (rt.stringToSign timestamp channel.webhook_secret)
    compareDigest (Base64.encode (rt.hmac string_to_sign body)) signature
  else .ok true

/-- `body` is not signed. -/
def DingTalkChannel.verifyWebhookSignature (channel : DingTalkChannel F) (timestamp signature : Option Str) (_body : Bytes) :
    Except Exc Bool :=
  if truthy rt.zero channel.webhook_secret then do
    let string_to_sign_enc ← encodeUtf8 (rt.stringToSign timestamp channel.webhook_secret)
    let secret_enc ← encodeSecret channel.webhook_secret
    compareDigest (Base64.encode (rt.hmac secret_enc string_to_sign_enc)) signature
  else .ok true

structure OutboundMessage where
  title : Str
  content : Str

/-- What `send` posts, to which URL. -/
structure Post where
  target_url : Str
  text : Str

/-- `send` up to its request; `none` where there is no URL. -/
def DingTalkChannel.send (channel : DingTalkChannel F) (now_ms : ℤ) (message : OutboundMessage) : Except Exc (Option Post) :=
  if truthy rt.zero channel.webhook_url then do
    let timestamp := decimal now_ms
    let secret_enc ← encodeSecret channel.webhook_secret
    let string_to_sign_enc ← encodeUtf8 (rt.stringToSign (some (timestamp.map Char.toNat)) channel.webhook_secret)
    let sign := Base64.encode (rt.hmac secret_enc string_to_sign_enc)
    let params := [(Utf8.encode "timestamp".toList, Utf8.encode timestamp),
      (Utf8.encode "sign".toList, Utf8.encode sign)]
    pure (some ⟨rt.shown channel.webhook_url ++ str "&" ++ (urlencode params).map Char.toNat,
      str "[" ++ message.title ++ str "]\n" ++ message.content⟩)
  else pure none

end Channel

section Texts

variable {s s' : Str} {b : Bytes}

lemma character_eq {n : ℕ} {c : Char} (h : character n = some c) : n = c.toNat := by
  rw [character] at h
  split at h
  · rename_i hvalid
    cases h
    exact (Utf8.toNat_ofNat hvalid).symm
  · cases h

lemma mapM_character {cs : List Char} (h : s.mapM character = some cs) : s = cs.map Char.toNat := by
  induction s generalizing cs with
  | nil =>
    cases h
    rfl
  | cons n s ih =>
    rw [List.mapM_cons] at h
    obtain ⟨c, hc, h⟩ := Option.bind_eq_some_iff.mp h
    obtain ⟨cs', hcs, h⟩ := Option.bind_eq_some_iff.mp h
    cases h
    rw [List.map_cons, ← ih hcs, ← character_eq hc]

lemma encodeUtf8_inj (h : encodeUtf8 s = .ok b) (h' : encodeUtf8 s' = .ok b) : s = s' := by
  rw [encodeUtf8] at h h'
  cases hs : s.mapM character with
  | none =>
    rw [hs] at h
    cases h
  | some cs =>
    cases hs' : s'.mapM character with
    | none =>
      rw [hs'] at h'
      cases h'
    | some cs' =>
      rw [hs] at h
      rw [hs'] at h'
      have hbytes : Utf8.encode cs = Utf8.encode cs' := Except.ok.inj (h.trans h'.symm)
      have hdecode := congrArg Utf8.decodeStrict hbytes
      rw [Utf8.decodeStrict_encode, Utf8.decodeStrict_encode, Option.some.injEq] at hdecode
      rw [mapM_character hs, mapM_character hs', hdecode]

lemma compareDigest_iff {calc_signature : Word} (h : ∀ c ∈ calc_signature, c.toNat < 128) (signature : Option Str) :
    compareDigest calc_signature signature = .ok true ↔ signature = some (calc_signature.map Char.toNat) := by
  cases signature with
  | none => simp [compareDigest]
  | some signature =>
    rw [compareDigest, Option.some.injEq]
    split
    · rw [Except.ok.injEq, decide_eq_true_eq, eq_comm]
    · rename_i hnot
      refine ⟨fun h => (by cases h), ?_⟩
      rintro rfl
      refine absurd ?_ hnot
      rw [List.all_map, List.all_eq_true]
      exact fun c hc => decide_eq_true (h c hc)

end Texts

section Verified

variable {F : Type} {fl : Floats F} {rt : Runtime fl} {timestamp timestamp' signature : Option Str} {body body' : Bytes}

lemma map_toNat_injective : Function.Injective (List.map Char.toNat) :=
  List.map_injective_iff.mpr fun _ _ => Char.toNat_inj.mp

/-- Two different keys and messages have one digest. -/
def Collision (hmac : Bytes → Bytes → Bytes) (input input' : Bytes × Bytes) : Prop :=
  input ≠ input' ∧ hmac input.1 input.2 = hmac input'.1 input'.2

lemma digest_eq {key msg key' msg' : Bytes}
    (h : signature = some ((Base64.encode (rt.hmac key msg)).map Char.toNat))
    (h' : signature = some ((Base64.encode (rt.hmac key' msg')).map Char.toNat)) : rt.hmac key msg = rt.hmac key' msg' :=
  Base64.encode_injective (map_toNat_injective (Option.some.inj (h.symm.trans h')))

lemma stringToSign_inj {webhook_secret : Json (Number F)}
    (h : rt.stringToSign timestamp webhook_secret = rt.stringToSign timestamp' webhook_secret) :
    stamp timestamp = stamp timestamp' := by
  rw [Runtime.stringToSign, Runtime.stringToSign] at h
  exact List.append_cancel_right (List.append_cancel_right h)

lemma stringToSign_eq {webhook_secret : Json (Number F)} (h : stamp timestamp = stamp timestamp') :
    rt.stringToSign timestamp' webhook_secret = rt.stringToSign timestamp webhook_secret := by
  rw [Runtime.stringToSign, Runtime.stringToSign, h]

lemma feishu_verified_iff {channel : FeishuChannel F} (htrue : truthy rt.zero channel.webhook_secret = true) :
    channel.verifyWebhookSignature rt timestamp signature body = .ok true ↔
      ∃ key, encodeUtf8 (rt.stringToSign timestamp channel.webhook_secret) = .ok key ∧
        signature = some ((Base64.encode (rt.hmac key body)).map Char.toNat) := by
  rw [FeishuChannel.verifyWebhookSignature, if_pos htrue]
  cases hkey : encodeUtf8 (rt.stringToSign timestamp channel.webhook_secret) with
  | error e =>
    refine ⟨fun h => (by cases h), ?_⟩
    rintro ⟨key, h, -⟩
    cases h
  | ok key =>
    refine (compareDigest_iff (Base64.encode_ascii _) signature).trans ⟨fun h => ⟨key, rfl, h⟩, ?_⟩
    rintro ⟨key', heq, h⟩
    cases heq
    exact h

lemma dingtalk_verified_iff {channel : DingTalkChannel F} (htrue : truthy rt.zero channel.webhook_secret = true) :
    channel.verifyWebhookSignature rt timestamp signature body = .ok true ↔
      ∃ key msg, encodeSecret channel.webhook_secret = .ok key ∧
        encodeUtf8 (rt.stringToSign timestamp channel.webhook_secret) = .ok msg ∧
        signature = some ((Base64.encode (rt.hmac key msg)).map Char.toNat) := by
  rw [DingTalkChannel.verifyWebhookSignature, if_pos htrue]
  cases hmsg : encodeUtf8 (rt.stringToSign timestamp channel.webhook_secret) with
  | error e =>
    refine ⟨fun h => (by cases h), ?_⟩
    rintro ⟨key, msg, -, h, -⟩
    cases h
  | ok msg =>
    cases hkey : encodeSecret channel.webhook_secret with
    | error e =>
      refine ⟨fun h => (by cases h), ?_⟩
      rintro ⟨key, msg, h, -⟩
      cases h
    | ok key =>
      refine (compareDigest_iff (Base64.encode_ascii _) signature).trans ⟨fun h => ⟨key, msg, rfl, rfl, h⟩, ?_⟩
      rintro ⟨key', msg', heq, heq', h⟩
      cases heq
      cases heq'
      exact h

end Verified

section Sent

variable {F : Type} {fl : Floats F} {rt : Runtime fl}

lemma encode_ne_nil {cs : List Char} (h : cs ≠ []) : Utf8.encode cs ≠ [] := by
  intro hempty
  have hdecode := Utf8.decode_encode cs
  rw [hempty] at hdecode
  exact h hdecode.symm

lemma decimal_ne_nil (n : ℤ) : decimal n ≠ [] := by
  rw [decimal]
  exact List.append_ne_nil_of_right_ne_nil _ (Nat.toDigits_ne_nil)

lemma digest_ne_nil (key msg : Bytes) : rt.hmac key msg ≠ [] := by
  intro hempty
  have hsize := rt.digest_size key msg
  rw [hempty] at hsize
  cases hsize

end Sent

/-- A signature that Feishu's channel accepts with a request it accepts with no other one, up to a missing
timestamp, than those that collide with it. -/
theorem feishu_signature_binds_request {F : Type} {fl : Floats F} {rt : Runtime fl} {channel : FeishuChannel F}
    {timestamp signature : Option Str} {body : Bytes} (htrue : truthy rt.zero channel.webhook_secret = true)
    (h : channel.verifyWebhookSignature rt timestamp signature body = .ok true) :
    ∃ key, encodeUtf8 (rt.stringToSign timestamp channel.webhook_secret) = .ok key ∧ ∀ timestamp' body',
      channel.verifyWebhookSignature rt timestamp' signature body' = .ok true ↔
        (stamp timestamp = stamp timestamp' ∧ body = body') ∨
          ∃ key', encodeUtf8 (rt.stringToSign timestamp' channel.webhook_secret) = .ok key' ∧
            Collision rt.hmac (key, body) (key', body') := by
  obtain ⟨key, hkey, hsign⟩ := (feishu_verified_iff htrue).mp h
  refine ⟨key, hkey, fun timestamp' body' => ⟨fun h' => ?_, ?_⟩⟩
  · obtain ⟨key', hkey', hsign'⟩ := (feishu_verified_iff htrue).mp h'
    by_cases hsame : (key, body) = (key', body')
    · cases hsame
      exact .inl ⟨stringToSign_inj (encodeUtf8_inj hkey hkey'), rfl⟩
    · exact .inr ⟨key', hkey', hsame, digest_eq hsign hsign'⟩
  · rintro (⟨hstamp, rfl⟩ | ⟨key', hkey', -, hdigest⟩)
    · exact (feishu_verified_iff htrue).mpr ⟨key, stringToSign_eq hstamp ▸ hkey, hsign⟩
    · refine (feishu_verified_iff htrue).mpr ⟨key', hkey', ?_⟩
      rw [hsign]
      exact congrArg (fun digest => some ((Base64.encode digest).map Char.toNat)) hdigest

/-- The digests of the two channels for the secret `s3cret` at one time, Feishu's for the body of an empty object. -/
def sampleHmac (key _msg : Bytes) : Bytes :=
  if key = Utf8.encode "s3cret".toList then
    [107, 6, 213, 168, 226, 143, 78, 128, 193, 105, 213, 110, 102, 233, 11, 222, 35, 221, 158, 201, 129, 173, 28, 111, 77,
      202, 167, 150, 6, 20, 89, 206]
  else
    [77, 128, 160, 60, 249, 87, 86, 57, 74, 235, 161, 251, 106, 87, 22, 181, 213, 162, 217, 246, 215, 116, 174, 226, 129,
      240, 134, 255, 78, 145, 244, 79]

lemma sampleHmac_length (key msg : Bytes) : (sampleHmac key msg).length = 32 := by
  rw [sampleHmac]
  split <;> rfl

def sampleRuntime : Runtime History.zeros where
  toInterpreter := ToolResults.zerosInterpreter
  zero _ := true
  hmac := sampleHmac
  digest_size := sampleHmac_length
  text _ := []

def sampleSecret : Json (Number Unit) := .str (str "s3cret")

def sampleFeishu : FeishuChannel Unit := ⟨.null, .null, sampleSecret, .null⟩

theorem empty_object_bound : ∃ key, encodeUtf8 (sampleRuntime.stringToSign (some (str "1700000000")) sampleSecret) = .ok key ∧
    ∀ timestamp' body', sampleFeishu.verifyWebhookSignature sampleRuntime timestamp'
        (some (str "TYCgPPlXVjlK66H7alcWtdWi2fbXdK7igfCG/06R9E8=")) body' = .ok true ↔
      (stamp (some (str "1700000000")) = stamp timestamp' ∧ Utf8.encode ['{', '}'] = body') ∨
        ∃ key', encodeUtf8 (sampleRuntime.stringToSign timestamp' sampleSecret) = .ok key' ∧
          Collision sampleHmac (key, Utf8.encode ['{', '}']) (key', body') := by
  have hverified : sampleFeishu.verifyWebhookSignature sampleRuntime (some (str "1700000000"))
      (some (str "TYCgPPlXVjlK66H7alcWtdWi2fbXdK7igfCG/06R9E8=")) (Utf8.encode ['{', '}']) = .ok true := by decide +kernel
  exact @feishu_signature_binds_request _ _ sampleRuntime _ _ _ _ rfl hverified

/-- DingTalk's channel signs the timestamp and not the body: a signature that it accepts goes with every
body, and with no other timestamp than those that collide with its own; and it accepts what it sends, once
the query of the URL has been read. -/
theorem dingtalk_signature_binds_timestamp {F : Type} {fl : Floats F} {rt : Runtime fl} {channel : DingTalkChannel F}
    (htrue : truthy rt.zero channel.webhook_secret = true) :
    (∀ timestamp signature body, channel.verifyWebhookSignature rt timestamp signature body = .ok true →
      ∃ key msg, encodeSecret channel.webhook_secret = .ok key ∧
        encodeUtf8 (rt.stringToSign timestamp channel.webhook_secret) = .ok msg ∧ ∀ timestamp' body',
          channel.verifyWebhookSignature rt timestamp' signature body' = .ok true ↔
            stamp timestamp = stamp timestamp' ∨
              ∃ msg', encodeUtf8 (rt.stringToSign timestamp' channel.webhook_secret) = .ok msg' ∧
                Collision rt.hmac (key, msg) (key, msg')) ∧
    ∀ now_ms message post, channel.send rt now_ms message = .ok (some post) → ∃ query timestamp sign,
      post.target_url = rt.shown channel.webhook_url ++ str "&" ++ query.map Char.toNat ∧
      parseQsl query = [(Utf8.encode "timestamp".toList, Utf8.encode timestamp),
        (Utf8.encode "sign".toList, Utf8.encode sign)] ∧
      ∀ body, channel.verifyWebhookSignature rt (some (timestamp.map Char.toNat)) (some (sign.map Char.toNat)) body =
        .ok true := by
  refine ⟨fun timestamp signature body h => ?_, ?_⟩
  · obtain ⟨key, msg, hkey, hmsg, hsign⟩ := (dingtalk_verified_iff htrue).mp h
    refine ⟨key, msg, hkey, hmsg, fun timestamp' body' => ⟨fun h' => ?_, ?_⟩⟩
    · obtain ⟨key', msg', hkey', hmsg', hsign'⟩ := (dingtalk_verified_iff htrue).mp h'
      obtain rfl := Except.ok.inj (hkey.symm.trans hkey')
      by_cases hsame : msg = msg'
      · cases hsame
        exact .inl (stringToSign_inj (encodeUtf8_inj hmsg hmsg'))
      · exact .inr ⟨msg', hmsg', fun heq => hsame (congrArg Prod.snd heq), digest_eq hsign hsign'⟩
    · rintro (hstamp | ⟨msg', hmsg', -, hdigest⟩)
      · exact (dingtalk_verified_iff htrue).mpr ⟨key, msg, hkey, stringToSign_eq hstamp ▸ hmsg, hsign⟩
      · refine (dingtalk_verified_iff htrue).mpr ⟨key, msg', hkey, hmsg', ?_⟩
        rw [hsign]
        exact congrArg (fun digest => some ((Base64.encode digest).map Char.toNat)) hdigest
  · intro now_ms message post h
    rw [DingTalkChannel.send] at h
    split at h
    · obtain ⟨key, hkey, h⟩ := Programs.bind_eq_ok h
      obtain ⟨msg, hmsg, h⟩ := Programs.bind_eq_ok h
      cases h
      refine ⟨_, decimal now_ms, Base64.encode (rt.hmac key msg), rfl, parseQsl_urlencode ?_, fun body => ?_⟩
      · rw [List.forall_mem_cons, List.forall_mem_singleton]
        exact ⟨encode_ne_nil (decimal_ne_nil now_ms), encode_ne_nil (Base64.encode_ne_nil (digest_ne_nil key msg))⟩
      · exact (dingtalk_verified_iff htrue).mpr ⟨key, msg, hkey, hmsg, rfl⟩
    · cases h

def sampleDingTalk : DingTalkChannel Unit := ⟨sampleSecret, .null⟩

theorem other_body_accepted : sampleDingTalk.verifyWebhookSignature sampleRuntime (some (str "1700000000"))
    (some (str "awbVqOKPToDBadVuZukL3iPdnsmBrRxvTcqnlgYUWc4=")) (Utf8.encode ['[', ']']) = .ok true := by
  have hverified : sampleDingTalk.verifyWebhookSignature sampleRuntime (some (str "1700000000"))
      (some (str "awbVqOKPToDBadVuZukL3iPdnsmBrRxvTcqnlgYUWc4=")) (Utf8.encode ['{', '}']) = .ok true := by decide +kernel
  obtain ⟨key, msg, -, -, hiff⟩ :=
    (@dingtalk_signature_binds_timestamp _ _ sampleRuntime sampleDingTalk rfl).1 _ _ _ hverified
  exact (hiff _ _).mpr (.inl rfl)

end OpsSentry.Channels
