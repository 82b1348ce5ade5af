import OpsSentry.Channels.Signature
import OpsSentry.Foundation.Answers

/-! `routers/webhooks.py`: what an inbound request sets off, and what has to be verified before. -/

namespace OpsSentry.Channels

open Agent Foundation Foundation.JsonText Foundation.JsonLoads Foundation.Programs
open Agent.KeyVault (truthy)
open Foundation.Urlencoded (Bytes)

variable {F : Type} {fl : Floats F}

structure InboundMessage where
  sender_id : Str
  sender_name : Str
  content : Str

/-- `d.get(key, default)`. -/
def getOr (key : String) (default : Json (Number F)) : Json (Number F) → Except Exc (Json (Number F))
  | .obj d => .ok ((d.lookup (str key)).getD default)
  | _ => .error .attribute

/-- A field of a model that is annotated with `str`. -/
def validString : Json (Number F) → Except Exc Str
  | .str s => if (s.mapM character).isSome then .ok s else .error .validation
  | _ => .error .validation

def inboundMessage (sender_id sender_name content : Json (Number F)) : Except Exc InboundMessage := do
  let sender_id ← validString sender_id
  let sender_name ← validString sender_name
  let content ← validString content
  pure ⟨sender_id, sender_name, content⟩

def unknown : Json (Number F) := .str (str "unknown")

def isText (text : String) : Json (Number F) → Bool
  | .str s => s = str text
  | _ => false

/-- `"action" in body`. -/
def hasAction : Json (Number F) → Bool
  | .obj d => (d.lookup (str "action")).isSome
  | _ => false

/-- The reader of a request body, which raises `JSONDecodeError` or something else, and `json.dumps`. -/
structure Codec (F : Type) where
  loads : Bytes → Except Exc (Json (Number F))
  dumps : Json (Number F) → Str

/-- `body["action"].get("value", {})`. -/
def actionData (body : Json (Number F)) : Except Exc (Json (Number F)) := do
  getOr "value" (.obj []) (← getOr "action" .null body)

section Parse

variable (rt : Runtime fl) (codec : Codec F)

def feishuParseInbound (body : Json (Number F)) : Except Exc InboundMessage :=
  if hasAction body then do
    let value ← actionData body
    let action_type ← getOr "action" (.str (str "unknown_action")) value
    let open_id ← getOr "open_id" unknown body
    let user_id ← getOr "user_id" unknown body
    inboundMessage open_id user_id (.str (str "/action " ++ rt.shown action_type ++ str " " ++ codec.dumps value))
  else do
    let event ← getOr "event" (.obj []) body
    let sender ← getOr "sender" (.obj []) event
    let message ← getOr "message" (.obj []) event
    let sender_id ← getOr "open_id" unknown (← getOr "sender_id" (.obj []) sender)
    let sender_name ← getOr "name" unknown (← getOr "sender_id" (.obj []) sender)
    inboundMessage sender_id sender_name (← getOr "content" (.str []) message)

def dingtalkParseInbound (body : Json (Number F)) : Except Exc InboundMessage := do
  let sender_id ← getOr "senderId" unknown body
  let sender_name ← getOr "senderNick" unknown body
  let content ← getOr "content" (.str []) (← getOr "text" (.obj []) body)
  inboundMessage sender_id sender_name content

end Parse

inductive Command (F : Type)
  | createEntry (action : String) (metadata : List (String × Json (Number F)))
  | broadcastGlobal (message : List (String × Json (Number F)))
  | routeAction (uid sender_did : String) (action_data : Json (Number F))
  | routeMessage (uid : String) (session_id sender_did content : Str)

/-- Each of them may raise. -/
abbrev Services (F : Type) : Interface := ⟨Command F, fun _ => Except Exc Unit⟩

inductive Response (F : Type)
  | status
  | challenge (value : Json (Number F))

abbrev Code (F α : Type) := Prog (Services F) Exc α

def perform (c : Command F) : Code F (Except Exc Unit) := Prog.perform (I := Services F) c

structure Request where
  uid : String
  did : String
  body : Bytes
  timestamp : Option Str
  signature : Option Str
  now_ms : ℤ

def sessionId (uid did : String) : Str := str "sess_" ++ str uid ++ str "_" ++ str did

def senderDid (inbound : InboundMessage) : Str := str "external_" ++ inbound.sender_name

def readBody (codec : Codec F) (body : Bytes) : Except Exc (Json (Number F)) :=
  match codec.loads body with
  | .error (.loads .decode) => .error (.http 400 "Invalid JSON payload")
  | x => x

def feishuEntry (req : Request) (inbound : InboundMessage) (is_action : Bool) : Command F :=
  .createEntry "webhook_received" [("channel", .str (str "feishu")), ("uid", .str (str req.uid)), ("did", .str (str req.did)),
    ("sender", .str inbound.sender_name), ("content", .str inbound.content), ("is_action", .bool is_action)]

def feishuExternal (req : Request) (inbound : InboundMessage) : Command F :=
  .broadcastGlobal [("type", .str (str "external")), ("channel", .str (str "feishu")), ("sender", .str inbound.sender_name),
    ("content", .str inbound.content), ("did", .str (str req.did)), ("ts", .int req.now_ms)]

def dingtalkEntry (req : Request) (inbound : InboundMessage) : Command F :=
  .createEntry "webhook_received" [("channel", .str (str "dingtalk")), ("uid", .str (str req.uid)), ("did", .str (str req.did)),
    ("sender", .str inbound.sender_name), ("content", .str inbound.content)]

def dingtalkExternal (req : Request) (inbound : InboundMessage) : Command F :=
  .broadcastGlobal [("type", .str (str "external")), ("channel", .str (str "dingtalk")), ("sender", .str inbound.sender_name),
    ("content", .str inbound.content), ("did", .str (str req.did))]

def routeMessage (req : Request) (inbound : InboundMessage) : Command F :=
  .routeMessage req.uid (sessionId req.uid req.did) (senderDid inbound) inbound.content

section Endpoints

variable (rt : Runtime fl) (codec : Codec F) (node : Node) (req : Request)

/-- A card callback goes to `route_action`, a message to `route_message`. -/
def feishuRoute (body_json : Json (Number F)) (inbound : InboundMessage) : Except Exc (Command F) :=
  if hasAction body_json then do
    let action_data ← actionData body_json
    pure (.routeAction req.uid req.did action_data)
  else pure (routeMessage req inbound)

def feishuWebhook : Code F (Response F) := do
  let body_json ← orThrow (readBody codec req.body)
  let channel := FeishuChannel.init rt node req.uid req.did
  let verified ← orThrow (channel.verifyWebhookSignature rt req.timestamp req.signature req.body)
  if !verified then throw (.http 401 "Invalid signature")
  else
    let type ← orThrow (getOr "type" .null body_json)
    if isText "url_verification" type then
      let challenge ← orThrow (getOr "challenge" .null body_json)
      pure (.challenge challenge)
    else
      let inbound ← orThrow (feishuParseInbound rt codec body_json)
      orThrow (← perform (feishuEntry req inbound (hasAction body_json)))
      orThrow (← perform (feishuExternal req inbound))
      let route ← orThrow (feishuRoute req body_json inbound)
      orThrow (← perform route)
      pure .status

def dingtalkWebhook : Code F (Response F) := do
  let body_json ← orThrow (readBody codec req.body)
  let channel := DingTalkChannel.init rt node req.uid req.did
  let verified ← orThrow (channel.verifyWebhookSignature rt req.timestamp req.signature req.body)
  if !verified then throw (.http 401 "Invalid signature")
  else
    let inbound ← orThrow (dingtalkParseInbound body_json)
    orThrow (← perform (dingtalkEntry req inbound))
    orThrow (← perform (dingtalkExternal req inbound))
    orThrow (← perform (routeMessage req inbound))
    pure .status

end Endpoints

/-- What the message of a request sets off once it has been admitted: the entry, the broadcast and the
routing, up to the first that fails, and the answer when none does. -/
structure Delivered (plan : List (Command F)) (x : Except Exc (Response F)) (cs : List (Command F)) : Prop where
  issued : cs <+: plan
  complete : x = .ok .status → cs = plan

/-- A request that was not admitted has done nothing. -/
structure Refused (x : Except Exc (Response F)) (cs : List (Command F)) : Prop where
  issued : cs = []
  status : x ≠ .ok .status

section Traces

variable {x : Except Exc (Response F)} {cs : List (Command F)} {α : Type}

def Any (c : Command F) (_ : (Services F).Reply c) : Prop := True

lemma issued_perform {c : Command F} {k : Code F (Response F)} {plan : List (Command F)}
    (h : Prog.Issued (I := Services F) Any x (perform c >>= fun r => orThrow r >>= fun _ => k) cs)
    (hk : ∀ rest, k.Issued Any x rest → Delivered plan x rest) : Delivered (c :: plan) x cs := by
  obtain ⟨r, rest, -, rfl, h⟩ := h
  rcases Prog.issued_orThrow h with ⟨_, -, h⟩ | ⟨e, -, rfl, rfl⟩
  · obtain ⟨hissued, hcomplete⟩ := hk rest h
    exact ⟨List.prefix_cons_inj c |>.mpr hissued, fun hx => congrArg (c :: ·) (hcomplete hx)⟩
  · exact ⟨List.prefix_cons_inj c |>.mpr List.nil_prefix, fun hx => by cases hx⟩

lemma issued_error {c : Command F} {k : Code F (Response F)} (e : Exc) :
    Prog.Issued (I := Services F) Any (.error e) (perform c >>= fun r => orThrow r >>= fun _ => k) [c] :=
  ⟨.error e, [], trivial, rfl, rfl, rfl⟩

lemma issued_of_ok {a : Except Exc α} {v : α} {f : α → Code F (Response F)} (ha : a = .ok v)
    (h : (f v).Issued Any x cs) : (orThrow a >>= f).Issued Any x cs := by
  rw [ha]
  exact h

end Traces

/-- The request is a message that can be read, and no request to verify the URL. -/
def FeishuPlan (rt : Runtime fl) (codec : Codec F) (req : Request) (plan : List (Command F)) : Prop :=
  ∃ body_json inbound route, readBody codec req.body = .ok body_json ∧
    (getOr "type" .null body_json).map (isText "url_verification") = .ok false ∧
    feishuParseInbound rt codec body_json = .ok inbound ∧ feishuRoute req body_json inbound = .ok route ∧
    plan = [feishuEntry req inbound (hasAction body_json), feishuExternal req inbound, route]

def DingTalkPlan (codec : Codec F) (req : Request) (plan : List (Command F)) : Prop :=
  ∃ body_json inbound, readBody codec req.body = .ok body_json ∧ dingtalkParseInbound body_json = .ok inbound ∧
    plan = [dingtalkEntry req inbound, dingtalkExternal req inbound, routeMessage req inbound]

/-- The keys of the vault have no secret for the webhook, or there are none and the variable is empty. -/
def SecretUnset (rt : Runtime fl) (node : Node) (uid did provider env_var : String) : Prop :=
  match node.getSecret rt uid did provider with
  | .ok keys => truthy rt.zero (member keys.extra "webhook_secret") = false
  | .error _ => ∀ secret, node.environ env_var = some secret → secret = []

/-- What holds of an endpoint over all its runs. -/
structure Admits (endpoint : Code F (Response F)) (verified : Except Exc Bool) (signature : Option Str) (Unset : Prop)
    (Plan : List (Command F) → Prop) : Prop where
  runs : ∀ x cs, endpoint.Issued Any x cs → Refused x cs ∨ verified = .ok true ∧ ∃ plan, Plan plan ∧ Delivered plan x cs
  issues : (∃ x cs, cs ≠ [] ∧ endpoint.Issued Any x cs) ↔ verified = .ok true ∧ ∃ plan, Plan plan
  unsigned : signature = none → (verified = .ok true ↔ Unset)

section Runs

variable {rt : Runtime fl} {codec : Codec F} {node : Node} {req : Request} {x : Except Exc (Response F)}
  {cs : List (Command F)}

lemma refused_of_error {e : Exc} (hcs : cs = []) (hx : x = .error e) : Refused x cs :=
  ⟨hcs, by simp [hx]⟩

lemma delivered_last {c : Command F}
    (h : Prog.Issued (I := Services F) Any x (perform c >>= fun r => orThrow r >>= fun _ => pure .status) cs) :
    Delivered [c] x cs :=
  issued_perform h fun _ h => ⟨h.1 ▸ List.nil_prefix, fun _ => h.1⟩

lemma issues_iff {endpoint : Code F (Response F)} {verified : Except Exc Bool} {Plan : List (Command F) → Prop}
    (hruns : ∀ x cs, endpoint.Issued Any x cs → Refused x cs ∨ verified = .ok true ∧ ∃ plan, Plan plan ∧ Delivered plan x cs)
    (hfirst : ∀ plan, verified = .ok true → Plan plan → ∃ c, endpoint.Issued Any (.error (.call "")) [c]) :
    (∃ x cs, cs ≠ [] ∧ endpoint.Issued Any x cs) ↔ verified = .ok true ∧ ∃ plan, Plan plan := by
  constructor
  · rintro ⟨x, cs, hne, h⟩
    rcases hruns x cs h with hrefused | ⟨hverified, plan, hplan, -⟩
    · exact absurd hrefused.issued hne
    · exact ⟨hverified, plan, hplan⟩
  · rintro ⟨hverified, plan, hplan⟩
    obtain ⟨c, hc⟩ := hfirst plan hverified hplan
    exact ⟨_, [c], List.cons_ne_nil _ _, hc⟩

lemma exists_route {body_json : Json (Number F)} {inbound : InboundMessage}
    (h : feishuParseInbound rt codec body_json = .ok inbound) : ∃ route, feishuRoute req body_json inbound = .ok route := by
  rw [feishuRoute]
  split
  · rename_i haction
    rw [feishuParseInbound, if_pos haction] at h
    obtain ⟨value, hvalue, -⟩ := bind_eq_ok h
    rw [hvalue]
    exact ⟨_, rfl⟩
  · exact ⟨_, rfl⟩

lemma feishuWebhook_runs (h : (feishuWebhook rt codec node req).Issued Any x cs) : Refused x cs ∨
    (FeishuChannel.init rt node req.uid req.did).verifyWebhookSignature rt req.timestamp req.signature req.body = .ok true ∧
      ∃ plan, FeishuPlan rt codec req plan ∧ Delivered plan x cs := by
  rcases Prog.issued_orThrow h with ⟨body_json, hbody, h⟩ | ⟨e, -, hcs, hx⟩
  swap
  · exact .inl (refused_of_error hcs hx)
  rcases Prog.issued_orThrow h with ⟨verified, hverified, h⟩ | ⟨e, -, hcs, hx⟩
  swap
  · exact .inl (refused_of_error hcs hx)
  cases verified with
  | false => exact .inl (refused_of_error h.1 h.2)
  | true =>
    rcases Prog.issued_orThrow h with ⟨type, htype, h⟩ | ⟨e, -, hcs, hx⟩
    swap
    · exact .inl (refused_of_error hcs hx)
    cases hchallenge : isText "url_verification" type with
    | true =>
      rw [if_pos hchallenge] at h
      rcases Prog.issued_orThrow h with ⟨challenge, -, hcs, rfl⟩ | ⟨e, -, hcs, hx⟩
      · exact .inl ⟨hcs, by simp⟩
      · exact .inl (refused_of_error hcs hx)
    | false =>
      rw [if_neg (Bool.eq_false_iff.mp hchallenge)] at h
      rcases Prog.issued_orThrow h with ⟨inbound, hinbound, h⟩ | ⟨e, -, hcs, hx⟩
      swap
      · exact .inl (refused_of_error hcs hx)
      obtain ⟨route, hroute⟩ := @exists_route _ _ rt codec req _ _ hinbound
      have htype' : (getOr "type" .null body_json).map (isText "url_verification") = .ok false := by
        rw [htype]
        exact congrArg Except.ok hchallenge
      refine .inr ⟨hverified, _, ⟨body_json, inbound, route, hbody, htype', hinbound, hroute, rfl⟩, ?_⟩
      refine issued_perform h fun rest h => issued_perform h fun rest h => ?_
      rw [hroute] at h
      exact delivered_last h

lemma feishuWebhook_first {plan : List (Command F)}
    (hverified : (FeishuChannel.init rt node req.uid req.did).verifyWebhookSignature rt req.timestamp req.signature req.body =
      .ok true) (hplan : FeishuPlan rt codec req plan) :
    ∃ c, (feishuWebhook rt codec node req).Issued Any (.error (.call "")) [c] := by
  obtain ⟨body_json, inbound, route, hbody, htype, hinbound, -, -⟩ := hplan
  refine ⟨feishuEntry req inbound (hasAction body_json), issued_of_ok hbody (issued_of_ok hverified ?_)⟩
  cases htype' : getOr "type" .null body_json with
  | error e =>
    rw [htype'] at htype
    cases htype
  | ok type =>
    rw [htype'] at htype
    have hchallenge : isText "url_verification" type = false := Except.ok.inj htype
    refine issued_of_ok rfl ?_
    rw [if_neg (Bool.eq_false_iff.mp hchallenge)]
    exact issued_of_ok hinbound (issued_error _)

lemma dingtalkWebhook_runs (h : (dingtalkWebhook rt codec node req).Issued Any x cs) : Refused x cs ∨
    (DingTalkChannel.init rt node req.uid req.did).verifyWebhookSignature rt req.timestamp req.signature req.body = .ok true ∧
      ∃ plan, DingTalkPlan codec req plan ∧ Delivered plan x cs := by
  rcases Prog.issued_orThrow h with ⟨body_json, hbody, h⟩ | ⟨e, -, hcs, hx⟩
  swap
  · exact .inl (refused_of_error hcs hx)
  rcases Prog.issued_orThrow h with ⟨verified, hverified, h⟩ | ⟨e, -, hcs, hx⟩
  swap
  · exact .inl (refused_of_error hcs hx)
  cases verified with
  | false => exact .inl (refused_of_error h.1 h.2)
  | true =>
    rcases Prog.issued_orThrow h with ⟨inbound, hinbound, h⟩ | ⟨e, -, hcs, hx⟩
    swap
    · exact .inl (refused_of_error hcs hx)
    refine .inr ⟨hverified, _, ⟨body_json, inbound, hbody, hinbound, rfl⟩, ?_⟩
    exact issued_perform h fun rest h => issued_perform h fun rest h => delivered_last h

lemma dingtalkWebhook_first {plan : List (Command F)}
    (hverified : (DingTalkChannel.init rt node req.uid req.did).verifyWebhookSignature rt req.timestamp req.signature req.body =
      .ok true) (hplan : DingTalkPlan codec req plan) :
    ∃ c, (dingtalkWebhook rt codec node req).Issued Any (.error (.call "")) [c] := by
  obtain ⟨body_json, inbound, hbody, hinbound, -⟩ := hplan
  exact ⟨dingtalkEntry req inbound, issued_of_ok hbody (issued_of_ok hverified (issued_of_ok hinbound (issued_error _)))⟩

/-- What is in the environment is a string. -/
lemma truthy_getenv (env_var : String) : truthy rt.zero (getenv node.environ env_var : Json (Number F)) = false ↔
    ∀ secret, node.environ env_var = some secret → secret = [] := by
  rw [getenv]
  cases h : node.environ env_var with
  | none => simp [truthy]
  | some secret => simp [truthy]

lemma feishu_unset : truthy rt.zero (FeishuChannel.init rt node req.uid req.did).webhook_secret = false ↔
    SecretUnset rt node req.uid req.did "feishu" "FEISHU_WEBHOOK_SECRET" := by
  rw [FeishuChannel.init, SecretUnset]
  cases node.getSecret rt req.uid req.did "feishu" with
  | ok keys => exact Iff.rfl
  | error e => exact truthy_getenv _

lemma dingtalk_unset : truthy rt.zero (DingTalkChannel.init rt node req.uid req.did).webhook_secret = false ↔
    SecretUnset rt node req.uid req.did "dingtalk" "DINGTALK_WEBHOOK_SECRET" := by
  rw [DingTalkChannel.init, SecretUnset]
  cases node.getSecret rt req.uid req.did "dingtalk" with
  | ok keys => exact Iff.rfl
  | error e => exact truthy_getenv _

lemma feishu_unsigned (channel : FeishuChannel F) (timestamp : Option Str) (body : Bytes) :
    channel.verifyWebhookSignature rt timestamp none body = .ok true ↔ truthy rt.zero channel.webhook_secret = false := by
  cases htrue : truthy rt.zero channel.webhook_secret with
  | false => simp [FeishuChannel.verifyWebhookSignature, htrue]
  | true => simp [feishu_verified_iff htrue]

lemma dingtalk_unsigned (channel : DingTalkChannel F) (timestamp : Option Str) (body : Bytes) :
    channel.verifyWebhookSignature rt timestamp none body = .ok true ↔ truthy rt.zero channel.webhook_secret = false := by
  cases htrue : truthy rt.zero channel.webhook_secret with
  | false => simp [DingTalkChannel.verifyWebhookSignature, htrue]
  | true => simp [dingtalk_verified_iff htrue]

end Runs

/-- Whatever the ledger, the broadcast and the router answer, a request sets off nothing before it is
verified and read; then the entry, the broadcast and the routing follow in this order, each once, up to the
first that fails. Without a signature it is verified exactly if the secret that counts is not set: that of
the vault where the vault has keys, even if the environment has one. -/
theorem webhooks_admit_verified (rt : Runtime fl) (codec : Codec F) (node : Node) (req : Request) :
    Admits (feishuWebhook rt codec node req)
      ((FeishuChannel.init rt node req.uid req.did).verifyWebhookSignature rt req.timestamp req.signature req.body)
      req.signature (SecretUnset rt node req.uid req.did "feishu" "FEISHU_WEBHOOK_SECRET") (FeishuPlan rt codec req) ∧
    Admits (dingtalkWebhook rt codec node req)
      ((DingTalkChannel.init rt node req.uid req.did).verifyWebhookSignature rt req.timestamp req.signature req.body)
      req.signature (SecretUnset rt node req.uid req.did "dingtalk" "DINGTALK_WEBHOOK_SECRET") (DingTalkPlan codec req) := by
  refine ⟨⟨fun x cs => feishuWebhook_runs, issues_iff (fun x cs => feishuWebhook_runs) fun plan => feishuWebhook_first, ?_⟩,
    ⟨fun x cs => dingtalkWebhook_runs, issues_iff (fun x cs => dingtalkWebhook_runs) fun plan => dingtalkWebhook_first, ?_⟩⟩
  · intro hsignature
    rw [hsignature, feishu_unsigned, feishu_unset]
  · intro hsignature
    rw [hsignature, dingtalk_unsigned, dingtalk_unset]

end OpsSentry.Channels
