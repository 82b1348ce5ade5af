import OpsSentry.Foundation.JsonKeys
import OpsSentry.Foundation.JsonLoads
import Mathlib

/-! `HeartbeatSender._send_heartbeat` and `AgentManager.validate_heartbeat`: the signature of a
heartbeat is the HMAC of its JSON text with sorted keys. -/

namespace OpsSentry.Cluster.Heartbeat

open Foundation.JsonText

/-- `hmac.new(key, message, hashlib.sha256).hexdigest()`. -/
structure Hmac where
  hexdigest : (key message : ByteArray) → String
  injective : ∀ key message message', hexdigest key message = hexdigest key message' → message = message'
  hex : ∀ key message, hexdigest key message ≠ "" ∧ ∀ c ∈ (hexdigest key message).toList, c.toNat < 128

inductive Exc
  | type
deriving DecidableEq

section Calls

variable {F : Type} (fl : Floats F) (mac : Hmac) (secret : String)

def signature (data : List (Str × Json F)) : String :=
  mac.hexdigest secret.toUTF8 (String.ofList (dumpsSorted fl (.obj data))).toUTF8

def payload (node_id : Str) (now_ms : ℤ) (metrics : Json F) : List (Str × Json F) :=
  [(str "node_id", .str node_id), (str "ts", .int now_ms), (str "status", .str (str "ACTIVE")),
    (str "metrics", metrics)]

/-- The text that is stored in Redis. -/
def sendHeartbeat (node_id : Str) (now_ms : ℤ) (metrics : Json F) : Word :=
  let data := payload node_id now_ms metrics
  dumps fl (.obj (Foundation.Values.put data (str "hmac") (.str (str (signature fl mac secret data)))))

def truthy : Json F → Bool
  | .null => false
  | .bool b => b
  | .int n => n ≠ 0
  | .float x => fl.repr x ≠ "0.0".toList && fl.repr x ≠ "-0.0".toList
  | .str s => s ≠ []
  | .arr xs => !xs.isEmpty
  | .obj kvs => !kvs.isEmpty

/-- `hmac.compare_digest` takes ASCII strings only. -/
def compareDigest (expected : String) : Json F → Except Exc Bool
  | .str s => if s.all (· < 128) then .ok (s = str expected) else .error .type
  | _ => .error .type

def pop (key : Str) (kvs : List (Str × Json F)) : List (Str × Json F) := kvs.filter fun p => p.1 ≠ key

def validateHeartbeat (payload : List (Str × Json F)) : Except Exc Bool :=
  match payload.lookup (str "hmac") with
  | none => .ok false
  | some provided_hmac =>
    if truthy fl provided_hmac then
      compareDigest (signature fl mac secret (pop (str "hmac") payload)) provided_hmac
    else .ok false

end Calls

section Fields

variable {F : Type} {kvs lws : List (Str × Json F)} {k : Str} {x y : Json F}

lemma perm_pop (hk : (kvs.map Prod.fst).Nodup) (h : kvs.lookup k = some x) :
    kvs.Perm ((k, x) :: pop k kvs) := by
  induction kvs with
  | nil => cases h
  | cons p kvs ih =>
    obtain ⟨l, z⟩ := p
    rw [lookup_eq_some_iff hk] at h
    rw [List.map_cons, List.nodup_cons] at hk
    by_cases hl : l = k
    · subst hl
      have hkey : l ∉ kvs.map Prod.fst := hk.1
      have hpop : pop l ((l, z) :: kvs) = kvs := by
        rw [pop, List.filter_cons_of_neg (by simp), List.filter_eq_self]
        intro q hq
        rw [decide_eq_true_eq]
        intro heq
        apply hkey
        rw [← heq]
        exact List.mem_map_of_mem hq
      rcases List.mem_cons.mp h with heq | hmem
      · rw [hpop, heq]
      · exact absurd (List.mem_map_of_mem (f := Prod.fst) hmem) hkey
    · have hmem : (k, x) ∈ kvs := (List.mem_cons.mp h).resolve_left fun heq => hl (congrArg Prod.fst heq).symm
      rw [pop, List.filter_cons_of_pos (by simpa using hl)]
      exact ((ih hk.2 ((lookup_eq_some_iff hk.2).mpr hmem)).cons _).trans (List.Perm.swap _ _ _)

lemma wf_pop (h : WF (.obj kvs)) : WF (.obj (pop k kvs)) := by
  refine ⟨h.1.sublist (List.filter_sublist.map _), wfFields_iff.mpr fun p hp => ?_⟩
  exact wfFields_iff.mp h.2 p (List.mem_of_mem_filter hp)

lemma same_pop (hkvs : WF (.obj kvs)) (hlws : WF (.obj lws)) (hx : kvs.lookup k = some x)
    (hy : lws.lookup k = some x) : Same (.obj (pop k kvs)) (.obj (pop k lws)) ↔ Same (.obj kvs) (.obj lws) := by
  have hcons : ∀ {kvs : List (Str × Json F)}, WF (.obj kvs) → kvs.lookup k = some x →
      (sortFields kvs).Perm ((k, sortKeys x) :: sortFields (pop k kvs)) := by
    intro kvs hwf hlook
    rw [sortFields_eq, sortFields_eq, ← List.map_cons (f := fun p : Str × Json F => (p.1, sortKeys p.2)) (a := (k, x))]
    exact (perm_pop hwf.1 hlook).map _
  rw [same_obj_iff_perm (wf_pop hkvs) (wf_pop hlws), same_obj_iff_perm hkvs hlws,
    (hcons hkvs hx).congr_left, (hcons hlws hy).congr_right, List.perm_cons]

end Fields

section Signed

variable {F : Type} {fl : Floats F} {mac : Hmac} {secret : String} {node_id : Str} {now_ms : ℤ}
  {metrics : Json F}
  {data data' : List (Str × Json F)}

lemma signature_eq_iff (hdata : WF (.obj data)) (hdata' : WF (.obj data')) :
    signature fl mac secret data = signature fl mac secret data' ↔ Same (.obj data) (.obj data') := by
  rw [← @dumpsSorted_eq_iff F fl _ _ hdata hdata']
  constructor
  · intro h
    have hbytes := mac.injective _ _ _ h
    rw [String.toUTF8_eq_toByteArray, String.toUTF8_eq_toByteArray, String.toByteArray_inj] at hbytes
    exact String.ofList_injective hbytes
  · intro h
    rw [signature, signature, h]

/-- A packet with its signature as the last field. -/
def signed (fl : Floats F) (mac : Hmac) (secret : String) (data : List (Str × Json F)) : List (Str × Json F) :=
  data ++ [(str "hmac", .str (str (signature fl mac secret data)))]

lemma validate_of_lookup (hlook : data.lookup (str "hmac") = some (.str (str (signature fl mac secret data')))) :
    validateHeartbeat fl mac secret data =
      .ok (signature fl mac secret data' = signature fl mac secret (pop (str "hmac") data)) := by
  obtain ⟨hne, hascii⟩ := mac.hex secret.toUTF8 (String.ofList (dumpsSorted fl (.obj data'))).toUTF8
  have htruthy : truthy fl (.str (str (signature fl mac secret data'))) = true := decide_eq_true (str_ne_nil hne)
  have hall : (str (signature fl mac secret data')).all (· < 128) = true := by
    rw [str, List.all_map, List.all_eq_true]
    intro c hc
    exact decide_eq_true (hascii c hc)
  rw [validateHeartbeat, hlook]
  simp only [htruthy, if_true, compareDigest, hall]
  congr 1
  rw [decide_eq_decide]
  exact ⟨str_injective, congrArg str⟩

lemma wf_payload (now_ms : ℤ) (hid : ValidStr node_id) (hmetrics : WF metrics) :
    WF (.obj (payload node_id now_ms metrics)) := by
  refine ⟨by simp only [payload, List.map_cons, List.map_nil]; decide, ?_⟩
  exact ⟨⟨valid_str _, hid⟩, ⟨valid_str _, trivial⟩, ⟨valid_str _, valid_str _⟩, ⟨valid_str _, hmetrics⟩, trivial⟩

lemma hmac_notMem_payload : str "hmac" ∉ (payload node_id now_ms metrics).map Prod.fst := by
  simp only [payload, List.map_cons, List.map_nil]
  decide

lemma wf_signed (fl : Floats F) (mac : Hmac) (secret : String) (hdata : WF (.obj data))
    (hkey : str "hmac" ∉ data.map Prod.fst) :
    WF (.obj (signed fl mac secret data)) := by
  constructor
  · rw [signed, List.map_append, List.nodup_append_comm, List.map_singleton, List.singleton_append, List.nodup_cons]
    exact ⟨hkey, hdata.1⟩
  · rw [signed, wfFields_iff]
    intro p hp
    rcases List.mem_append.mp hp with hp | hp
    · exact wfFields_iff.mp hdata.2 p hp
    · rw [List.mem_singleton.mp hp]
      exact ⟨valid_str _, valid_str _⟩

lemma pop_signed (hkey : str "hmac" ∉ data.map Prod.fst) :
    pop (str "hmac") (signed fl mac secret data) = data := by
  rw [pop, signed, List.filter_append, List.filter_cons_of_neg (by simp), List.filter_nil, List.append_nil,
    List.filter_eq_self]
  intro p hp
  rw [decide_eq_true_eq]
  intro heq
  apply hkey
  rw [← heq]
  exact List.mem_map_of_mem hp

/-- The signature of one packet on another: accepted exactly if they are the same. -/
lemma validate_iff {packet : List (Str × Json F)} (hdata : WF (.obj data))
    (hkey : str "hmac" ∉ data.map Prod.fst)
    (hpacket : WF (.obj packet))
    (hlook : packet.lookup (str "hmac") = some (.str (str (signature fl mac secret data)))) :
    ∃ accepted, validateHeartbeat fl mac secret packet = .ok accepted ∧
      (accepted = true ↔ Same (.obj (signed fl mac secret data)) (.obj packet)) := by
  have hsigned := wf_signed fl mac secret hdata hkey
  have hown : (signed fl mac secret data).lookup (str "hmac") =
      some (.str (str (signature fl mac secret data))) :=
    (lookup_eq_some_iff hsigned.1).mpr (by simp [signed])
  refine ⟨_, validate_of_lookup hlook, ?_⟩
  rw [decide_eq_true_eq, signature_eq_iff hdata (wf_pop hpacket), ← same_pop hsigned hpacket hown hlook,
    pop_signed hkey]

lemma sendHeartbeat_eq : sendHeartbeat fl mac secret node_id now_ms metrics =
    dumps fl (.obj (signed fl mac secret (payload node_id now_ms metrics))) := by
  rw [sendHeartbeat, put_of_notMem hmac_notMem_payload]
  rfl

lemma dumpsSorted_payload : dumpsSorted fl (.obj (payload node_id now_ms metrics)) =
    dumps fl (.obj [(str "metrics", sortKeys metrics), (str "node_id", .str node_id),
      (str "status", .str (str "ACTIVE")), (str "ts", .int now_ms)]) := by
  have hkeys : ((sortFields (payload node_id now_ms metrics)).map Prod.fst).Nodup := by
    simp only [payload, sortFields, List.map_cons, List.map_nil]
    decide
  have hperm : ∀ a b c d : Str × Json F, [a, b, c, d].Perm [d, a, c, b] := fun a b c d =>
    (@List.perm_append_comm _ [a, b, c] [d]).trans (((List.Perm.swap c b []).cons a).cons d)
  rw [dumpsSorted, sortKeys, (sorted_eq_iff hkeys).mpr (hperm _ _ _ _), sorted, List.mergeSort_of_pairwise]
  · rfl
  · simp only [List.pairwise_cons, List.forall_mem_cons, List.not_mem_nil, false_imp_iff, implies_true,
      List.Pairwise.nil, and_true, decide_eq_true_eq]
    decide

/-- A payload with the surrogates of its node id paired, as decoding pairs them, has the same text. -/
lemma exists_valid_payload (fl : Floats F) (mac : Hmac) (secret : String) (now_ms : ℤ) (metrics : Json F)
    (hid : ∀ c ∈ node_id, c < 0x110000) :
    ∃ id, ValidStr id ∧ sendHeartbeat fl mac secret node_id now_ms metrics =
      sendHeartbeat fl mac secret id now_ms metrics := by
  obtain ⟨id, hvalid, htext⟩ := exists_valid hid
  refine ⟨id, hvalid, ?_⟩
  have hsorted : signature fl mac secret (payload node_id now_ms metrics) =
      signature fl mac secret (payload id now_ms metrics) := by
    rw [signature, signature, dumpsSorted_payload, dumpsSorted_payload]
    simp only [dumps, dumpsFields, htext]
  rw [sendHeartbeat_eq, sendHeartbeat_eq, signed, signed, hsorted]
  simp only [payload, List.cons_append, dumps, dumpsFields, htext]

theorem heartbeat_binds (hid : ∀ c ∈ node_id, c < 0x110000) (hmetrics : WF metrics) :
    ∃ packet signature, loads fl (sendHeartbeat fl mac secret node_id now_ms metrics) = some (.obj packet) ∧
      packet.lookup (str "hmac") = some (.str signature) ∧
      ∀ received, WF (.obj received) →
        (Same (.obj packet) (.obj received) → validateHeartbeat fl mac secret received = .ok true) ∧
        (received.lookup (str "hmac") = some (.str signature) → ¬ Same (.obj packet) (.obj received) →
          validateHeartbeat fl mac secret received = .ok false) := by
  obtain ⟨id, hvalid, htext⟩ := exists_valid_payload fl mac secret now_ms metrics hid
  have hdata := wf_payload now_ms hvalid hmetrics
  have hkey : str "hmac" ∉ (payload id now_ms metrics).map Prod.fst := hmac_notMem_payload
  have hsigned := wf_signed fl mac secret hdata hkey
  have hown : (signed fl mac secret (payload id now_ms metrics)).lookup (str "hmac") =
      some (.str (str (signature fl mac secret (payload id now_ms metrics)))) :=
    (lookup_eq_some_iff hsigned.1).mpr (by simp [signed])
  refine ⟨_, _, by rw [htext, sendHeartbeat_eq, loads_dumps hsigned], hown, ?_⟩
  intro received hreceived
  constructor
  · intro hsame
    have hlook : received.lookup (str "hmac") =
        some (.str (str (signature fl mac secret (payload id now_ms metrics)))) := by
      obtain ⟨y, hy, hequal⟩ := sameFields_mem hsame.2 ((lookup_eq_some_iff hsigned.1).mp hown)
      cases y with
      | str t => rw [hy, ← show _ = t from hequal]
      | _ => exact absurd hequal (by simp [Same])
    obtain ⟨accepted, hvalidate, haccepted⟩ := validate_iff hdata hkey hreceived hlook
    rw [hvalidate, haccepted.mpr hsame]
  · intro hlook hdiffers
    obtain ⟨accepted, hvalidate, haccepted⟩ := validate_iff hdata hkey hreceived hlook
    rw [hvalidate, Bool.eq_false_iff.mpr fun h => hdiffers (haccepted.mp h)]

end Signed

section Sample

def halves : Floats Unit where
  repr _ := "0.5".toList
  parse _ := ()
  float_text _ := ⟨[], ['0'], ['.', '5'], [], ⟨Or.inl rfl, Or.inl rfl, Or.inr ⟨['5'], by decide, by simp [Digits], rfl⟩,
    Or.inl rfl⟩, by decide, rfl⟩
  parse_repr _ := rfl

def halvesInterpreter : Foundation.JsonLoads.Interpreter halves where
  float _ := .finite ()
  float_repr _ := rfl
  limit := 2
  room := le_refl 2

def hexByte (b : UInt8) : List Char := [Nat.digitChar (b.toNat / 16), Nat.digitChar (b.toNat % 16)]

lemma hexByte_ascii (b : UInt8) : ∀ c ∈ hexByte b, c.toNat < 128 := by
  intro c hc
  have hdigit : ∀ n < 16, (Nat.digitChar n).toNat < 128 := by decide
  have := b.toNat_lt
  rcases List.mem_cons.mp hc with rfl | hc
  · exact hdigit _ (by omega)
  · rw [List.mem_singleton.mp hc]
    exact hdigit _ (Nat.mod_lt _ (by decide))

lemma flatMap_hexByte_injective {bs cs : List UInt8} (h : bs.flatMap hexByte = cs.flatMap hexByte) : bs = cs := by
  induction bs generalizing cs with
  | nil =>
    cases cs with
    | nil => rfl
    | cons c cs => cases h
  | cons b bs ih =>
    cases cs with
    | nil => cases h
    | cons c cs =>
      obtain ⟨hhigh, hlow, htail⟩ : _ ∧ _ ∧ bs.flatMap hexByte = cs.flatMap hexByte := by
        simpa only [List.flatMap_cons, hexByte, List.cons_append, List.nil_append, List.cons.injEq] using h
      have hb := b.toNat_lt
      have hc := c.toNat_lt
      have hhigh := congrArg hexValue hhigh
      have hlow := congrArg hexValue hlow
      rw [hexValue_digitChar (by omega), hexValue_digitChar (by omega), Option.some.injEq] at hhigh hlow
      rw [ih htail, UInt8.toNat_inj.mp (by omega : b.toNat = c.toNat)]

def sampleText : String :=
  "\x7b\"metrics\": \x7b\"jobs\": [1, 2], \"load\": 0.5\x7d, \"node_id\": \"node-1\", \"status\": \"ACTIVE\", \"ts\": 1700000000000\x7d"

def knownDigest : List Char := "9649d11f91dc0034c792c0912c489d7aa0516c29bee8053bdbac4c9a9fedc1d6".toList

/-- The digest of one text under one key, and other texts in hexadecimal, too long for a digest. -/
def sampleDigest (key message : ByteArray) : List Char :=
  if key = "secret".toUTF8 ∧ message = sampleText.toUTF8 then knownDigest
  else List.replicate 65 '0' ++ message.data.toList.flatMap hexByte

lemma sampleDigest_injective {key message message' : ByteArray}
    (h : sampleDigest key message = sampleDigest key message') : message = message' := by
  have hlength := congrArg List.length h
  rw [sampleDigest, sampleDigest] at h hlength
  split_ifs at h hlength with hm hm' hm'
  · rw [hm.2, hm'.2]
  · rw [List.length_append, List.length_replicate] at hlength
    have : (64 : ℕ) = 65 + _ := hlength
    omega
  · rw [List.length_append, List.length_replicate] at hlength
    have : 65 + _ = (64 : ℕ) := hlength
    omega
  · exact ByteArray.ext (Array.toList_inj.mp (flatMap_hexByte_injective (List.append_cancel_left h)))

lemma sampleDigest_ascii (key message : ByteArray) :
    sampleDigest key message ≠ [] ∧ ∀ c ∈ sampleDigest key message, c.toNat < 128 := by
  rw [sampleDigest]
  split_ifs
  · have hascii : knownDigest.all (fun c => c.toNat < 128) = true := by decide +kernel
    refine ⟨by decide +kernel, fun c hc => ?_⟩
    simpa using List.all_eq_true.mp hascii c hc
  · refine ⟨List.append_ne_nil_of_left_ne_nil (List.cons_ne_nil _ _) _, fun c hc => ?_⟩
    rcases List.mem_append.mp hc with hc | hc
    · rw [List.eq_of_mem_replicate hc]
      decide
    · obtain ⟨b, -, hc⟩ := List.mem_flatMap.mp hc
      exact hexByte_ascii b c hc

def sampleHmac : Hmac where
  hexdigest key message := String.ofList (sampleDigest key message)
  injective _ _ _ h := sampleDigest_injective (String.ofList_injective h)
  hex key message := by
    obtain ⟨hne, hascii⟩ := sampleDigest_ascii key message
    rw [String.toList_ofList]
    exact ⟨fun h => hne (String.ofList_injective h), hascii⟩

def sampleMetrics : Json Unit := .obj [(str "load", .float ()), (str "jobs", .arr [.int 1, .int 2])]

theorem node_heartbeat_binds :
    ∃ packet signature,
      loads halves (sendHeartbeat halves sampleHmac "secret" (str "node-1") 1700000000000 sampleMetrics) =
        some (.obj packet) ∧
      packet.lookup (str "hmac") = some (.str signature) ∧
      ∀ received, WF (.obj received) →
        (Same (.obj packet) (.obj received) → validateHeartbeat halves sampleHmac "secret" received = .ok true) ∧
        (received.lookup (str "hmac") = some (.str signature) → ¬ Same (.obj packet) (.obj received) →
          validateHeartbeat halves sampleHmac "secret" received = .ok false) :=
  heartbeat_binds (valid_str _).bounded (by simp [sampleMetrics, WF, WFFields, WFList, valid_str]; decide)

end Sample

end OpsSentry.Cluster.Heartbeat
