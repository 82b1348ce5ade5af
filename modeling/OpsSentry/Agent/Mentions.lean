import OpsSentry.Agent.MessageRouter
import OpsSentry.Agent.ToolPermissions
import Mathlib.Tactic.IntervalCases

/-! Mentions of agents in a message: the DIDs that the manager generates, the pattern that the router
looks for, and the directory that the manager finds for a match. -/

namespace OpsSentry.Agent.Mentions

open Foundation.Text Foundation.Values Manager MessageRouter

/-- The version and the variant that `uuid.uuid4` sets. -/
def Uuid4 (token : HexToken) : Prop :=
  token.digits[12]? = some '4' ∧ ∃ c ∈ ['8', '9', 'A', 'B'], token.digits[16]? = some c

def Generated (did : String) : Prop := ∃ token, Uuid4 token ∧ generateDid token = did

def Mentioned (content did : String) : Prop := '@' :: did.toList <:+: content.toList

section Manager

variable {K : Type} (py : Builtins) (place : CoreDir → K)

/-- The agent exists, and this is its directory. -/
structure IsDirOf (uid did : String) (s : Store K) (core_dir : CoreDir) : Prop where
  account : requireNonEmpty py "uid" (.str uid) = .ok core_dir.uid
  did : core_dir.did = did
  exists_dir : (s (place core_dir)).isSome

structure MentionsResolve (uid content : String) (s : Store K) : Prop where
  resolved : ∀ did core_dir, Generated did → Mentioned content did → IsDirOf py place uid did s core_dir →
    ∃ target ∈ extractMentions content, resolveAgentCoreDir py place (.str uid) (.str target) s = .ok core_dir
  arises : ∀ target ∈ extractMentions content,
    ∃ did, Generated did ∧ Mentioned content did ∧ (target = did ∨ target = "@" ++ did)

end Manager

/-- `DID-[0-9A-F]{8}-[0-9A-F]{6}` behind an `@`. -/
def mention (account serial : List Char) : List Char := ['@', 'D', 'I', 'D', '-'] ++ account ++ ['-'] ++ serial

structure IsHex (n : ℕ) (cs : List Char) : Prop where
  length : cs.length = n
  digits : ∀ c ∈ cs, c ∈ HEX_DIGITS

section Pattern

variable {cs w account serial : List Char}

lemma isHex_of_all {n : ℕ} (hlength : cs.length = n) (hall : cs.all (· ∈ HEX_DIGITS) = true) : IsHex n cs :=
  ⟨hlength, by simpa using hall⟩

lemma mem_hexDigits {c : Char} : (c.isDigit || ('A' ≤ c && c ≤ 'F')) = true ↔ c ∈ HEX_DIGITS := by
  constructor
  · intro h
    simp only [Bool.or_eq_true, Bool.and_eq_true, decide_eq_true_eq, Char.isDigit, Char.le_def, ge_iff_le,
      UInt32.le_iff_toNat_le] at h
    have hc : Char.ofNat c.toNat = c := Char.ofNat_toNat c
    have hn : (48 ≤ c.toNat ∧ c.toNat ≤ 57) ∨ 65 ≤ c.toNat ∧ c.toNat ≤ 70 := h
    rw [← hc]
    generalize c.toNat = n at hn
    have hlow : 48 ≤ n := by omega
    have hhigh : n ≤ 70 := by omega
    interval_cases n <;> first | decide | omega
  · have hall : HEX_DIGITS.all (fun c => c.isDigit || ('A' ≤ c && c ≤ 'F')) = true := by decide
    exact List.all_eq_true.mp hall c

lemma isMention_iff : isMention w = true ↔ ∃ account serial, IsHex 8 account ∧ IsHex 6 serial ∧ w = mention account serial := by
  constructor
  · intro h
    simp only [isMention, Bool.and_eq_true, decide_eq_true_eq, List.all_eq_true, mem_hexDigits] at h
    obtain ⟨⟨⟨⟨hlen, hfirst⟩, haccount⟩, hdash⟩, hserial⟩ := h
    refine ⟨(w.drop 5).take 8, w.drop 14, ⟨by simp [hlen], haccount⟩, ⟨by simp [hlen], hserial⟩, ?_⟩
    have h₁ : w.drop 5 = (w.drop 5).take 8 ++ w.drop 13 := by
      rw [show w.drop 13 = (w.drop 5).drop 8 by rw [List.drop_drop], List.take_append_drop]
    have h₂ : w.drop 13 = (w.drop 13).take 1 ++ w.drop 14 := by
      rw [show w.drop 14 = (w.drop 13).drop 1 by rw [List.drop_drop], List.take_append_drop]
    calc w = w.take 5 ++ w.drop 5 := (List.take_append_drop 5 w).symm
      _ = w.take 5 ++ ((w.drop 5).take 8 ++ ((w.drop 13).take 1 ++ w.drop 14)) := by rw [← h₂, ← h₁]
      _ = mention ((w.drop 5).take 8) (w.drop 14) := by rw [hfirst, hdash, mention]; simp
  · rintro ⟨account, serial, ha, hs, rfl⟩
    simp only [isMention, Bool.and_eq_true, List.all_eq_true, mem_hexDigits, mention]
    have hdrop : (account ++ '-' :: serial).drop 8 = '-' :: serial := by rw [← ha.length, List.drop_left]
    have htake : (account ++ '-' :: serial).take 8 = account := by rw [← ha.length, List.take_left]
    refine ⟨⟨⟨⟨by simp [ha.length, hs.length], by simp⟩, ?_⟩, ?_⟩, ?_⟩
    · simpa [htake] using ha.digits
    · simp [hdrop]
    · have hlast : (account ++ '-' :: serial).drop 9 = serial := by
        rw [show 9 = 8 + 1 from rfl, ← List.drop_drop, hdrop]
        rfl
      simpa [hlast] using hs.digits

lemma length_of_isMention (h : isMention w = true) : w.length = 20 := by
  obtain ⟨account, serial, ha, hs, rfl⟩ := isMention_iff.mp h
  simp [mention, ha.length, hs.length]

/-- A match begins with its only `@`. -/
lemma at_once (h : isMention w = true) : ∃ v, w = '@' :: v ∧ '@' ∉ v := by
  obtain ⟨account, serial, ha, hs, rfl⟩ := isMention_iff.mp h
  refine ⟨['D', 'I', 'D', '-'] ++ account ++ ['-'] ++ serial, by simp [mention], ?_⟩
  have hat : '@' ∉ HEX_DIGITS := by decide
  simp only [List.mem_append, not_or]
  exact ⟨⟨⟨by decide, fun hc => hat (ha.digits _ hc)⟩, by decide⟩, fun hc => hat (hs.digits _ hc)⟩

lemma findMentions_drop (n : ℕ) (cs : List Char) : findMentions n cs = findMentions 0 (cs.drop n) := by
  induction cs generalizing n with
  | nil => cases n <;> simp [findMentions]
  | cons c cs ih =>
    cases n with
    | zero => rfl
    | succ n => rw [findMentions, ih, List.drop_succ_cons]

/-- Behind a match that begins the text, another one begins after its end. -/
lemma infix_after {v : List Char} (hv : isMention v = true) (hw : isMention w = true) :
    w <:+: v ++ cs ↔ w = v ∨ w <:+: cs := by
  constructor
  · rintro ⟨pre, post, h⟩
    obtain ⟨v', rfl, hv'⟩ := at_once hv
    obtain ⟨w', rfl, -⟩ := at_once hw
    rw [List.append_assoc] at h
    cases pre with
    | nil =>
      rw [List.nil_append] at h
      have hlen := (length_of_isMention hw).trans (length_of_isMention hv).symm
      exact Or.inl (List.append_inj h hlen).1
    | cons c pre =>
      obtain ⟨-, h⟩ := List.cons.inj h
      rcases List.append_eq_append_iff.mp h with ⟨as, rfl, has⟩ | ⟨bs, rfl, hbs⟩
      · cases as with
        | nil => exact Or.inr ⟨[], post, by simpa using has⟩
        | cons d as =>
          obtain ⟨rfl, -⟩ := List.cons.inj has
          exact absurd (List.mem_append_right _ List.mem_cons_self) hv'
      · exact Or.inr ⟨bs, post, by rw [hbs, List.append_assoc]⟩
  · rintro (rfl | h)
    · exact (List.prefix_append _ _).isInfix
    · exact h.trans (List.suffix_append _ _).isInfix

/-- Every match is found, also side by side. -/
lemma mem_findMentions {target : String} (cs : List Char) :
    target ∈ findMentions 0 cs ↔ isMention target.toList = true ∧ target.toList <:+: cs := by
  induction h : cs.length using Nat.strong_induction_on generalizing cs with
  | _ n ih =>
    cases cs with
    | nil =>
      simp only [findMentions, List.not_mem_nil, false_iff, not_and]
      intro hm hin
      rw [List.eq_nil_of_infix_nil hin] at hm
      cases hm
    | cons c cs =>
      rw [List.length_cons] at h
      rw [findMentions]
      split
      · rename_i hmatch
        have hsplit : c :: cs = (c :: cs).take 20 ++ cs.drop 19 := (List.take_append_drop 20 (c :: cs)).symm
        rw [List.mem_cons, findMentions_drop, ih _ (by rw [List.length_drop]; omega) _ rfl]
        have hofList : target = String.ofList ((c :: cs).take 20) ↔ target.toList = (c :: cs).take 20 := by
          rw [← String.toList_inj, String.toList_ofList]
        rw [hofList]
        constructor
        · rintro (heq | ⟨hm, hin⟩)
          · rw [heq]
            exact ⟨hmatch, (List.take_prefix _ _).isInfix⟩
          · refine ⟨hm, ?_⟩
            rw [hsplit]
            exact (infix_after hmatch hm).mpr (Or.inr hin)
        · rintro ⟨hm, hin⟩
          rw [hsplit] at hin
          exact ((infix_after hmatch hm).mp hin).imp id fun hin => ⟨hm, hin⟩
      · rename_i hmatch
        rw [ih _ (by omega) cs rfl]
        refine and_congr_right fun hm => ⟨List.infix_cons, fun hin => (List.infix_cons_iff.mp hin).resolve_left ?_⟩
        intro hpre
        apply hmatch
        rwa [← length_of_isMention hm, ← List.prefix_iff_eq_take.mp hpre]

lemma mem_extractMentions {content target : String} :
    target ∈ extractMentions content ↔ isMention target.toList = true ∧ target.toList <:+: content.toList :=
  mem_findMentions _

end Pattern

section Generated

variable {cs account serial : List Char}

/-- A token with these first digits. -/
def tokenOf (ha : IsHex 8 account) (hs : IsHex 6 serial) : HexToken where
  digits := account ++ serial ++ ['0', '0', '8'] ++ List.replicate 15 '0'
  length := by simp [ha.length, hs.length]
  hex c hc := by
    simp only [List.mem_append] at hc
    rcases hc with ((hc | hc) | hc) | hc
    · exact ha.digits c hc
    · exact hs.digits c hc
    · simp only [List.mem_cons, List.not_mem_nil, or_false] at hc
      rcases hc with rfl | rfl | rfl <;> decide
    · rw [List.eq_of_mem_replicate hc]
      decide

/-- What the generator makes is `DID-` and a match of the router's pattern with the version digit. -/
lemma generated_iff {did : String} : Generated did ↔
    ∃ account serial, IsHex 8 account ∧ IsHex 6 serial ∧ serial[4]? = some '4' ∧
      '@' :: did.toList = mention account serial := by
  constructor
  · rintro ⟨token, ⟨hversion, -⟩, rfl⟩
    refine ⟨token.digits.take 8, (token.digits.drop 8).take 6, ⟨by simp [token.length], fun c hc => ?_⟩,
      ⟨by simp [token.length], fun c hc => ?_⟩, ?_, by simp [generateDid, mention]⟩
    · exact token.hex c (List.mem_of_mem_take hc)
    · exact token.hex c (List.mem_of_mem_drop (List.mem_of_mem_take hc))
    · rwa [List.getElem?_take_of_lt (by omega), List.getElem?_drop]
  · rintro ⟨account, serial, ha, hs, hversion, hdid⟩
    have hlen := ha.length
    have hlen' := hs.length
    refine ⟨tokenOf ha hs, ⟨?_, '8', by simp, ?_⟩, ?_⟩
    · simp only [tokenOf]
      rw [List.append_assoc, List.append_assoc, List.getElem?_append_right (by omega),
        List.getElem?_append_left (by omega), hlen]
      exact hversion
    · simp only [tokenOf]
      rw [List.append_assoc, List.getElem?_append_right (by simp [hlen, hlen'])]
      simp [hlen, hlen']
    · rw [← String.toList_inj, generateDid, String.toList_ofList]
      have htail : did.toList = (mention account serial).tail := by rw [← hdid, List.tail_cons]
      rw [htail]
      simp [tokenOf, mention, ← hlen, ← hlen']

end Generated

section Resolved

variable {K : Type} {py : Builtins} {place : CoreDir → K} {uid did content : String} {s : Store K}
  {core_dir : CoreDir}

/-- The `@` that the router leaves on a match is no part of any DID. -/
lemma normalizeDid_mention {target : String} (h : isMention target.toList = true) :
    normalizeDid py (.str target) = .error (.invalidAgentConfig ("invalid did format: " ++ target)) := by
  obtain ⟨account, serial, ha, hs, heq⟩ := isMention_iff.mp h
  have hchars : (['@', 'D', 'I', 'D', '-'] ++ HEX_DIGITS).all (fun c =>
      isSpace c = false ∧ c.toNat < 128 ∧ c.toUpper = c) = true := by decide +kernel
  have hall : ∀ c ∈ target.toList, _ := fun c hc => by
    refine of_decide_eq_true (List.all_eq_true.mp hchars c ?_)
    rw [heq] at hc
    simp only [mention, List.mem_append] at hc
    rcases hc with ((hc | hc) | hc) | hc
    · exact List.mem_append_left _ hc
    · exact List.mem_append_right _ (ha.digits c hc)
    · exact List.mem_append_left _ (by simp [List.mem_singleton.mp hc])
    · exact List.mem_append_right _ (hs.digits c hc)
  have hne : target ≠ "" := by
    rintro rfl
    cases h
  have hstrip : strip target = target := strip_of_not_isSpace fun c hc => (hall c hc).1
  have hup : py.upper target = target := py.upper_ascii _ fun c hc => (hall c hc).2
  simp only [normalizeDid, requireNonEmpty_str hstrip hne, ok_bind, hup]
  rw [if_pos]
  · rfl
  · rw [heq]
    simp [mention]

lemma not_resolved {target : String} (h : isMention target.toList = true) :
    resolveAgentCoreDir py place (.str uid) (.str target) s ≠ .ok core_dir := by
  intro hr
  obtain ⟨_, -, hr⟩ := bind_ok hr
  obtain ⟨_, hdid, -⟩ := bind_ok hr
  rw [normalizeDid_mention h] at hdid
  cases hdid

/-- Without the `@` it would be found. -/
lemma resolve_generated (hg : Generated did) (h : IsDirOf py place uid did s core_dir) :
    resolveAgentCoreDir py place (.str uid) (.str did) s = .ok core_dir := by
  obtain ⟨token, -, rfl⟩ := hg
  obtain ⟨name, _⟩ := core_dir
  obtain ⟨haccount, rfl, hs⟩ := h
  simp only [resolveAgentCoreDir, haccount, ok_bind, normalizeDid_generated, if_pos hs]
  rfl

/-- A match whose place of the version digit is not `4` names no DID of the generator. -/
lemma arises_iff : (∀ target ∈ extractMentions content,
      ∃ did, Generated did ∧ Mentioned content did ∧ (target = did ∨ target = "@" ++ did)) ↔
    ∀ account serial, IsHex 8 account → IsHex 6 serial → mention account serial <:+: content.toList →
      serial[4]? = some '4' := by
  constructor
  · intro h account serial ha hs hin
    have hm : isMention (mention account serial) = true := isMention_iff.mpr ⟨account, serial, ha, hs, rfl⟩
    have hmem : String.ofList (mention account serial) ∈ extractMentions content := by
      rw [mem_extractMentions, String.toList_ofList]
      exact ⟨hm, hin⟩
    obtain ⟨did, hg, -, ht⟩ := h _ hmem
    obtain ⟨account', serial', ha', hs', hversion, hdid⟩ := generated_iff.mp hg
    have heq : mention account serial = mention account' serial' := by
      rw [← hdid]
      rcases ht with ht | ht
      · rw [← String.toList_inj, String.toList_ofList] at ht
        have hlen := congrArg List.length hdid
        rw [List.length_cons, ← ht, length_of_isMention hm,
          length_of_isMention (isMention_iff.mpr ⟨_, _, ha', hs', rfl⟩)] at hlen
        omega
      · rw [← String.toList_inj, String.toList_ofList] at ht
        simpa using ht
    have hserial := (List.append_inj' heq (hs.length.trans hs'.length.symm)).2
    rwa [hserial]
  · intro h target ht
    obtain ⟨hm, hin⟩ := mem_extractMentions.mp ht
    obtain ⟨account, serial, ha, hs, heq⟩ := isMention_iff.mp hm
    have hcons : '@' :: (String.ofList target.toList.tail).toList = target.toList := by
      rw [String.toList_ofList, heq]
      rfl
    refine ⟨String.ofList target.toList.tail, ?_, ?_, Or.inr ?_⟩
    · exact generated_iff.mpr ⟨account, serial, ha, hs, h account serial ha hs (heq ▸ hin), hcons.trans heq⟩
    · rw [Mentioned, hcons]
      exact hin
    · rw [← String.toList_inj, String.toList_append]
      exact hcons.symm

theorem mentions_resolve_iff (py : Builtins) (place : CoreDir → K) (uid content : String) (s : Store K) :
    MentionsResolve py place uid content s ↔
      (∀ did core_dir, Generated did → Mentioned content did → ¬ IsDirOf py place uid did s core_dir) ∧
      ∀ account serial, IsHex 8 account → IsHex 6 serial → mention account serial <:+: content.toList →
        serial[4]? = some '4' := by
  constructor
  · intro h
    refine ⟨fun did core_dir hg hm hdir => ?_, arises_iff.mp h.arises⟩
    obtain ⟨target, ht, hr⟩ := h.resolved did core_dir hg hm hdir
    exact not_resolved (mem_extractMentions.mp ht).1 hr
  · intro ⟨hnone, hversion⟩
    exact ⟨fun did core_dir hg hm hdir => absurd hdir (hnone did core_dir hg hm), arises_iff.mpr hversion⟩

/-- An account with one agent. -/
def oneAgent : Store (String × String) := fun k => if k = ("ops", "DID-1A2B3C4D-5E6F47") then some {} else none

theorem mention_unresolved :
    ¬ MentionsResolve plain accounts "ops" "@DID-1A2B3C4D-5E6F47 check nginx" oneAgent := by
  intro h
  have hg : Generated "DID-1A2B3C4D-5E6F47" :=
    generated_iff.mpr ⟨"1A2B3C4D".toList, "5E6F47".toList, isHex_of_all rfl (by decide), isHex_of_all rfl (by decide),
      rfl, rfl⟩
  have hm : Mentioned "@DID-1A2B3C4D-5E6F47 check nginx" "DID-1A2B3C4D-5E6F47" := ⟨[], " check nginx".toList, rfl⟩
  obtain ⟨target, ht, hr⟩ := h.resolved _ ⟨"ops", "DID-1A2B3C4D-5E6F47"⟩ hg hm ⟨rfl, rfl, rfl⟩
  exact not_resolved (mem_extractMentions.mp ht).1 hr

end Resolved

end OpsSentry.Agent.Mentions
