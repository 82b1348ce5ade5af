import OpsSentry.Foundation.Groups
import OpsSentry.Foundation.JsonLines
import OpsSentry.Foundation.Sections
import OpsSentry.Foundation.Values
import Mathlib.Data.List.Dedup

/-! `_aggregate` and `_dispatch` of the `AlertAggregator`: the alerts of one window and their summary. -/

namespace OpsSentry.Cluster.Alerts

open Foundation.Dicts Foundation.Groups Foundation.Values
open Foundation.JsonText (Word decimal)

structure AlertEvent where
  id : String
  type : String
  severity : String
  source : String
  message : String
  details : Dict
  timestamp : ℤ

abbrev GroupedAlerts := OrderedDict String (List AlertEvent)

def dedupKey (e : AlertEvent) : Word :=
  e.source.toList ++ ":".toList ++ e.type.toList ++ ":".toList ++ e.severity.toList

def aggregateFrom (grouped : GroupedAlerts) (seen : List Word) : List AlertEvent → GroupedAlerts
  | [] => grouped
  | e :: events =>
    if dedupKey e ∈ seen then aggregateFrom grouped seen events
    else aggregateFrom (appendTo AlertEvent.type grouped e) (dedupKey e :: seen) events

def aggregate (events : List AlertEvent) : GroupedAlerts := aggregateFrom .empty [] events

/-- The title and the content of the message for the channels; its severity goes to the HUD. -/
structure Summary where
  title : Word
  content : Word
  severity : String

def singleLine (alert_type : String) (e : AlertEvent) : Word :=
  "🔴 ".toList ++ alert_type.toList ++ ": ".toList ++ e.message.toList ++ " (Source: ".toList ++ e.source.toList ++
    ")".toList

def countedLine (alert_type : String) (occurrences : ℕ) (sources : Word) : Word :=
  "🔴 ".toList ++ alert_type.toList ++ ": ".toList ++ (decimal occurrences ++ (" occurrences across nodes [".toList ++
    sources ++ "]".toList))

def joinedSources (events : List AlertEvent) : Word := ", ".toList.intercalate (events.map fun e => e.source.toList)

def summaryLine (alert_type : String) (events : List AlertEvent) : Word :=
  match events with
  | [e] => singleLine alert_type e
  | events => countedLine alert_type events.length (joinedSources events)

def totalCount (grouped_alerts : GroupedAlerts) : ℕ := (grouped_alerts.values.map List.length).sum

/-- What is sent to every channel and to the HUD; no failure to send it changes it. -/
def dispatch (grouped_alerts : GroupedAlerts) : Option Summary :=
  if totalCount grouped_alerts = 0 then none
  else some
    { title := "🚨 OpsSentry Alert Summary (".toList ++ decimal (totalCount grouped_alerts) ++ " events)".toList
      content := ['\n'].intercalate (grouped_alerts.items.map fun p => summaryLine p.1 p.2)
      severity := if grouped_alerts.values.any fun events => events.any fun e => e.severity == "CRITICAL" then "CRITICAL"
        else "WARNING" }

section Statement

def triple (e : AlertEvent) : String × String × String := (e.source, e.type, e.severity)

/-- For each triple, the last event with it, under its type. -/
structure Represents (events : List AlertEvent) (grouped : GroupedAlerts) : Prop where
  types : ∀ t, t ∈ grouped.keys ↔ ∃ e ∈ events, e.type = t
  one_each : ∀ t es, grouped.get? t = some es → (es.map triple).Nodup
  last : ∀ t es, grouped.get? t = some es → ∀ e, e ∈ es ↔ e.type = t ∧ IsLast triple events e

def distinctSources (events : List AlertEvent) (t : String) : ℕ :=
  ((events.filter (·.type = t)).map AlertEvent.source).dedup.length

/-- The line of a type tells its only event, or counts the sources of its events. -/
def LineFor (events : List AlertEvent) (t : String) (line : Word) : Prop :=
  (∃ e, IsLast triple events e ∧ e.type = t ∧ (∀ f ∈ events, f.type = t → triple f = triple e) ∧
    line = singleLine t e) ∨
  (∃ e ∈ events, ∃ f ∈ events, e.type = t ∧ f.type = t ∧ triple e ≠ triple f) ∧
    ∃ sources, line = countedLine t (distinctSources events t) sources

/-- The lines of the text are those of the types. -/
def Summarizes (events : List AlertEvent) (grouped : GroupedAlerts) (content : Word) : Prop :=
  List.Forall₂ (LineFor events) grouped.keys (content.splitOn '\n')

structure Faithful (events : List AlertEvent) : Prop where
  represents : Represents events (aggregate events)
  summarizes : events ≠ [] →
    ∃ summary, dispatch (aggregate events) = some summary ∧ Summarizes events (aggregate events) summary.content

/-- No joined key stands for two triples, no event replaces an older one, no source raises one type in
two severities, and no line break gets into a line. -/
structure Plain (events : List AlertEvent) : Prop where
  keys : ∀ e ∈ events, ∀ f ∈ events, dedupKey e = dedupKey f → triple e = triple f
  repeats : ∀ e f, IsFirst triple events e → IsLast triple events f → triple e = triple f → e = f
  severities : ∀ e ∈ events, ∀ f ∈ events, e.type = f.type → e.source = f.source → e.severity = f.severity
  names : ∀ e ∈ events, '\n' ∉ e.type.toList ∧ '\n' ∉ e.source.toList
  messages : ∀ e, IsLast triple events e → (∀ f ∈ events, f.type = e.type → triple f = triple e) →
    '\n' ∉ e.message.toList

end Statement

variable {events es : List AlertEvent} {e f : AlertEvent} {t : String}

section Aggregate

def kept (events : List AlertEvent) : List AlertEvent := firstsFrom dedupKey [] events

lemma aggregate_eq (events : List AlertEvent) :
    aggregate events = grouped AlertEvent.type (kept events) := by
  have hloop : ∀ d seen, aggregateFrom d seen events =
      (firstsFrom dedupKey seen events).foldl (appendTo AlertEvent.type) d := by
    induction events with
    | nil => exact fun d seen => rfl
    | cons e events ih =>
      intro d seen
      rw [aggregateFrom, firstsFrom]
      split
      · exact ih d seen
      · exact ih _ _
  exact hloop .empty []

lemma mem_kept : e ∈ kept events ↔ IsFirst dedupKey events e := by
  rw [kept, mem_firstsFrom]
  exact and_iff_left List.not_mem_nil

lemma get?_aggregate : (aggregate events).get? t = some es ↔
    (∃ e ∈ kept events, e.type = t) ∧ es = (kept events).filter (·.type = t) := by
  rw [aggregate_eq, get?_grouped]
  split
  · rename_i h
    rw [Option.some.injEq, eq_comm, and_iff_right h]
  · rename_i h
    exact ⟨fun hnone => absurd hnone (by simp), fun hsome => absurd hsome.1 h⟩

lemma dedupKey_of_triple (h : triple e = triple f) : dedupKey e = dedupKey f := by
  simp only [triple, Prod.mk.injEq] at h
  obtain ⟨hsource, htype, hseverity⟩ := h
  rw [dedupKey, dedupKey, hsource, htype, hseverity]

lemma type_of_triple (h : triple e = triple f) : e.type = f.type := congrArg (fun p => p.2.1) h

/-- The events kept under a type have different joined keys, and so different triples. -/
lemma nodup_kept (p : AlertEvent → Bool) : (((kept events).filter p).map triple).Nodup := by
  have hkeys : ((kept events).map dedupKey).Nodup := nodup_firstsFrom [] events
  have hsub : (((kept events).filter p).map dedupKey).Nodup := hkeys.sublist (List.filter_sublist.map _)
  rw [List.nodup_iff_pairwise_ne, List.pairwise_map] at hsub ⊢
  exact hsub.imp fun hne he => hne (dedupKey_of_triple he)

end Aggregate

section Represents

lemma represents_of_plain (h : Plain events) : Represents events (aggregate events) := by
  have hfirst : ∀ e, IsFirst dedupKey events e ↔ IsFirst triple events e :=
    fun e => isFirst_congr fun x hx y hy => ⟨h.keys x hx y hy, dedupKey_of_triple⟩
  have hlast : ∀ e, IsFirst triple events e ↔ IsLast triple events e := by
    intro e
    constructor
    · intro he
      obtain ⟨f, hf, hkey⟩ := exists_isLast triple he.mem
      exact h.repeats e f he hf hkey.symm ▸ hf
    · intro he
      obtain ⟨f, hf, hkey⟩ := exists_isFirst triple he.mem
      exact h.repeats f e hf he hkey ▸ hf
  have hkept : ∀ e, e ∈ kept events ↔ IsLast triple events e := fun e => by rw [mem_kept, hfirst, hlast]
  refine ⟨?_, ?_, ?_⟩
  · intro t
    rw [aggregate_eq, mem_keys_grouped]
    constructor
    · rintro ⟨e, he, htype⟩
      exact ⟨e, (mem_kept.mp he).mem, htype⟩
    · rintro ⟨e, he, htype⟩
      obtain ⟨f, hf, hkey⟩ := exists_isLast triple he
      exact ⟨f, (hkept f).mpr hf, (type_of_triple hkey).trans htype⟩
  · intro t es hes
    obtain ⟨-, rfl⟩ := get?_aggregate.mp hes
    exact nodup_kept _
  · intro t es hes e
    obtain ⟨-, rfl⟩ := get?_aggregate.mp hes
    rw [List.mem_filter, hkept, decide_eq_true_iff, and_comm]

lemma Represents.kept_last (h : Represents events (aggregate events)) (he : IsLast triple events e) :
    ∃ es, (aggregate events).get? e.type = some es ∧ e ∈ es ∧ e ∈ kept events := by
  have hkey : e.type ∈ (aggregate events).keys := (h.types e.type).mpr ⟨e, he.mem, rfl⟩
  obtain ⟨es, hes⟩ := OrderedDict.mem_keys_iff.mp hkey
  have hmem : e ∈ es := (h.last e.type es hes e).mpr ⟨rfl, he⟩
  refine ⟨es, hes, hmem, ?_⟩
  obtain ⟨-, rfl⟩ := get?_aggregate.mp hes
  exact (List.mem_filter.mp hmem).1

lemma Represents.keys (h : Represents events (aggregate events)) (he : e ∈ events) (hf : f ∈ events)
    (hkey : dedupKey e = dedupKey f) : triple e = triple f := by
  obtain ⟨e', he', hte⟩ := exists_isLast triple he
  obtain ⟨f', hf', htf⟩ := exists_isLast triple hf
  obtain ⟨-, -, -, hke⟩ := h.kept_last he'
  obtain ⟨-, -, -, hkf⟩ := h.kept_last hf'
  have hsame : dedupKey e' = dedupKey f' := by rw [dedupKey_of_triple hte, hkey, dedupKey_of_triple htf]
  rw [← hte, ← htf, (mem_kept.mp hke).unique (mem_kept.mp hkf) hsame]

lemma Represents.repeats (h : Represents events (aggregate events)) (he : IsFirst triple events e)
    (hf : IsLast triple events f) (hkey : triple e = triple f) : e = f := by
  obtain ⟨-, -, -, hkf⟩ := h.kept_last hf
  have hfirst : IsFirst dedupKey events e :=
    (isFirst_congr fun x hx y hy => ⟨h.keys hx hy, dedupKey_of_triple⟩).mpr he
  exact hfirst.unique (mem_kept.mp hkf) (dedupKey_of_triple hkey)

/-- The sources of a type are those of its kept events. -/
lemma Represents.distinctSources_eq_iff (h : Represents events (aggregate events))
    (hes : (aggregate events).get? t = some es) :
    distinctSources events t = es.length ↔ (es.map AlertEvent.source).Nodup := by
  have hmem : ∀ s, s ∈ (events.filter (·.type = t)).map AlertEvent.source ↔ s ∈ es.map AlertEvent.source := by
    intro s
    rw [List.mem_map, List.mem_map]
    constructor
    · rintro ⟨e, he, rfl⟩
      rw [List.mem_filter, decide_eq_true_iff] at he
      obtain ⟨f, hf, hkey⟩ := exists_isLast triple he.1
      exact ⟨f, (h.last t es hes f).mpr ⟨(type_of_triple hkey).trans he.2, hf⟩, congrArg Prod.fst hkey⟩
    · rintro ⟨e, he, rfl⟩
      obtain ⟨htype, hlast⟩ := (h.last t es hes e).mp he
      exact ⟨e, List.mem_filter.mpr ⟨hlast.mem, decide_eq_true htype⟩, rfl⟩
  have hlength : distinctSources events t = (es.map AlertEvent.source).dedup.length := by
    apply List.Perm.length_eq
    rw [List.perm_ext_iff_of_nodup (List.nodup_dedup _) (List.nodup_dedup _)]
    intro s
    rw [List.mem_dedup, List.mem_dedup, hmem]
  rw [hlength, ← List.length_map AlertEvent.source]
  constructor
  · intro heq
    rw [← List.dedup_eq_self]
    exact (List.dedup_sublist _).eq_of_length heq
  · intro hnodup
    rw [List.dedup_eq_self.mpr hnodup]

end Represents

section Lines

/-- The number that a line begins with behind the type can be read off it. -/
lemma countedLine_inj {m n : ℕ} {xs ys : Word} (h : countedLine t m xs = countedLine t n ys) : m = n := by
  have htail := List.append_cancel_left h
  have hstops : ∀ cs : Word, Foundation.JsonText.Stops (" occurrences across nodes [".toList ++ cs ++ "]".toList) := by
    intro cs
    exact Foundation.JsonText.stops_cons (by decide)
  have hm := Foundation.JsonText.scanNumber_decimal m (hstops xs)
  have hn := Foundation.JsonText.scanNumber_decimal n (hstops ys)
  rw [htail, hn] at hm
  have hdecimal : decimal n = decimal m := (Prod.mk.inj (Option.some.inj hm)).1
  have hvalue := congrArg Foundation.JsonText.intValue hdecimal
  rw [Foundation.JsonText.intValue_decimal, Foundation.JsonText.intValue_decimal] at hvalue
  exact_mod_cast hvalue.symm

lemma summaryLine_cases (h : es ≠ []) : (∃ e, es = [e]) ∨
    summaryLine t es = countedLine t es.length (joinedSources es) ∧ 2 ≤ es.length := by
  match es with
  | [] => exact (h rfl).elim
  | [e] => exact Or.inl ⟨e, rfl⟩
  | _ :: _ :: _ => exact Or.inr ⟨rfl, by simp⟩

lemma notMem_decimal (n : ℕ) : '\n' ∉ decimal n := by
  intro h
  have hprintable := Foundation.JsonText.printable_decimal n '\n' h
  exact absurd hprintable (by decide)

lemma joined_notMem_iff : '\n' ∉ joinedSources es ↔ ∀ e ∈ es, '\n' ∉ e.source.toList := by
  have hne : ∀ {w : Word}, '\n' ∉ w ↔ ∀ c ∈ w, c ≠ '\n' :=
    fun {w} => ⟨fun h c hc he => h (he ▸ hc), fun h hc => h _ hc rfl⟩
  rw [hne, joinedSources, Foundation.Sections.forall_mem_intercalate (by simp), List.forall_mem_map]
  exact forall₂_congr fun e _ => hne.symm

lemma counted_notMem_iff {n : ℕ} {sources : Word} :
    '\n' ∉ countedLine t n sources ↔ '\n' ∉ t.toList ∧ '\n' ∉ sources := by
  have h := notMem_decimal n
  delta countedLine
  simp [h]

lemma single_notMem_iff :
    '\n' ∉ singleLine t e ↔ '\n' ∉ t.toList ∧ '\n' ∉ e.message.toList ∧ '\n' ∉ e.source.toList := by
  delta singleLine
  simp

end Lines

section Dispatch

lemma nonempty_of_get? (hes : (aggregate events).get? t = some es) : es ≠ [] := by
  obtain ⟨⟨e, he, htype⟩, rfl⟩ := get?_aggregate.mp hes
  exact List.ne_nil_of_mem (List.mem_filter.mpr ⟨he, decide_eq_true htype⟩)

lemma exists_group (h : events ≠ []) : ∃ t es, (aggregate events).get? t = some es := by
  cases events with
  | nil => exact (h rfl).elim
  | cons e events =>
    exact ⟨e.type, _, get?_aggregate.mpr ⟨⟨e, mem_kept.mpr (isFirst_cons_iff.mpr (Or.inl rfl)), rfl⟩, rfl⟩⟩

lemma totalCount_ne_zero (h : events ≠ []) : totalCount (aggregate events) ≠ 0 := by
  obtain ⟨t, es, hes⟩ := exists_group h
  have hvalue : es ∈ (aggregate events).values := List.mem_map_of_mem (OrderedDict.get?_eq_some_iff.mp hes)
  intro hzero
  have hlength := List.sum_eq_zero_iff_forall_eq_nat.mp hzero es.length (List.mem_map_of_mem hvalue)
  exact nonempty_of_get? hes (List.length_eq_zero_iff.mp hlength)

lemma dispatch_eq (h : events ≠ []) : ∃ summary, dispatch (aggregate events) = some summary ∧
    summary.content = ['\n'].intercalate ((aggregate events).items.map fun p => summaryLine p.1 p.2) := by
  rw [dispatch, if_neg (totalCount_ne_zero h)]
  exact ⟨_, rfl, rfl⟩

/-- The text has the lines that were joined only where none of them holds a line break. -/
lemma summarizes_iff (h : events ≠ []) : Summarizes events (aggregate events)
      (['\n'].intercalate ((aggregate events).items.map fun p => summaryLine p.1 p.2)) ↔
    ∀ t es, (aggregate events).get? t = some es → '\n' ∉ summaryLine t es ∧ LineFor events t (summaryLine t es) := by
  have hne : (aggregate events).items.map (fun p => summaryLine p.1 p.2) ≠ [] := by
    obtain ⟨t, es, hes⟩ := exists_group h
    exact List.ne_nil_of_mem (List.mem_map_of_mem (OrderedDict.get?_eq_some_iff.mp hes))
  have hall : ∀ {Q : String → List AlertEvent → Prop}, (∀ p ∈ (aggregate events).items, Q p.1 p.2) ↔
      ∀ t es, (aggregate events).get? t = some es → Q t es := by
    intro Q
    exact ⟨fun hq t es hes => hq (t, es) (OrderedDict.get?_eq_some_iff.mp hes),
      fun hq p hp => hq p.1 p.2 (OrderedDict.get?_eq_some_iff.mpr hp)⟩
  rw [← hall (Q := fun t es => '\n' ∉ summaryLine t es ∧ LineFor events t (summaryLine t es)), Summarizes,
    OrderedDict.keys]
  constructor
  · intro hlines
    have hlength := hlines.length_eq
    rw [List.length_map, ← List.length_map (f := fun p : String × List AlertEvent => summaryLine p.1 p.2)] at hlength
    have hclean := Foundation.Sections.notMem_of_length_joined hne hlength.symm
    rw [List.splitOn_intercalate _ hclean hne, List.forall₂_map_left_iff, List.forall₂_map_right_iff,
      List.forall₂_same] at hlines
    exact fun p hp => ⟨hclean _ (List.mem_map_of_mem hp), hlines p hp⟩
  · intro hlines
    have hclean : ∀ l ∈ (aggregate events).items.map (fun p => summaryLine p.1 p.2), '\n' ∉ l :=
      List.forall_mem_map.mpr fun p hp => (hlines p hp).1
    rw [List.splitOn_intercalate _ hclean hne, List.forall₂_map_left_iff, List.forall₂_map_right_iff, List.forall₂_same]
    exact fun p hp => (hlines p hp).2

/-- A type whose events are kept in one piece has one triple. -/
lemma Represents.single_iff (h : Represents events (aggregate events))
    (hes : (aggregate events).get? t = some es)
    (he : e ∈ es) : es = [e] ↔ ∀ f ∈ events, f.type = t → triple f = triple e := by
  constructor
  · rintro rfl f hf htype
    obtain ⟨g, hg, hkey⟩ := exists_isLast triple hf
    have hmem := (h.last t [e] hes g).mpr ⟨(type_of_triple hkey).trans htype, hg⟩
    rw [← hkey, List.mem_singleton.mp hmem]
  · intro hall
    have hnodup := h.one_each t es hes
    have hsame : ∀ f ∈ es, f = e := by
      intro f hf
      obtain ⟨htype, hlast⟩ := (h.last t es hes f).mp hf
      exact List.inj_on_of_nodup_map hnodup hf he (hall f hlast.mem htype)
    have hreplicate := List.eq_replicate_of_mem hsame
    have hone : es.length ≤ 1 := by
      rw [hreplicate, List.map_replicate, List.nodup_replicate] at hnodup
      exact hnodup
    have hpos := List.length_pos_of_mem he
    rw [hreplicate, Nat.le_antisymm hone hpos]
    rfl

end Dispatch

section Faithful

/-- Two kept events of a type: its line counts them. -/
lemma Represents.counted (h : Represents events (aggregate events))
    (hes : (aggregate events).get? t = some es)
    (hmany : ∀ e, es ≠ [e]) : summaryLine t es = countedLine t es.length (joinedSources es) ∧
      ∃ e ∈ events, ∃ f ∈ events, e.type = t ∧ f.type = t ∧ triple e ≠ triple f := by
  rcases summaryLine_cases (t := t) (nonempty_of_get? hes) with ⟨e, he⟩ | ⟨hline, -⟩
  · exact (hmany e he).elim
  · refine ⟨hline, ?_⟩
    obtain ⟨e, he⟩ := List.exists_mem_of_ne_nil es (nonempty_of_get? hes)
    have hother : ¬ ∀ f ∈ events, f.type = t → triple f = triple e := fun hall =>
      hmany e ((h.single_iff hes he).mpr hall)
    push Not at hother
    obtain ⟨f, hf, htype, hne⟩ := hother
    obtain ⟨hetype, helast⟩ := (h.last t es hes e).mp he
    exact ⟨e, helast.mem, f, hf, hetype, htype, hne.symm⟩

lemma lineFor_of_plain (h : Plain events) (hes : (aggregate events).get? t = some es) :
    '\n' ∉ summaryLine t es ∧ LineFor events t (summaryLine t es) := by
  have hr := represents_of_plain h
  have hnames : ∀ e ∈ es, '\n' ∉ t.toList ∧ '\n' ∉ e.source.toList := by
    intro e he
    obtain ⟨rfl, hlast⟩ := (hr.last t es hes e).mp he
    exact h.names e hlast.mem
  by_cases hsingle : ∃ e, es = [e]
  · obtain ⟨e, rfl⟩ := hsingle
    have he : e ∈ [e] := List.mem_singleton_self e
    have hall := (hr.single_iff hes he).mp rfl
    obtain ⟨rfl, hlast⟩ := (hr.last t [e] hes e).mp he
    refine ⟨single_notMem_iff.mpr ⟨(hnames e he).1, h.messages e hlast hall, (hnames e he).2⟩, ?_⟩
    exact Or.inl ⟨e, hlast, rfl, hall, rfl⟩
  · rw [not_exists] at hsingle
    obtain ⟨hline, hpair⟩ := hr.counted hes hsingle
    obtain ⟨e, he⟩ := List.exists_mem_of_ne_nil es (nonempty_of_get? hes)
    have hsources : (es.map AlertEvent.source).Nodup := by
      have hnodup := hr.one_each t es hes
      refine List.Nodup.map_on (fun x hx y hy hsource => ?_) hnodup.of_map
      obtain ⟨hxt, hxl⟩ := (hr.last t es hes x).mp hx
      obtain ⟨hyt, hyl⟩ := (hr.last t es hes y).mp hy
      have hseverity := h.severities x hxl.mem y hyl.mem (hxt.trans hyt.symm) hsource
      have htriple : triple x = triple y := by rw [triple, triple, hsource, hxt, hyt, hseverity]
      exact List.inj_on_of_nodup_map hnodup hx hy htriple
    rw [hline, counted_notMem_iff, joined_notMem_iff, ← (hr.distinctSources_eq_iff hes).mpr hsources]
    exact ⟨⟨(hnames e he).1, fun f hf => (hnames f hf).2⟩, Or.inr ⟨hpair, _, rfl⟩⟩

lemma plain_of_faithful (h : Faithful events) : Plain events := by
  have hr := h.represents
  have hlines : ∀ e ∈ events, ∃ es, (aggregate events).get? e.type = some es ∧
      '\n' ∉ summaryLine e.type es ∧ LineFor events e.type (summaryLine e.type es) := by
    intro e he
    have hne := List.ne_nil_of_mem he
    obtain ⟨summary, hsummary, hall⟩ := h.summarizes hne
    obtain ⟨summary', hsummary', hcontent⟩ := dispatch_eq hne
    obtain rfl : summary = summary' := Option.some.inj (hsummary.symm.trans hsummary')
    rw [hcontent, summarizes_iff hne] at hall
    obtain ⟨es, hes⟩ := OrderedDict.mem_keys_iff.mp ((hr.types e.type).mpr ⟨e, he, rfl⟩)
    exact ⟨es, hes, hall e.type es hes⟩
  refine ⟨fun e he f hf => hr.keys he hf, fun e f => hr.repeats, ?_, ?_, ?_⟩
  · intro e he f hf htype hsource
    by_contra hseverity
    have hne : triple e ≠ triple f := fun heq => hseverity (congrArg (fun p => p.2.2) heq)
    obtain ⟨es, hes, -, hline⟩ := hlines e he
    obtain ⟨e', hlast, hkey⟩ := exists_isLast triple he
    obtain ⟨f', hlast', hkey'⟩ := exists_isLast triple hf
    have hmem : e' ∈ es := (hr.last _ es hes e').mpr ⟨type_of_triple hkey, hlast⟩
    have hmem' : f' ∈ es := (hr.last _ es hes f').mpr ⟨(type_of_triple hkey').trans htype.symm, hlast'⟩
    have hdiffer : e' ≠ f' := fun heq => hne (by rw [← hkey, ← hkey', heq])
    have hmany : ∀ g, es ≠ [g] := by
      rintro g rfl
      exact hdiffer ((List.mem_singleton.mp hmem).trans (List.mem_singleton.mp hmem').symm)
    obtain ⟨hcounted, -⟩ := hr.counted hes hmany
    rcases hline with ⟨g, -, -, hall, -⟩ | ⟨-, sources, hcount⟩
    · exact hne ((hall e he rfl).trans (hall f hf htype.symm).symm)
    · have hnodup := (hr.distinctSources_eq_iff hes).mp (countedLine_inj (hcounted.symm.trans hcount)).symm
      have hsame : e'.source = f'.source :=
        (congrArg Prod.fst hkey).trans (hsource.trans (congrArg Prod.fst hkey').symm)
      exact hdiffer (List.inj_on_of_nodup_map hnodup hmem hmem' hsame)
  · intro e he
    obtain ⟨es, hes, hclean, -⟩ := hlines e he
    obtain ⟨f, hf, hkey⟩ := exists_isLast triple he
    have hmem : f ∈ es := (hr.last _ es hes f).mpr ⟨type_of_triple hkey, hf⟩
    have hsource : f.source = e.source := congrArg Prod.fst hkey
    rcases summaryLine_cases (t := e.type) (nonempty_of_get? hes) with ⟨g, rfl⟩ | ⟨hline, -⟩
    · obtain ⟨htype, -, hg⟩ := single_notMem_iff.mp hclean
      rw [← hsource, List.mem_singleton.mp hmem]
      exact ⟨htype, hg⟩
    · rw [hline, counted_notMem_iff, joined_notMem_iff] at hclean
      exact ⟨hclean.1, hsource ▸ hclean.2 f hmem⟩
  · intro e hlast hall
    obtain ⟨es, hes, hclean, -⟩ := hlines e hlast.mem
    obtain rfl := (hr.single_iff hes ((hr.last _ es hes e).mpr ⟨rfl, hlast⟩)).mpr hall
    exact (single_notMem_iff.mp hclean).2.1

/-- The window is represented faithfully exactly if its alerts are plain. -/
theorem faithful_iff_plain (events : List AlertEvent) : Faithful events ↔ Plain events := by
  constructor
  · exact plain_of_faithful
  · intro h
    refine ⟨represents_of_plain h, fun hne => ?_⟩
    obtain ⟨summary, hsummary, hcontent⟩ := dispatch_eq hne
    refine ⟨summary, hsummary, ?_⟩
    rw [hcontent, summarizes_iff hne]
    exact fun t es hes => lineFor_of_plain h hes

def lostAlert (message : String) : AlertEvent where
  id := "a-1"
  type := "NODE_DEAD"
  severity := "CRITICAL"
  source := "node-1"
  message := message
  details := []
  timestamp := 1700000000000

/-- The second heartbeat loss replaces no message: the first is the one that is reported. -/
theorem older_message_kept : ¬ Faithful [lostAlert "heartbeat lost 0", lostAlert "heartbeat lost 1"] := by
  intro h
  have hplain := plain_of_faithful h
  have hsame := hplain.repeats (lostAlert "heartbeat lost 0") (lostAlert "heartbeat lost 1")
    ⟨[], [lostAlert "heartbeat lost 1"], rfl, by simp⟩ ⟨[lostAlert "heartbeat lost 0"], [], rfl, by simp⟩ rfl
  exact absurd (congrArg AlertEvent.message hsame) (by decide)

end Faithful

end OpsSentry.Cluster.Alerts
