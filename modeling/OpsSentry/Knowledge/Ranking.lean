import OpsSentry.Foundation.Bm25
import OpsSentry.Foundation.StableSort
import OpsSentry.Knowledge.KnowledgeCore
import Mathlib.Analysis.SpecialFunctions.Log.Basic

/-! What `search` returns: the chunks that share a token with the query, ranked by BM25 of the
token lists themselves. -/

namespace OpsSentry.Knowledge

open Foundation Foundation.Dicts Foundation.StableSort

variable {K : Type}

def documents (chunks : List (KnowledgeChunk K)) : List (List String) := chunks.map tokens

section Tables

variable {d : Counter} {t : Tally} {ks : List String} {j : String} {chunks : List (KnowledgeChunk K)}

lemma tally_term_freqs : (ks.foldl Tally.token t).term_freqs = ks.foldl OrderedDict.bump t.term_freqs := by
  induction ks generalizing t with
  | nil => rfl
  | cons k ks ih => exact ih

lemma tally_doc_freq : ((ks.foldl Tally.token t).doc_freq.get? j).getD 0 =
    (t.doc_freq.get? j).getD 0 + if j ∈ ks ∧ j ∉ t.seen_terms then 1 else 0 := by
  induction ks generalizing t with
  | nil => simp
  | cons k ks ih =>
    rw [List.foldl_cons, ih]
    by_cases hk : k ∈ t.seen_terms
    · have hne : j ∉ t.seen_terms → j ≠ k := fun hj he => hj (he ▸ hk)
      simp only [Tally.token, hk, if_true, List.mem_cons]
      congr 2
      exact propext ⟨fun h => ⟨Or.inr h.1, h.2⟩, fun h => ⟨h.1.resolve_left (hne h.2), h.2⟩⟩
    · simp only [Tally.token, hk, if_false, OrderedDict.getD_bump, List.mem_cons]
      by_cases hj : j = k
      · simp [hj, hk]
      · simp [hj]

lemma tables_append (chunks : List (KnowledgeChunk K)) (chunk : KnowledgeChunk K) :
    tables (chunks ++ [chunk]) = (tables chunks).add chunk := by
  rw [tables, List.foldl_append]
  rfl

def counter (doc : List String) : Counter := doc.foldl OrderedDict.bump OrderedDict.empty

lemma term_freqs_eq (chunks : List (KnowledgeChunk K)) :
    (tables chunks).term_freqs = (documents chunks).map counter := by
  induction chunks using List.reverseRecOn with
  | nil => rfl
  | append_singleton chunks chunk ih =>
    rw [tables_append, Tables.add, ih, tally, tally_term_freqs]
    simp [documents, counter]

lemma doc_lengths_eq (chunks : List (KnowledgeChunk K)) :
    (tables chunks).doc_lengths = (documents chunks).map List.length := by
  induction chunks using List.reverseRecOn with
  | nil => rfl
  | append_singleton chunks chunk ih =>
    rw [tables_append, Tables.add, ih]
    simp [documents]

lemma doc_freq_eq (chunks : List (KnowledgeChunk K)) (term : String) :
    ((tables chunks).doc_freq.get? term).getD 0 = Bm25.docFreq (documents chunks) term := by
  induction chunks using List.reverseRecOn with
  | nil => rfl
  | append_singleton chunks chunk ih =>
    rw [tables_append, Tables.add, tally, tally_doc_freq, ih]
    simp [Bm25.docFreq, documents, List.countP_append, List.countP_singleton]

lemma count_counter (doc : List String) (term : String) :
    ((counter doc).get? term).getD 0 = doc.count term := by
  rw [counter, OrderedDict.getD_foldl_bump]
  simp

lemma counter_items_ne_nil {doc : List String} {term : String} (h : term ∈ doc) :
    (counter doc).items ≠ [] := by
  intro hnil
  have hcount := count_counter doc term
  rw [OrderedDict.get?, hnil] at hcount
  exact (List.count_pos_iff.mpr h).ne (by simpa using hcount)

lemma avg_eq [Field K] (chunks : List (KnowledgeChunk K)) :
    (rebuildIndex chunks).avg_doc_length = Bm25.averageLength (documents chunks) := by
  change (if (tables chunks).doc_lengths = [] then 0 else _) = _
  rw [doc_lengths_eq, Bm25.averageLength]
  split
  · rename_i hnil
    rw [List.map_eq_nil_iff] at hnil
    simp [hnil]
  · rw [List.length_map]

end Tables

section Search

variable [Field K] [LinearOrder K] {log : K → K} {k1 b : K} {chunks : List (KnowledgeChunk K)}
  {chunk : KnowledgeChunk K} {doc terms : List String} {term : String}

def Matches (terms : List String) (chunk : KnowledgeChunk K) : Prop := ∃ t ∈ terms, t ∈ tokens chunk

instance (terms : List String) (chunk : KnowledgeChunk K) : Decidable (Matches terms chunk) :=
  inferInstanceAs (Decidable (∃ t ∈ terms, _))

/-- The hit of a chunk, from the token lists of the chunks. -/
def directHit (log : K → K) (k1 b : K) (chunks : List (KnowledgeChunk K)) (terms : List String)
    (chunk : KnowledgeChunk K) : SearchHit K where
  chunk := chunk
  score := Bm25.score log k1 b (documents chunks) (tokens chunk) terms * chunk.priority_score *
    headingBoost terms chunk
  terms := terms.filter (· ∈ tokens chunk)

def directHits (log : K → K) (k1 b : K) (chunks : List (KnowledgeChunk K)) (query : String) :
    List (SearchHit K) :=
  (chunks.filter fun chunk => Matches (uniqueTerms query) chunk).map (directHit log k1 b chunks (uniqueTerms query))

omit [LinearOrder K] in
lemma odds_eq (chunks : List (KnowledgeChunk K)) (term : String) :
    odds (rebuildIndex chunks) term = Bm25.odds (documents chunks) term := by
  have hfreq : docFreq (rebuildIndex chunks) term = _ := doc_freq_eq chunks term
  rw [odds, Bm25.odds, hfreq]
  simp only [rebuildIndex, documents, List.length_map]

variable [IsStrictOrderedRing K]

lemma denominator_eq (hdoc : doc ∈ documents chunks) (hterm : term ∈ doc) :
    denominator k1 b (rebuildIndex chunks) (doc.count term) (max doc.length 1) =
      Bm25.norm k1 b (documents chunks) doc term := by
  have havg : (Bm25.averageLength (documents chunks) : K) ≠ 0 := (Bm25.averageLength_pos hdoc hterm).ne'
  have hlength : max doc.length 1 = doc.length := max_eq_left (List.length_pos_of_mem hterm)
  rw [denominator, Bm25.norm, avg_eq, orOne, if_neg havg, hlength]

lemma foldl_addTerm (hdoc : doc ∈ documents chunks) (acc : K × List String) :
    terms.foldl (addTerm log k1 b (rebuildIndex chunks) (counter doc) (max doc.length 1)) acc =
      (acc.1 + Bm25.score log k1 b (documents chunks) doc terms, acc.2 ++ terms.filter (· ∈ doc)) := by
  induction terms generalizing acc with
  | nil => simp [Bm25.score]
  | cons term terms ih =>
    rw [List.foldl_cons, ih, addTerm, count_counter]
    by_cases hterm : term ∈ doc
    · have hcount : doc.count term ≠ 0 := (List.count_pos_iff.mpr hterm).ne'
      simp only [hcount, if_false, Bm25.score, Bm25.weight, odds_eq, denominator_eq hdoc hterm,
        List.filter_cons, hterm, decide_true, if_true, List.map_cons, List.sum_cons, add_assoc,
        List.append_assoc, List.singleton_append]
    · have hcount : doc.count term = 0 := List.count_eq_zero.mpr hterm
      simp [hcount, Bm25.score, hterm]

lemma hit_eq (hlog : StrictMonoOn log (Set.Ioi 0)) (hone : log 1 = 0) (hk1 : 0 ≤ k1) (hb : 0 ≤ b)
    (hb1 : b ≤ 1) (hchunk : chunk ∈ chunks) :
    hit log k1 b (rebuildIndex chunks) terms chunk (counter (tokens chunk)) (tokens chunk).length =
      if Matches terms chunk then some (directHit log k1 b chunks terms chunk) else none := by
  have hdoc : tokens chunk ∈ documents chunks := List.mem_map_of_mem hchunk
  have hzero : Bm25.score log k1 b (documents chunks) (tokens chunk) terms = 0 ↔ ¬ ∃ t ∈ terms, t ∈ tokens chunk :=
    Bm25.score_eq_zero_iff hlog hone hk1 hb hb1
  rw [hit, foldl_addTerm hdoc]
  simp only [zero_add, List.nil_append]
  by_cases hm : Matches terms chunk
  · obtain ⟨t, -, ht⟩ := id hm
    rw [if_neg (counter_items_ne_nil ht), if_neg fun h => hzero.mp h hm, if_pos hm]
    rfl
  · rw [if_neg hm, if_pos (hzero.mpr hm), ite_self]

lemma results_eq (hlog : StrictMonoOn log (Set.Ioi 0)) (hone : log 1 = 0) (hk1 : 0 ≤ k1) (hb : 0 ≤ b)
    (hb1 : b ≤ 1) (chunks : List (KnowledgeChunk K)) (query : String) :
    results log k1 b (rebuildIndex chunks) query = directHits log k1 b chunks query := by
  have hzip : (rebuildIndex chunks).chunks.zip ((rebuildIndex chunks).term_freqs.zip (rebuildIndex chunks).doc_lengths) =
      chunks.map fun c => (c, counter (tokens c), (tokens c).length) := by
    change chunks.zip ((tables chunks).term_freqs.zip (tables chunks).doc_lengths) = _
    rw [term_freqs_eq, doc_lengths_eq, documents, List.map_map, List.map_map, ← List.zip_map']
    nth_rewrite 1 [← List.map_id chunks]
    rw [List.zip_map']
    rfl
  rw [results, hzip, List.filterMap_map, directHits, ← List.filterMap_eq_map', List.filterMap_filter]
  apply List.filterMap_congr
  intro chunk hchunk
  simpa using hit_eq hlog hone hk1 hb hb1 hchunk

/-- Nothing is divided by zero for the term, and the logarithm is taken of a number above one. -/
structure WellDefined (k1 b : K) (ix : Index K) (chunk : KnowledgeChunk K) (term : String) : Prop where
  one_le : 1 ≤ docFreq ix term
  le_chunks : docFreq ix term ≤ ix.chunks.length
  one_lt_odds : 1 < odds ix term
  docFreq_ne : (docFreq ix term : K) + 1 / 2 ≠ 0
  lengths_ne : (ix.doc_lengths.length : K) ≠ 0
  average_ne : orOne ix.avg_doc_length ≠ 0
  denominator_ne : denominator k1 b ix ((tokens chunk).count term) (max (tokens chunk).length 1) ≠ 0

lemma wellDefined (hk1 : 0 ≤ k1) (hb : 0 ≤ b) (hb1 : b ≤ 1) (hchunk : chunk ∈ chunks)
    (hterm : term ∈ tokens chunk) : WellDefined k1 b (rebuildIndex chunks) chunk term := by
  have hdoc : tokens chunk ∈ documents chunks := List.mem_map_of_mem hchunk
  have hfreq : docFreq (rebuildIndex chunks) term = _ := doc_freq_eq chunks term
  have hlength : (rebuildIndex chunks).doc_lengths.length = chunks.length := by
    change (tables chunks).doc_lengths.length = _
    rw [doc_lengths_eq, documents, List.length_map, List.length_map]
  constructor
  · exact hfreq ▸ Bm25.one_le_docFreq hdoc hterm
  · exact hfreq ▸ (Bm25.docFreq_le (documents chunks) term).trans_eq (List.length_map tokens)
  · exact odds_eq chunks term ▸ Bm25.one_lt_odds (documents chunks) term
  · exact hfreq ▸ (Bm25.docFreq_add_half_pos (documents chunks) term).ne'
  · rw [hlength, Nat.cast_ne_zero]
    exact (List.length_pos_of_mem hchunk).ne'
  · have havg := (Bm25.averageLength_pos (K := K) hdoc hterm).ne'
    rwa [avg_eq, orOne, if_neg havg]
  · exact denominator_eq hdoc hterm ▸ (Bm25.norm_pos hk1 hb hb1 hterm).ne'

lemma search_eq (hlog : StrictMonoOn log (Set.Ioi 0)) (hone : log 1 = 0) (hk1 : 0 ≤ k1) (hb : 0 ≤ b)
    (hb1 : b ≤ 1) (chunks : List (KnowledgeChunk K)) (query : String) (limit : ℕ) :
    search log k1 b (rebuildIndex chunks) query limit =
      ((directHits log k1 b chunks query).mergeSort fun x y => y.score ≤ x.score).take limit := by
  rw [search, results_eq hlog hone hk1 hb hb1]
  split
  · rename_i hempty
    have hnone : directHits log k1 b chunks query = [] := by
      rcases hempty with hquery | hchunks
      · have hterms : uniqueTerms query = [] := by rw [uniqueTerms, hquery, List.eraseDups_nil]
        simp [directHits, hterms, Matches]
      · change chunks = [] at hchunks
        rw [directHits, hchunks, List.filter_nil, List.map_nil]
    rw [hnone, List.mergeSort_nil, List.take_nil]
  · rfl

/-- `search` is the head of the one stable descending sort of the matching chunks by BM25. -/
theorem search_eq_bm25 (log : K → K) (hlog : StrictMonoOn log (Set.Ioi 0)) (hone : log 1 = 0) (k1 b : K)
    (hk1 : 0 ≤ k1) (hb : 0 ≤ b) (hb1 : b ≤ 1) (chunks : List (KnowledgeChunk K)) (query : String) (limit : ℕ) :
    (∃! sorted, StableDescending SearchHit.score (directHits log k1 b chunks query) sorted) ∧
      (∀ sorted, StableDescending SearchHit.score (directHits log k1 b chunks query) sorted →
        search log k1 b (rebuildIndex chunks) query limit = sorted.take limit) ∧
      ∀ chunk ∈ chunks, ∀ term ∈ uniqueTerms query, term ∈ tokens chunk →
        WellDefined k1 b (rebuildIndex chunks) chunk term := by
  have hstable := stableDescending_mergeSort SearchHit.score (directHits log k1 b chunks query)
  refine ⟨⟨_, hstable, fun sorted h => h.unique hstable⟩, fun sorted h => ?_, ?_⟩
  · rw [h.unique hstable]
    exact search_eq hlog hone hk1 hb hb1 chunks query limit
  · exact fun chunk hchunk term _ hterm => wellDefined hk1 hb hb1 hchunk hterm

attribute [local instance] atLeastTwo in
def runbook (K : Type) [Field K] : List (KnowledgeChunk K) :=
  [⟨"runbook.md#0", "runbook.md", "Nginx reload failed", 2, "Use nginx -t before reload.", 2⟩,
    ⟨"runbook.md#1", "runbook.md", "Disk full", 2, "Rotate logs first.", 1⟩]

theorem runbook_search : ∃ sorted,
    StableDescending SearchHit.score (directHits Real.log (3 / 2) (3 / 4) (runbook ℝ) "nginx reload") sorted ∧
      search Real.log (3 / 2) (3 / 4) (rebuildIndex (runbook ℝ)) "nginx reload" 3 = sorted.take 3 := by
  obtain ⟨⟨sorted, hsorted, -⟩, hsearch, -⟩ :=
    search_eq_bm25 Real.log Real.strictMonoOn_log Real.log_one (3 / 2) (3 / 4) (by norm_num) (by norm_num)
      (by norm_num) (runbook ℝ) "nginx reload" 3
  exact ⟨sorted, hsorted, hsearch sorted hsorted⟩

end Search

end OpsSentry.Knowledge
