import Mathlib.Algebra.Order.Field.Basic
import Mathlib.Data.List.Count
import Mathlib.Order.Interval.Set.Basic
import Mathlib.Order.Monotone.Basic
import Mathlib.Tactic.Linarith
import Mathlib.Tactic.Positivity
import Mathlib.Tactic.Ring

/-! BM25 weights of terms in documents that are lists of tokens, over any ordered field. -/

namespace OpsSentry.Foundation.Bm25

variable {τ K : Type} [DecidableEq τ] [Field K]

def docFreq (docs : List (List τ)) (t : τ) : ℕ := docs.countP (t ∈ ·)

def averageLength (docs : List (List τ)) : K := ((docs.map List.length).sum : ℕ) / docs.length

def odds (docs : List (List τ)) (t : τ) : K :=
  1 + (docs.length - docFreq docs t + 1 / 2) / (docFreq docs t + 1 / 2)

def norm (k1 b : K) (docs : List (List τ)) (doc : List τ) (t : τ) : K :=
  doc.count t + k1 * (1 - b + b * (doc.length / averageLength docs))

def weight (log : K → K) (k1 b : K) (docs : List (List τ)) (doc : List τ) (t : τ) : K :=
  log (odds docs t) * (doc.count t * (k1 + 1) / norm k1 b docs doc t)

def score (log : K → K) (k1 b : K) (docs : List (List τ)) (doc : List τ) (terms : List τ) : K :=
  ((terms.filter (· ∈ doc)).map (weight log k1 b docs doc)).sum

lemma one_le_docFreq {docs : List (List τ)} {doc : List τ} {t : τ} (hdoc : doc ∈ docs) (ht : t ∈ doc) :
    1 ≤ docFreq docs t := by
  rw [docFreq, Nat.one_le_iff_ne_zero, ← Nat.pos_iff_ne_zero, List.countP_pos_iff]
  exact ⟨doc, hdoc, by simpa using ht⟩

lemma docFreq_le (docs : List (List τ)) (t : τ) : docFreq docs t ≤ docs.length := List.countP_le_length

variable [LinearOrder K] [IsStrictOrderedRing K] {log : K → K} {k1 b : K} {docs : List (List τ)}
  {doc : List τ} {t : τ}

lemma docFreq_add_half_pos (docs : List (List τ)) (t : τ) : (0 : K) < docFreq docs t + 1 / 2 := by
  positivity

lemma one_lt_odds (docs : List (List τ)) (t : τ) : (1 : K) < odds docs t := by
  have hle : (docFreq docs t : K) ≤ docs.length := Nat.cast_le.mpr (docFreq_le docs t)
  have hnum : (0 : K) < docs.length - docFreq docs t + 1 / 2 := by linarith [one_half_pos (α := K)]
  have hquot := div_pos hnum (docFreq_add_half_pos docs t)
  rw [odds]
  linarith

omit [DecidableEq τ] in
lemma averageLength_nonneg (docs : List (List τ)) : (0 : K) ≤ averageLength docs := by
  rw [averageLength]
  positivity

omit [DecidableEq τ] in
lemma averageLength_pos (hdoc : doc ∈ docs) (ht : t ∈ doc) : (0 : K) < averageLength docs := by
  have hlen : 0 < doc.length := List.length_pos_of_mem ht
  have hsum : 0 < (docs.map List.length).sum :=
    hlen.trans_le (List.le_sum_of_mem (List.mem_map_of_mem hdoc))
  have hdocs : 0 < docs.length := List.length_pos_of_mem hdoc
  rw [averageLength]
  positivity

lemma norm_pos (hk1 : 0 ≤ k1) (hb : 0 ≤ b) (hb1 : b ≤ 1) (ht : t ∈ doc) : 0 < norm k1 b docs doc t := by
  have hcount : (0 : K) < doc.count t := Nat.cast_pos.mpr (List.count_pos_iff.mpr ht)
  have havg := averageLength_nonneg (K := K) docs
  have hsub : 0 ≤ 1 - b := sub_nonneg.mpr hb1
  rw [norm]
  positivity

lemma weight_pos (hlog : StrictMonoOn log (Set.Ioi 0)) (hone : log 1 = 0) (hk1 : 0 ≤ k1) (hb : 0 ≤ b)
    (hb1 : b ≤ 1) (ht : t ∈ doc) : 0 < weight log k1 b docs doc t := by
  have hodds := one_lt_odds (K := K) docs t
  have hidf : 0 < log (odds docs t) := by
    rw [← hone]
    exact hlog (Set.mem_Ioi.mpr one_pos) (Set.mem_Ioi.mpr (one_pos.trans hodds)) hodds
  have hcount : (0 : K) < doc.count t := Nat.cast_pos.mpr (List.count_pos_iff.mpr ht)
  have hnorm : 0 < norm k1 b docs doc t := norm_pos hk1 hb hb1 ht
  rw [weight]
  positivity

/-- A document scores exactly if it has one of the terms. -/
lemma score_eq_zero_iff (hlog : StrictMonoOn log (Set.Ioi 0)) (hone : log 1 = 0) (hk1 : 0 ≤ k1)
    (hb : 0 ≤ b) (hb1 : b ≤ 1) {terms : List τ} :
    score log k1 b docs doc terms = 0 ↔ ¬ ∃ t ∈ terms, t ∈ doc := by
  rw [score]
  constructor
  · rintro h ⟨t, hterms, ht⟩
    have hmem : t ∈ terms.filter (· ∈ doc) := List.mem_filter.mpr ⟨hterms, by simpa using ht⟩
    have hpos := List.sum_pos ((terms.filter (· ∈ doc)).map (weight log k1 b docs doc)) ?_ ?_
    · exact hpos.ne' h
    · intro x hx
      obtain ⟨u, hu, rfl⟩ := List.mem_map.mp hx
      exact weight_pos hlog hone hk1 hb hb1 (by simpa using (List.mem_filter.mp hu).2)
    · exact List.ne_nil_of_mem (List.mem_map_of_mem hmem)
  · intro h
    have hnil : terms.filter (· ∈ doc) = [] := by
      rw [List.filter_eq_nil_iff]
      intro t hterms ht
      exact h ⟨t, hterms, by simpa using ht⟩
    rw [hnil]
    simp

end OpsSentry.Foundation.Bm25
