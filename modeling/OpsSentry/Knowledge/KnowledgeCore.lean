import OpsSentry.Foundation.Dicts
import OpsSentry.Foundation.Text
import Mathlib.Algebra.Order.Field.Basic

/-! `knowledge_core.py`: the tables that `rebuild_index` makes of the chunks, and `search` over
them. Floats are elements of an ordered field. -/

namespace OpsSentry.Knowledge

open Foundation.Dicts Foundation.Text

structure KnowledgeChunk (K : Type) where
  chunk_id : String
  source_path : String
  heading : String
  level : ℕ
  body : String
  priority_score : K

structure SearchHit (K : Type) where
  chunk : KnowledgeChunk K
  score : K
  terms : List String

def isWord (c : Char) : Bool := c.isAlphanum || c = '_'

def isIdeograph (c : Char) : Bool := 0x4e00 ≤ c.toNat && c.toNat ≤ 0x9fff

/-- `TOKEN_PATTERN.findall`, in the middle of `word`. -/
def tokensFrom (word : List Char) : List Char → List String
  | [] => flush word []
  | c :: cs =>
    if isWord c then tokensFrom (word ++ [c]) cs
    else if isIdeograph c then flush word (String.singleton c :: tokensFrom [] cs)
    else flush word (tokensFrom [] cs)

def lower (s : String) : String := String.ofList (s.toList.map Char.toLower)

def tokenize (text : String) : List String := (tokensFrom [] text.toList).map lower

example : tokenize "Use nginx_v2 -t, 磁盘Full" = ["use", "nginx_v2", "t", "磁", "盘", "full"] := by decide

abbrev Counter := OrderedDict String ℕ

structure Tables where
  term_freqs : List Counter
  doc_freq : Counter
  doc_lengths : List ℕ

/-- What the loop over the tokens of one chunk carries. -/
structure Tally where
  term_freqs : Counter
  doc_freq : Counter
  seen_terms : List String

def Tally.token (t : Tally) (token : String) : Tally where
  term_freqs := t.term_freqs.bump token
  doc_freq := if token ∈ t.seen_terms then t.doc_freq else t.doc_freq.bump token
  seen_terms := if token ∈ t.seen_terms then t.seen_terms else token :: t.seen_terms

def tally (doc_freq : Counter) (tokens : List String) : Tally :=
  tokens.foldl Tally.token ⟨OrderedDict.empty, doc_freq, []⟩

section Index

variable {K : Type} [Field K]

def tokens (chunk : KnowledgeChunk K) : List String := tokenize (chunk.heading ++ "\n" ++ chunk.body)

def Tables.add (t : Tables) (chunk : KnowledgeChunk K) : Tables where
  term_freqs := t.term_freqs ++ [(tally t.doc_freq (tokens chunk)).term_freqs]
  doc_freq := (tally t.doc_freq (tokens chunk)).doc_freq
  doc_lengths := t.doc_lengths ++ [(tokens chunk).length]

structure Index (K : Type) extends Tables where
  chunks : List (KnowledgeChunk K)
  avg_doc_length : K

def tables (chunks : List (KnowledgeChunk K)) : Tables :=
  chunks.foldl Tables.add ⟨[], OrderedDict.empty, []⟩

def rebuildIndex (chunks : List (KnowledgeChunk K)) : Index K where
  toTables := tables chunks
  chunks := chunks
  avg_doc_length :=
    if (tables chunks).doc_lengths = [] then 0
    else ((tables chunks).doc_lengths.sum : K) / (tables chunks).doc_lengths.length

end Index

section Search

variable {K : Type} [Field K] [LinearOrder K] (log : K → K) (k1 b : K) (ix : Index K)

def orOne (x : K) : K := if x = 0 then 1 else x

def docFreq (term : String) : ℕ := (ix.doc_freq.get? term).getD 0

/-- Named, so that no definition with the literal 2 of a field holds a proof of its own. -/
lemma atLeastTwo : Nat.AtLeastTwo 2 := inferInstance

attribute [local instance] atLeastTwo in
/-- What `idf` is the logarithm of. -/
def odds (term : String) : K := 1 + (ix.chunks.length - docFreq ix term + 1 / 2) / (docFreq ix term + 1 / 2)

def denominator (freq doc_length : ℕ) : K :=
  freq + k1 * (1 - b + b * (doc_length / orOne ix.avg_doc_length))

def addTerm (term_freqs : Counter) (doc_length : ℕ) (acc : K × List String) (term : String) : K × List String :=
  let freq := (term_freqs.get? term).getD 0
  if freq = 0 then acc
  else (acc.1 + log (odds ix term) * (freq * (k1 + 1) / denominator k1 b ix freq doc_length), acc.2 ++ [term])

def headingBoost (unique_terms : List String) (chunk : KnowledgeChunk K) : K :=
  if unique_terms.any (· ∈ tokenize chunk.heading) then 6 / 5 else 1

def hit (unique_terms : List String) (chunk : KnowledgeChunk K) (term_freqs : Counter) (doc_length : ℕ) :
    Option (SearchHit K) :=
  if term_freqs.items = [] then none
  else
    let acc := unique_terms.foldl (addTerm log k1 b ix term_freqs (max doc_length 1)) (0, [])
    if acc.1 = 0 then none
    else some ⟨chunk, acc.1 * chunk.priority_score * headingBoost unique_terms chunk, acc.2⟩

/-- `list(dict.fromkeys(tokens))`. -/
def uniqueTerms (query : String) : List String := (tokenize query).eraseDups

/-- The three lists that the loop indexes are of one length. -/
def results (query : String) : List (SearchHit K) :=
  (ix.chunks.zip (ix.term_freqs.zip ix.doc_lengths)).filterMap fun p =>
    hit log k1 b ix (uniqueTerms query) p.1 p.2.1 p.2.2

def search (query : String) (limit : ℕ) : List (SearchHit K) :=
  if tokenize query = [] ∨ ix.chunks = [] then []
  else ((results log k1 b ix query).mergeSort fun x y => y.score ≤ x.score).take limit

end Search

end OpsSentry.Knowledge
