import OpsSentry.Foundation.Sections
import OpsSentry.Knowledge.Chunks

/-! What the chunks of a text are: one for each part between its headings that has a body. -/

namespace OpsSentry.Knowledge

open Foundation.Text (isSpace strip)
open Foundation.Lines (splitlines newlines)
open Foundation.Sections

def isHeading (line : Word) : Bool := (headingMatch line).isSome

/-- The line of the heading, which the preamble has none of, and the lines below it. -/
structure Part where
  heading_line : Option Word
  below : List Word

def parts (lines : List Word) : List Part :=
  { heading_line := none, below := leading isHeading lines } ::
    (sections isHeading lines).map (fun s => { heading_line := some s.1, below := s.2 })

namespace Part

def all (p : Part) : List Word := p.heading_line.toList ++ p.below

/-- The level and the text of the heading. -/
def title (stem : String) (p : Part) : ℕ × String := (p.heading_line.bind headingMatch).getD (1, stem)

variable (K : Type) [Field K]

def isPriority (line : Word) : Bool := (priorityMatch line : Option K).isSome

def prose (p : Part) : List Word := p.below.filter (fun l => !isPriority K l)

/-- Some line that is no priority line is not blank. -/
def hasBody (p : Part) : Bool := (p.prose K).any (fun l => l.any (fun c => !isSpace c))

variable {K}

def priority (p : Part) : K := (p.below.filterMap priorityMatch).getLast?.getD 1

def chunk (source_path stem : String) (p : Part) (index : ℕ) : KnowledgeChunk K :=
  { chunk_id := source_path ++ "#" ++ toString index, source_path, heading := (p.title stem).2,
    level := (p.title stem).1, body := strip (String.ofList (['\n'].intercalate (p.prose K))),
    priority_score := p.priority }

end Part

variable {K : Type} [Field K]

/-- The chunks of the parts that have a body, numbered from `n`. -/
def chunksFrom (source_path stem : String) (n : ℕ) (ps : List Part) : List (KnowledgeChunk K) :=
  ((ps.filter (Part.hasBody K)).zipIdx n).map (fun p => p.1.chunk source_path stem p.2)

lemma isHeading_eq_false {l : Word} : isHeading l = false ↔ headingMatch l = none := by simp [isHeading]

lemma strip_eq_empty {s : Word} : strip (String.ofList s) = "" ↔ ∀ c ∈ s, isSpace c := by
  have hempty : ∀ l : Word, String.ofList l = "" ↔ l = [] := fun l => by rw [← String.toList_inj]; simp
  rw [strip, hempty, String.toList_ofList, List.reverse_eq_nil_iff, List.dropWhile_eq_nil_iff]
  constructor
  · intro h c hc
    rw [← List.takeWhile_append_dropWhile (p := isSpace) (l := s), List.mem_append] at hc
    rcases hc with hc | hc
    · exact List.mem_takeWhile_imp hc
    · exact h c (List.mem_reverse.2 hc)
  · intro h c hc
    exact h c ((List.dropWhile_suffix isSpace).mem (List.mem_reverse.1 hc))

lemma body_eq_empty (p : Part) :
    strip (String.ofList (['\n'].intercalate (p.prose K))) = "" ↔ p.hasBody K = false := by
  rw [strip_eq_empty, forall_mem_intercalate (q := fun c => isSpace c = true) (List.forall_mem_singleton.2 rfl)]
  simp [Part.hasBody]

namespace Chunking

/-- The loop stands in the part `p`. -/
structure Stands (stem : String) (s : Chunking K) (p : Part) : Prop where
  heading : s.current_heading = (p.title stem).2
  level : s.current_level = (p.title stem).1
  lines : s.current_lines = p.prose K
  priority : s.priority_score = p.priority

variable {stem : String} {s : Chunking K} {p : Part}

lemma chunksFrom_cons (source_path stem : String) (n : ℕ) (p : Part) (ps : List Part) :
    (chunksFrom source_path stem n (p :: ps) : List (KnowledgeChunk K)) =
      if p.hasBody K then p.chunk source_path stem n :: chunksFrom source_path stem (n + 1) ps
      else chunksFrom source_path stem n ps := by
  by_cases h : p.hasBody K <;> simp [chunksFrom, h]

lemma Stands.flush_chunks (h : Stands stem s p) (source_path : String) (ps : List Part) :
    (s.flush source_path).chunks ++ chunksFrom source_path stem (s.flush source_path).chunk_index ps =
      s.chunks ++ chunksFrom source_path stem s.chunk_index (p :: ps) := by
  have hbody : s.body = strip (String.ofList (['\n'].intercalate (p.prose K))) := by rw [body, h.lines]
  rw [chunksFrom_cons, flush]
  by_cases hp : p.hasBody K
  · have hne : s.body ≠ "" := fun he => by simp [(body_eq_empty p).1 (hbody ▸ he)] at hp
    rw [if_pos hp, if_neg hne, List.append_assoc, List.singleton_append, h.heading, h.level, h.priority, hbody]
    rfl
  · rw [if_neg hp, if_pos (hbody.trans ((body_eq_empty p).2 (by simpa using hp)))]

lemma line_heading {l : Word} {m : ℕ × String} (hm : headingMatch l = some m) (source_path : String)
    (s : Chunking K) : s.line source_path l =
      { s.flush source_path with current_heading := m.2, current_level := m.1 } := by
  rw [line, hm]

lemma line_below {l : Word} (hl : headingMatch l = none) (source_path : String) (s : Chunking K) :
    s.line source_path l = (priorityMatch l).elim { s with current_lines := s.current_lines ++ [l] }
      (fun priority_score => { s with priority_score }) := by
  rw [line, hl]
  cases (priorityMatch l : Option K) <;> rfl

/-- A heading opens its own part: nothing is left of the one before. -/
lemma stands_heading {l : Word} {m : ℕ × String} (hm : headingMatch l = some m) (source_path : String)
    (s : Chunking K) : Stands stem (s.line source_path l) { heading_line := some l, below := [] } := by
  have hfresh : (s.flush source_path).current_lines = [] ∧ (s.flush source_path).priority_score = 1 := by
    rw [flush]
    split <;> exact ⟨rfl, rfl⟩
  rw [line_heading hm]
  generalize s.flush source_path = t at hfresh ⊢
  exact { heading := by simp [Part.title, hm], level := by simp [Part.title, hm], lines := hfresh.1,
          priority := hfresh.2 }

lemma Stands.below (h : Stands stem s p) {l : Word} (hl : headingMatch l = none) (source_path : String) :
    Stands stem (s.line source_path l) { p with below := p.below ++ [l] } := by
  rw [line_below hl]
  cases hm : (priorityMatch l : Option K) with
  | some score =>
    exact { heading := h.heading, level := h.level, lines := by simp [Part.prose, Part.isPriority, hm, h.lines],
            priority := by simp [Part.priority, hm] }
  | none =>
    exact { heading := h.heading, level := h.level, lines := by simp [Part.prose, Part.isPriority, hm, h.lines],
            priority := by simp [Part.priority, hm, h.priority] }

lemma chunks_below {l : Word} (hl : headingMatch l = none) (source_path : String) (s : Chunking K) :
    (s.line source_path l).chunks = s.chunks ∧ (s.line source_path l).chunk_index = s.chunk_index := by
  rw [line_below hl]
  cases (priorityMatch l : Option K) <;> exact ⟨rfl, rfl⟩

lemma stands_start (stem : String) : Stands stem
    ({ chunks := [], current_heading := stem, current_level := 1, current_lines := [], chunk_index := 0,
       priority_score := 1 } : Chunking K) { heading_line := none, below := [] } :=
  { heading := rfl, level := rfl, lines := rfl, priority := rfl }

/-- From within a part, the lines to come end it and make the parts after it. -/
lemma Stands.lines_chunks (h : Stands stem s p) (source_path : String) (ls : List Word) :
    ((s.lines source_path ls).flush source_path).chunks =
      s.chunks ++ chunksFrom source_path stem s.chunk_index
        ({ p with below := p.below ++ leading isHeading ls } ::
          (sections isHeading ls).map (fun q => { heading_line := some q.1, below := q.2 })) := by
  induction ls generalizing s p with
  | nil =>
    have hend := h.flush_chunks source_path []
    rw [chunksFrom, List.filter_nil, List.zipIdx_nil, List.map_nil, List.append_nil] at hend
    rw [leading, sections, List.takeWhile_nil, List.append_nil, List.map_nil]
    exact hend
  | cons l ls ih =>
    have hlines : s.lines source_path (l :: ls) = (s.line source_path l).lines source_path ls := rfl
    rw [hlines]
    cases hcut : isHeading l with
    | true =>
      obtain ⟨m, hm⟩ := Option.isSome_iff_exists.1 hcut
      rw [ih (stands_heading hm source_path s), line_heading hm, leading_of_cut hcut, sections_of_cut hcut,
        h.flush_chunks, List.append_nil, List.map_cons, List.nil_append]
    | false =>
      obtain ⟨hc, hi⟩ := chunks_below (isHeading_eq_false.1 hcut) source_path s
      rw [ih (h.below (isHeading_eq_false.1 hcut) source_path), leading_of_not_cut hcut,
        sections_of_not_cut hcut, hc, hi, List.append_assoc,
        List.singleton_append]

end Chunking

/-- The parts are the lines of the text, cut at its headings. -/
lemma parts_cut (lines : List Word) :
    (parts lines).flatMap Part.all = lines ∧
      ∀ p ∈ parts lines, (∀ l ∈ p.heading_line, isHeading l) ∧
        ∀ l ∈ p.below, headingMatch l = none := by
  constructor
  · rw [parts, List.flatMap_cons, List.flatMap_map]
    exact leading_append_sections lines
  · intro p hp
    rw [parts, List.mem_cons, List.mem_map] at hp
    obtain rfl | ⟨q, hq, rfl⟩ := hp
    · refine ⟨by simp, ?_⟩
      intro l hl
      exact isHeading_eq_false.1 (not_cut_of_mem_leading hl)
    · obtain ⟨hcut, hbelow⟩ := sections_spec hq
      exact ⟨by simpa using hcut, fun l hl => isHeading_eq_false.1 (hbelow l hl)⟩

/-- One chunk for each part of the file that has a body, in the file's order. -/
theorem chunks_of_parts (source_path stem : String) (text : Word) :
    let lines := splitlines (newlines text)
    ((parts lines).flatMap Part.all = lines ∧ (parts lines).head?.any (·.heading_line = none) ∧
      (∀ p ∈ (parts lines).tail, p.heading_line ≠ none) ∧
      ∀ p ∈ parts lines, (∀ l ∈ p.heading_line, isHeading l) ∧ ∀ l ∈ p.below, headingMatch l = none) ∧
    (chunkMarkdown source_path stem text : List (KnowledgeChunk K)) =
      ((parts lines).filter (Part.hasBody K)).mapIdx (fun i p => p.chunk source_path stem i) := by
  intro lines
  obtain ⟨hall, heach⟩ := parts_cut lines
  refine ⟨⟨hall, rfl, ?_, heach⟩, ?_⟩
  · intro p hp
    obtain ⟨q, -, rfl⟩ := List.mem_map.1 hp
    simp
  · rw [chunkMarkdown, (Chunking.stands_start stem).lines_chunks, List.nil_append, List.mapIdx_eq_zipIdx_map]
    rfl

end OpsSentry.Knowledge
