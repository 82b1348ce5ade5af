import OpsSentry.Foundation.JsonLexemes
import OpsSentry.Foundation.Lines
import OpsSentry.Knowledge.KnowledgeCore

/-! `knowledge_core.py`: the chunks that `_chunk_markdown` makes of the text of a file. -/

namespace OpsSentry.Knowledge

open Foundation.Text (isSpace strip)
open Foundation.Lines (splitlines newlines)
open Foundation.JsonText (digits scanFrac)

abbrev Word := List Char

/-- `HEADING_PATTERN.match(line.strip())`: the number of hashes, and the heading. -/
def headingMatch (line : Word) : Option (ℕ × String) :=
  let stripped := (strip (String.ofList line)).toList
  let hashes := (stripped.takeWhile (· = '#')).length
  let rest := stripped.dropWhile (· = '#')
  if (hashes = 2 ∨ hashes = 3) ∧ rest.head?.any isSpace then some (hashes, strip (String.ofList rest)) else none

/-- How `re.IGNORECASE` compares a character with a lower case letter of the pattern. -/
def sameLetter (letter c : Char) : Bool :=
  c = letter || c = letter.toUpper || (letter = 'i' && (c = 'ı' || c = 'İ')) || (letter = 's' && c = 'ſ')

/-- `\s*` and then `word`. -/
def spaced (word line : Word) : Option Word :=
  let rest := line.dropWhile isSpace
  if word.length ≤ rest.length ∧ (word.zip rest).all (fun p => sameLetter p.1 p.2) then some (rest.drop word.length)
  else none

section Parser

variable {K : Type} [Field K]

def float (int frac : Word) : K := (Nat.ofDigitChars 10 (int ++ frac.tail) 0 : K) / 10 ^ frac.tail.length

def priorityMatch (line : Word) : Option K := do
  let line ← spaced "priority_score".toList line
  let line ← spaced ":".toList line
  let int := digits (line.dropWhile isSpace)
  let frac := scanFrac int.2
  if int.1 ≠ [] ∧ frac.2.all isSpace then some (float int.1 frac.1) else none

/-- The local variables of `_chunk_markdown`. -/
structure Chunking (K : Type) where
  chunks : List (KnowledgeChunk K)
  current_heading : String
  current_level : ℕ
  current_lines : List Word
  chunk_index : ℕ
  priority_score : K

namespace Chunking

def body (s : Chunking K) : String := strip (String.ofList (['\n'].intercalate s.current_lines))

def flush (source_path : String) (s : Chunking K) : Chunking K :=
  if s.body = "" then { s with current_lines := [], priority_score := 1 }
  else
    { s with
      chunks := s.chunks ++
        [{ chunk_id := source_path ++ "#" ++ toString s.chunk_index, source_path, heading := s.current_heading,
            level := s.current_level, body := s.body, priority_score := s.priority_score }]
      chunk_index := s.chunk_index + 1
      current_lines := []
      priority_score := 1 }

@[irreducible]
def line (source_path : String) (s : Chunking K) (line : Word) : Chunking K :=
  match headingMatch line with
  | some (hashes, heading) => { s.flush source_path with current_heading := heading, current_level := hashes }
  | none =>
    match priorityMatch line with
    | some priority_score => { s with priority_score }
    | none => { s with current_lines := s.current_lines ++ [line] }

def lines (source_path : String) (s : Chunking K) (lines : List Word) : Chunking K := lines.foldl (line source_path) s

end Chunking

/-- The text is that which is in the file. -/
def chunkMarkdown (source_path stem : String) (text : Word) : List (KnowledgeChunk K) :=
  let start : Chunking K :=
    { chunks := [], current_heading := stem, current_level := 1, current_lines := [], chunk_index := 0,
      priority_score := 1 }
  ((start.lines source_path (splitlines (newlines text))).flush source_path).chunks

example : (chunkMarkdown "a.md" "a" "x\n## One \nPriority_Score : 0.25\r\ny\n###  Two\n\nz".toList :
    List (KnowledgeChunk ℚ)).map (fun c => (c.heading, c.level, c.body, c.priority_score)) =
    [("a", 1, "x", 1), ("One", 2, "y", 1 / 4), ("Two", 3, "z", 1)] := by decide +kernel

end Parser

end OpsSentry.Knowledge
