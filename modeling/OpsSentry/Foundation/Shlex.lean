import Mathlib.Tactic.Common

/-! Splitting a command line into words as `shlex.split` does: POSIX mode, words end at
whitespace only, no comments. -/

namespace OpsSentry.Foundation.Shlex

/-- The state of the scanner with the word it has read so far. After an escape it goes back to
the double quotes it came from, or into the word. -/
inductive State
  | blank
  | word (token : List Char) (quoted : Bool)
  | quote (q : Char) (token : List Char)
  | escape (token : List Char) (quoted : Bool) (back : Option Char)

def isWhitespace (c : Char) : Bool := c = ' ' || c = '\t' || c = '\r' || c = '\n'

def isQuote (c : Char) : Bool := c = '\'' || c = '"'

/-- An empty word counts only if it was quoted. -/
def emit (token : List Char) (quoted : Bool) (rest : Option (List String)) : Option (List String) :=
  if token = [] ∧ quoted = false then rest else rest.map (String.ofList token :: ·)

/-- `none` where a quotation or an escape is not finished. -/
def scan : State → List Char → Option (List String)
  | .blank, [] => some []
  | .word token quoted, [] => emit token quoted (some [])
  | .quote .., [] => none
  | .escape .., [] => none
  | .blank, c :: cs =>
    if isWhitespace c then scan .blank cs
    else if c = '\\' then scan (.escape [] false none) cs
    else if isQuote c then scan (.quote c []) cs
    else scan (.word [c] false) cs
  | .word token quoted, c :: cs =>
    if isWhitespace c then emit token quoted (scan .blank cs)
    else if isQuote c then scan (.quote c token) cs
    else if c = '\\' then scan (.escape token quoted none) cs
    else scan (.word (token ++ [c]) quoted) cs
  | .quote q token, c :: cs =>
    if c = q then scan (.word token true) cs
    else if c = '\\' ∧ q = '"' then scan (.escape token true (some q)) cs
    else scan (.quote q (token ++ [c])) cs
  | .escape token quoted back, c :: cs =>
    match back with
    | none => scan (.word (token ++ [c]) quoted) cs
    -- inside quotes only the quote and the backslash itself can be escaped
    | some q => scan (.quote q (token ++ if c = '\\' ∨ c = q then [c] else ['\\', c])) cs

def split (s : String) : Option (List String) := scan .blank s.toList

example : split "cat  'a b'\"c\\\"d\" x\\ y ''" = some ["cat", "a bc\"d", "x y", ""] := by decide

section Runs

variable {s : State} {token xs ys : List Char} {quoted : Bool} {c : Char}

@[simp] lemma isWhitespace_backslash : isWhitespace '\\' = false := by decide
@[simp] lemma isQuote_backslash : isQuote '\\' = false := by decide

/-- The word that ends here, if there is one. -/
def finished (token : List Char) (quoted : Bool) : List String :=
  if token = [] ∧ quoted = false then [] else [String.ofList token]

def opened (c : Char) (token : List Char) (quoted : Bool) : State :=
  if isQuote c then .quote c token else if c = '\\' then .escape token quoted none else .word (token ++ [c]) quoted

/-- What one character emits, and the state behind it. -/
def step : State → Char → List String × State
  | .blank, c => ([], if isWhitespace c then .blank else opened c [] false)
  | .word token quoted, c => if isWhitespace c then (finished token quoted, .blank) else ([], opened c token quoted)
  | .quote q token, c =>
    ([], if c = q then .word token true else if c = '\\' ∧ q = '"' then .escape token true (some q)
      else .quote q (token ++ [c]))
  | .escape token quoted none, c => ([], .word (token ++ [c]) quoted)
  | .escape token _ (some q), c => ([], .quote q (token ++ if c = '\\' ∨ c = q then [c] else ['\\', c]))

def run (s : State) : List Char → List String × State
  | [] => ([], s)
  | c :: cs => ((step s c).1 ++ (run (step s c).2 cs).1, (run (step s c).2 cs).2)

lemma emit_eq (token : List Char) (quoted : Bool) (rest : Option (List String)) :
    emit token quoted rest = rest.map (finished token quoted ++ ·) := by
  rw [emit, finished]
  split <;> simp

lemma opened_of_ne (hquote : isQuote c = false) (hslash : c ≠ '\\') :
    opened c token quoted = .word (token ++ [c]) quoted := by
  simp [opened, hquote, hslash]

lemma scan_cons (s : State) (c : Char) (cs : List Char) :
    scan s (c :: cs) = (scan (step s c).2 cs).map ((step s c).1 ++ ·) := by
  cases s with
  | blank =>
    by_cases hc : isWhitespace c = true
    · simp [scan, step, hc]
    · by_cases hslash : c = '\\'
      · subst hslash
        simp [scan, step, opened, isWhitespace, isQuote]
      · by_cases hquote : isQuote c = true <;> simp [scan, step, opened, hc, hslash, hquote]
  | word token quoted =>
    by_cases hc : isWhitespace c = true
    · simp [scan, step, hc, emit_eq]
    · by_cases hquote : isQuote c = true
      · simp [scan, step, opened, hc, hquote]
      · by_cases hslash : c = '\\' <;> simp [scan, step, opened, hc, hslash, hquote]
  | quote q token =>
    by_cases hq : c = q
    · simp [scan, step, hq]
    · by_cases hslash : c = '\\' ∧ q = '"' <;> simp [scan, step, hq, hslash]
  | escape token quoted back => cases back <;> simp [scan, step]

lemma scan_append (s : State) (xs ys : List Char) :
    scan s (xs ++ ys) = (scan (run s xs).2 ys).map ((run s xs).1 ++ ·) := by
  induction xs generalizing s with
  | nil => simp [run]
  | cons c xs ih =>
    rw [List.cons_append, scan_cons, ih, run, Option.map_map]
    congr 1
    funext words
    simp

/-- The word that is open, where the scanner is outside of quotes. -/
def State.pending : State → Option (List Char)
  | .blank => some []
  | .word token _ => some token
  | _ => none

lemma scan_blank (cs : List Char) : scan .blank cs = scan (.word [] false) cs := by
  cases cs with
  | nil => simp [scan, emit]
  | cons c cs =>
    rw [scan_cons, scan_cons]
    by_cases hc : isWhitespace c = true <;> simp [step, finished, hc]

lemma run_blanks (hs : ∀ c ∈ xs, isWhitespace c = true) : run .blank xs = ([], .blank) := by
  induction xs with
  | nil => rfl
  | cons c xs ih =>
    rw [List.forall_mem_cons] at hs
    simp [run, step, hs.1, ih hs.2]

/-- A state inside of a word, with what the word holds so far left open. -/
inductive Inside
  | bare
  | quote (q : Char)
  | escape (back : Option Char)

def Inside.state (token : List Char) (quoted : Bool) : Inside → State
  | .bare => .word token quoted
  | .quote q => .quote q token
  | .escape back => .escape token quoted back

lemma step_inside (i : Inside) (c : Char) :
    (i = .bare ∧ isWhitespace c = true) ∨
      ∃ (added : List Char) (shut : Bool) (j : Inside), ∀ token quoted,
        step (i.state token quoted) c = ([], j.state (token ++ added) (quoted || shut)) := by
  cases i with
  | bare =>
    by_cases hc : isWhitespace c = true
    · exact Or.inl ⟨rfl, hc⟩
    · right
      by_cases hquote : isQuote c = true
      · exact ⟨[], false, .quote c, by simp [Inside.state, step, opened, hc, hquote]⟩
      · by_cases hslash : c = '\\'
        · exact ⟨[], false, .escape none, by simp [Inside.state, step, opened, hslash]⟩
        · exact ⟨[c], false, .bare, by simp [Inside.state, step, opened, hc, hquote, hslash]⟩
  | quote q =>
    right
    by_cases hq : c = q
    · exact ⟨[], true, .bare, by simp [Inside.state, step, hq]⟩
    · by_cases hslash : c = '\\' ∧ q = '"'
      · exact ⟨[], true, .escape (some q), by simp [Inside.state, step, hslash]⟩
      · exact ⟨[c], false, .quote q, by simp [Inside.state, step, hq, hslash]⟩
  | escape back =>
    right
    cases back with
    | none => exact ⟨[c], false, .bare, by simp [Inside.state, step]⟩
    | some q =>
      exact ⟨if c = '\\' ∨ c = q then [c] else ['\\', c], false, .quote q, by simp [Inside.state, step]⟩

/-- What follows does not depend on what an open word holds so far. -/
lemma scan_inside (i : Inside) (cs : List Char) : (∀ token quoted, scan (i.state token quoted) cs = none) ∨
    ∃ added shut rest, ∀ token quoted,
      scan (i.state token quoted) cs = some (finished (token ++ added) (quoted || shut) ++ rest) := by
  induction cs generalizing i with
  | nil =>
    cases i with
    | bare => exact Or.inr ⟨[], false, [], by simp [Inside.state, scan, emit_eq]⟩
    | _ => exact Or.inl (by simp [Inside.state, scan])
  | cons c cs ih =>
    rcases step_inside i c with ⟨rfl, hc⟩ | ⟨added, shut, j, hstep⟩
    · cases hrest : scan .blank cs with
      | none => exact Or.inl (by simp [Inside.state, scan_cons, step, hc, hrest])
      | some rest => exact Or.inr ⟨[], false, rest, by simp [Inside.state, scan_cons, step, hc, hrest]⟩
    · rcases ih j with hnone | ⟨added', shut', rest, hsome⟩
      · exact Or.inl fun token quoted => by rw [scan_cons, hstep, hnone, Option.map_none]
      · refine Or.inr ⟨added ++ added', shut || shut', rest, fun token quoted => ?_⟩
        rw [scan_cons, hstep, hsome, Option.map_some, List.nil_append, List.append_assoc, Bool.or_assoc]

end Runs

end OpsSentry.Foundation.Shlex
