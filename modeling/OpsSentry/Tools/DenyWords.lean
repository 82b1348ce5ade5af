import OpsSentry.Tools.Policy

/-! The deny verdict in two parts: the patterns that are searched for in the raw text, and the rules
on the words that `shlex` finds. -/

namespace OpsSentry.Tools

open Foundation.Patterns

/-- Some word is `t`, whatever the case of its letters. -/
def Has (words : List String) (t : String) : Prop := ∃ w ∈ words, lower w = t

instance (words : List String) (t : String) : Decidable (Has words t) := inferInstanceAs (Decidable (∃ w ∈ words, _))

/-- The rules on words: `rm` with `/`, `chmod` with `777`, an operator with a shell. -/
def DangerousWords (words : List String) : Prop :=
  (Has words "rm" ∧ Has words "/") ∨ (Has words "chmod" ∧ Has words "777") ∨
    ((Has words "|" ∨ Has words ";" ∨ Has words "&") ∧ (Has words "sh" ∨ Has words "bash"))

instance (words : List String) : Decidable (DangerousWords words) := inferInstanceAs (Decidable (_ ∨ _))

/-- A part of the raw text is what a deny pattern stands for. -/
def DangerousText (command : List Char) : Prop :=
  ∃ pattern ∈ GLOBAL_DENY_PATTERNS, ∃ w, w <:+: command ∧ Matches pattern w

def ruleWords : List String := ["rm", "/", "chmod", "777", "|", ";", "&", "sh", "bash"]

section Rules

variable {words words' : List String} {command t : String}

lemma contains_lower_iff : (words.map lower).contains t = true ↔ Has words t := by
  rw [List.contains_iff_mem, List.mem_map]
  rfl

lemma has_append_iff : Has (words ++ words') t ↔ Has words t ∨ Has words' t := by
  simp [Has, or_and_right, exists_or]

lemma has_cons_iff {w : String} : Has (w :: words) t ↔ lower w = t ∨ Has words t := by
  simp [Has]

lemma dangerousText_iff : DangerousText command.toList ↔
    GLOBAL_DENY_PATTERNS.any (search · command.toList) = true := by
  rw [DangerousText, List.any_eq_true]
  simp only [search_iff]

/-- The verdict is on the raw text first, then on the words. -/
lemma isGloballyDenied_iff : isGloballyDenied command = true ↔
    DangerousText command.toList ∨ ∀ words, Foundation.Shlex.split command = some words → DangerousWords words := by
  rw [isGloballyDenied, Bool.or_eq_true, ← dangerousText_iff]
  refine or_congr_right ?_
  cases hwords : Foundation.Shlex.split command with
  | none => simp
  | some words =>
    have hdanger : Has words "rm" ∨ Has words "chmod" →
        (words.map lower).any (danger_bins.contains ·) = true := by
      rw [List.any_eq_true]
      rintro (⟨w, hw, h⟩ | ⟨w, hw, h⟩)
      · exact ⟨lower w, List.mem_map_of_mem hw, by rw [h]; decide⟩
      · exact ⟨lower w, List.mem_map_of_mem hw, by rw [h]; decide⟩
    simp only [Bool.or_eq_true, Bool.and_eq_true, contains_lower_iff, List.any_cons, List.any_nil, Bool.or_false,
      Option.some.injEq, forall_eq', DangerousWords]
    constructor
    · rintro (⟨-, h | h⟩ | ⟨hop, hshell⟩)
      · exact Or.inl h
      · exact Or.inr (Or.inl h)
      · exact Or.inr (Or.inr ⟨or_assoc.mp hop, hshell⟩)
    · rintro (h | h | ⟨hop, hshell⟩)
      · exact Or.inl ⟨hdanger (Or.inl h.1), Or.inl h⟩
      · exact Or.inl ⟨hdanger (Or.inr h.1), Or.inr h⟩
      · exact Or.inr ⟨or_assoc.mpr hop, hshell⟩

/-- Only the words of the rules count. -/
lemma DangerousWords.mono (h : DangerousWords words) (hsub : ∀ t ∈ ruleWords, Has words t → Has words' t) :
    DangerousWords words' := by
  rcases h with ⟨ha, hb⟩ | ⟨ha, hb⟩ | ⟨hop, hshell⟩
  · exact Or.inl ⟨hsub _ (by decide) ha, hsub _ (by decide) hb⟩
  · exact Or.inr (Or.inl ⟨hsub _ (by decide) ha, hsub _ (by decide) hb⟩)
  · refine Or.inr (Or.inr ⟨?_, ?_⟩)
    · rcases hop with h | h | h
      · exact Or.inl (hsub _ (by decide) h)
      · exact Or.inr (Or.inl (hsub _ (by decide) h))
      · exact Or.inr (Or.inr (hsub _ (by decide) h))
    · exact hshell.imp (hsub _ (by decide)) (hsub _ (by decide))

end Rules

end OpsSentry.Tools
