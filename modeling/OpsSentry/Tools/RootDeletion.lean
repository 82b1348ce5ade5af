import OpsSentry.Tools.DenyWords

/-! Which commands that delete the root directory the deny verdict catches. -/

namespace OpsSentry.Tools.RootDeletion

open Foundation.Patterns Foundation.PosixPath Foundation.Text

/-- What begins with a hyphen and goes on. -/
def IsOption (word : String) : Prop := word.toList.head? = some '-' ∧ word ≠ "-"

instance (word : String) : Decidable (IsOption word) := inferInstanceAs (Decidable (_ ∧ _))

def options (args : List String) : List String := (args.takeWhile (· ≠ "--")).filter IsOption

/-- All words behind `--` are operands. -/
def operands (args : List String) : List String :=
  (args.takeWhile (· ≠ "--")).filter (¬ IsOption ·) ++ (args.dropWhile (· ≠ "--")).drop 1

/-- The long option, which may be cut short, or one of its letters among others. -/
def asks (long : String) (letters : List Char) (option : String) : Bool :=
  if option.toList.take 2 = ['-', '-'] then option ≠ "--" && option.toList.isPrefixOf long.toList
  else option.toList.any (letters.contains ·)

def baseName (word : String) : String := (components [] word.toList).getLastD ""

structure DeletesRoot (program : String) (args : List String) : Prop where
  program : lower (baseName program) = "rm"
  recursive : ∃ option ∈ options args, asks "--recursive" ['r', 'R'] option = true
  force : ∃ option ∈ options args, asks "--force" ['f'] option = true
  root : ∃ operand ∈ operands args, IsAbsolute operand ∧ resolve AbsPath.root operand = AbsPath.root

/-- `rm -rf /` as a part of the raw text, with any blanks and in any case. -/
def SpelledOut (command : List Char) : Prop :=
  ∃ rm gap flags gap', rm ++ gap ++ flags ++ gap' ++ ['/'] <:+: command ∧ lower (String.ofList rm) = "rm" ∧
    lower (String.ofList flags) = "-rf" ∧ (gap ≠ [] ∧ ∀ c ∈ gap, isSpace c = true) ∧
    (gap' ≠ [] ∧ ∀ c ∈ gap', isSpace c = true)

/-- A deny rule that is not about `rm`. -/
def OtherRule (command : String) (words : List String) : Prop :=
  (∃ pattern ∈ GLOBAL_DENY_PATTERNS.tail, ∃ w, w <:+: command.toList ∧ Matches pattern w) ∨
    (Has words "chmod" ∧ Has words "777") ∨
    ((Has words "|" ∨ Has words ";" ∨ Has words "&") ∧ (Has words "sh" ∨ Has words "bash"))

/-- The program is spelled `rm`, or an argument is, and an argument is spelled `/`. -/
def PlainWords (program : String) (args : List String) : Prop :=
  (lower program = "rm" ∨ Has args "rm") ∧ "/" ∈ args

instance (program : String) (args : List String) : Decidable (PlainWords program args) :=
  inferInstanceAs (Decidable (_ ∧ _))

section Letters

variable {w : List Char} {words : List String}

lemma toNat_toLower (x : Char) :
    x.toLower.toNat = if 65 ≤ x.toNat ∧ x.toNat ≤ 90 then x.toNat + 32 else x.toNat := by
  have hshift : ('a'.val - 'A'.val).toNat = 32 := by decide
  by_cases h : x.val ≥ 'A'.val ∧ x.val ≤ 'Z'.val
  · have h' : 65 ≤ x.toNat ∧ x.toNat ≤ 90 := h
    have hval : x.toLower.val = x.val + ('a'.val - 'A'.val) := congrArg Char.val (dif_pos h)
    rw [if_pos h']
    simp only [Char.toNat] at *
    rw [hval, UInt32.toNat_add, hshift]
    omega
  · have h' : ¬ (65 ≤ x.toNat ∧ x.toNat ≤ 90) := h
    have hsame : x.toLower = x := dif_neg h
    rw [hsame, if_neg h']

def letters : List Char := ['r', 'm', '-', 'f', '/']

/-- `re.IGNORECASE` and `str.lower` agree on these letters. -/
lemma ignoreCase_iff {c : Char} (hc : c ∈ letters) (x : Char) :
    ignoreCase c x = true ↔ lowerChar x = c := by
  have hx : ∀ d : Char, x = d ↔ x.toNat = d.toNat := fun d => Char.toNat_inj.symm
  have hlower : ∀ d : Char, lowerChar x = d ↔ (if x.toNat = 0x212a then 107 else x.toLower.toNat) = d.toNat := by
    intro d
    rw [← Char.toNat_inj, lowerChar]
    split <;> rfl
  rw [hlower, toNat_toLower]
  simp only [letters, List.mem_cons, List.not_mem_nil, or_false] at hc
  rcases hc with rfl | rfl | rfl | rfl | rfl <;> simp [ignoreCase, hx] <;> split_ifs <;> omega

lemma matches_literal_iff {s : String} (hall : s.toList.all (· ∈ letters) = true) :
    Matches (literal s) w ↔ lower (String.ofList w) = s := by
  have hs : ∀ c ∈ s.toList, c ∈ letters := by simpa using hall
  have hlower : lower (String.ofList w) = s ↔ w.map lowerChar = s.toList := by
    rw [lower, String.toList_ofList, ← String.toList_inj, String.toList_ofList]
  rw [hlower, literal]
  clear hlower hall
  generalize s.toList = cs at hs
  induction cs generalizing w with
  | nil => simp [Matches]
  | cons c cs ih =>
    rw [List.forall_mem_cons] at hs
    rw [List.map_cons, Matches, List.map_eq_cons_iff]
    constructor
    · rintro ⟨x, v, rfl, hx, hv⟩
      exact ⟨x, v, rfl, (ignoreCase_iff hs.1 x).mp hx, (ih hs.2).mp hv⟩
    · rintro ⟨x, v, rfl, hx, hv⟩
      exact ⟨x, v, rfl, (ignoreCase_iff hs.1 x).mpr hx, (ih hs.2).mpr hv⟩

lemma matches_spaces_iff : Matches [spaces] w ↔ w ≠ [] ∧ ∀ c ∈ w, isSpace c = true := by
  simp [spaces, Matches]

lemma lower_slash_iff {word : String} : lower word = "/" ↔ word = "/" := by
  constructor
  · intro h
    obtain ⟨x, hx⟩ : ∃ x, word.toList = [x] := by
      rw [← List.length_eq_one_iff]
      have hlen := congrArg (fun s => s.toList.length) h
      simpa [lower] using hlen
    have hslash := congrArg String.toList h
    rw [lower, String.toList_ofList, hx, List.map_singleton] at hslash
    have hchar : ignoreCase '/' x = true := (ignoreCase_iff (by decide) x).mpr (List.cons.inj hslash).1
    have hx' : x = '/' := by simpa [ignoreCase] using hchar
    rw [← String.ofList_toList (s := word), hx, hx']
  · rintro rfl
    decide

lemma has_slash_iff : Has words "/" ↔ "/" ∈ words := by
  simp [Has, lower_slash_iff]

end Letters

section Verdict

variable {command program : String} {args : List String}

lemma spelledOut_iff {cs : List Char} : SpelledOut cs ↔
    ∃ w, w <:+: cs ∧ Matches (literal "rm" ++ [spaces] ++ literal "-rf" ++ [spaces] ++ literal "/") w := by
  constructor
  · rintro ⟨rm, gap, flags, gap', hin, hrm, hflags, hgap, hgap'⟩
    refine ⟨_, hin, ?_⟩
    refine matches_append_iff.mpr ⟨_, _, rfl, ?_, (matches_literal_iff (by decide)).mpr (by decide)⟩
    refine matches_append_iff.mpr ⟨_, _, rfl, ?_, matches_spaces_iff.mpr hgap'⟩
    refine matches_append_iff.mpr ⟨_, _, rfl, ?_, (matches_literal_iff (by decide)).mpr hflags⟩
    refine matches_append_iff.mpr ⟨_, _, rfl, ?_, matches_spaces_iff.mpr hgap⟩
    exact (matches_literal_iff (by decide)).mpr hrm
  · rintro ⟨w, hin, hw⟩
    obtain ⟨_, slash, rfl, hw, hslash⟩ := matches_append_iff.mp hw
    obtain ⟨_, gap', rfl, hw, hgap'⟩ := matches_append_iff.mp hw
    obtain ⟨_, flags, rfl, hw, hflags⟩ := matches_append_iff.mp hw
    obtain ⟨rm, gap, rfl, hrm, hgap⟩ := matches_append_iff.mp hw
    have hslash := lower_slash_iff.mp ((matches_literal_iff (by decide)).mp hslash)
    obtain rfl : slash = ['/'] := by simpa using congrArg String.toList hslash
    exact ⟨rm, gap, flags, gap', hin, (matches_literal_iff (by decide)).mp hrm,
      (matches_literal_iff (by decide)).mp hflags, matches_spaces_iff.mp hgap, matches_spaces_iff.mp hgap'⟩

lemma dangerousText_iff_spelledOut {cs : List Char} : DangerousText cs ↔ SpelledOut cs ∨
    ∃ pattern ∈ GLOBAL_DENY_PATTERNS.tail, ∃ w, w <:+: cs ∧ Matches pattern w := by
  rw [spelledOut_iff, DangerousText]
  exact List.exists_mem_cons_iff ..

/-- A command that deletes the root is denied if its raw text spells `rm -rf /`, if its words spell `rm`
and `/`, or if a rule about something else applies. -/
theorem root_denied_iff (hsplit : Foundation.Shlex.split command = some (program :: args))
    (h : DeletesRoot program args) : isGloballyDenied command = true ↔
      SpelledOut command.toList ∨ PlainWords program args ∨ OtherRule command (program :: args) := by
  have hprogram : program ≠ "/" := by
    rintro rfl
    exact absurd h.program (by decide)
  have hslash : "/" ∈ program :: args ↔ "/" ∈ args := by simp [Ne.symm hprogram]
  rw [isGloballyDenied_iff, dangerousText_iff_spelledOut, hsplit]
  simp only [Option.some.injEq, forall_eq']
  rw [DangerousWords, OtherRule, PlainWords, has_slash_iff, hslash, has_cons_iff (t := "rm"), or_assoc]
  exact or_congr_right or_left_comm

end Verdict

theorem other_spelling_denied : isGloballyDenied "RM -v --force -R /etc/.. /" = true :=
  (@root_denied_iff "RM -v --force -R /etc/.. /" "RM" ["-v", "--force", "-R", "/etc/..", "/"] (by decide)
    ⟨by decide, by decide, by decide, by decide⟩).mpr (Or.inr (Or.inl (by decide)))

/-- `/bin/rm -fr /` passes. -/
theorem root_deletion_passes : ¬ ∀ command program args,
    Foundation.Shlex.split command = some (program :: args) → DeletesRoot program args →
      isGloballyDenied command = true := by
  intro h
  have hdenied := h "/bin/rm -fr /" "/bin/rm" ["-fr", "/"] (by decide)
    ⟨by decide, by decide, by decide, by decide⟩
  exact absurd hdenied (by decide)

end OpsSentry.Tools.RootDeletion
