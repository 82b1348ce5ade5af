import OpsSentry.Agent.SkillLoader

/-! Where the loader finds the two fences of a `SKILL.md`. It looks for three dashes, not for lines. -/

namespace OpsSentry.Agent.SkillLoader

open Foundation.Lines Foundation.Markup Foundation.Splits Foundation.Text Foundation.Values

/-- A fence line, `F`, a fence line and `B`. -/
def framed (F B : Word) : Word := fence ++ '\n' :: (F ++ '\n' :: (fence ++ '\n' :: B))

structure FramingHolds (F B : Word) : Prop where
  frontmatter : (SkillFile.text (framed F B)).read.bind frontmatterRaw = some ('\n' :: (F ++ ['\n']))
  content : loadSkillContent (.text (framed F B)) = some (stripText B)

/-- The first line is a fence, and another one is. -/
def StartsWithBlock (content : Word) : Prop :=
  ∃ ls rest, content.splitOn '\n' = fence :: (ls ++ fence :: rest)

def MetaOnlyFromBlock (yaml : Yaml) (skill_dir : SkillDir) (is_private : Bool) : Prop :=
  (∀ content, skill_dir.skill_file.read = some content → ¬ StartsWithBlock content) →
    loadSkillMeta yaml skill_dir is_private = none

/-- What stands between the first dashes of the text and the next three is a mapping. -/
def DashesAroundMapping (yaml : Yaml) (content : Word) : Prop :=
  ∃ rest raw body data, content = fence ++ rest ∧ cut fence rest = some (raw, body) ∧
    yaml.safe_load raw = some (.dict data)

section Fences

variable {rest F B : Word}

lemma splitMax_fence (rest : Word) : splitMax fence 2 (fence ++ rest) =
    match cut fence rest with
    | some (raw, body) => [[], raw, body]
    | none => [[], rest] := by
  rw [splitMax, cut_self]
  dsimp only
  rw [splitMax]
  cases cut fence rest <;> rfl

lemma frontmatterRaw_fence (rest : Word) :
    frontmatterRaw (fence ++ rest) = (cut fence rest).map Prod.fst := by
  rw [frontmatterRaw, if_pos (List.prefix_append _ _), splitMax_fence]
  cases cut fence rest <;> rfl

lemma skillContent_fence {raw body : Word} (h : cut fence rest = some (raw, body)) :
    skillContent (fence ++ rest) = stripText body := by
  rw [skillContent, if_pos (List.prefix_append _ _), splitMax_fence, h]

lemma read_framed (F B : Word) :
    newlines (framed F B) = fence ++ '\n' :: newlines (F ++ '\n' :: (fence ++ '\n' :: B)) := by
  rw [framed, newlines_of_notMem (by decide), newlines_cons_of_ne (by decide)]

lemma read_framed_of_notMem (hF : '\r' ∉ F) (B : Word) :
    newlines (framed F B) = fence ++ ('\n' :: F ++ '\n' :: (fence ++ '\n' :: newlines B)) := by
  rw [read_framed, newlines_of_notMem hF, newlines_cons_of_ne (by decide), newlines_of_notMem (by decide),
    newlines_cons_of_ne (by decide), List.cons_append]

/-- Such a file starts with a block, whatever `F` is. -/
lemma startsWithBlock_framed (hF : '\r' ∉ F) (B : Word) : StartsWithBlock (newlines (framed F B)) := by
  refine ⟨F.splitOn '\n', (newlines B).splitOn '\n', ?_⟩
  have hfence : '\n' ∉ fence := by decide
  rw [read_framed_of_notMem hF, List.cons_append, List.splitOn_append_cons_self_of_not_mem hfence,
    List.splitOn_append_cons_self, List.splitOn_append_cons_self_of_not_mem hfence]

lemma fence_infix_cons : fence <:+: '\n' :: F ↔ fence <:+: F := by
  refine ⟨fun h => (List.infix_cons_iff.mp h).resolve_left ?_, List.infix_cons⟩
  rintro ⟨post, hpost⟩
  exact absurd (List.cons.inj hpost).1 (by decide)

lemma cut_framed : cut fence ('\n' :: F ++ '\n' :: (fence ++ '\n' :: newlines B)) =
    some ('\n' :: F ++ ['\n'], '\n' :: newlines B) ↔ ¬ fence <:+: F := by
  rw [cut_behind_iff (by decide) (by decide), fence_infix_cons]

/-- Nothing that is read holds a return. -/
lemma return_notMem_of_frontmatter (h : (SkillFile.text (framed F B)).read.bind frontmatterRaw = some ('\n' :: (F ++ ['\n']))) :
    '\r' ∉ F := by
  intro hr
  rw [SkillFile.read, Option.bind_some, read_framed, frontmatterRaw_fence] at h
  obtain ⟨⟨raw, body⟩, hcut, hraw⟩ := Option.map_eq_some_iff.mp h
  obtain rfl : raw = _ := hraw
  have hread := read_framed F B
  rw [eq_of_cut hcut] at hread
  refine return_notMem_newlines (framed F B) ?_
  rw [hread]
  simp [hr]

lemma framingHolds_iff : FramingHolds F B ↔ ¬ fence <:+: F ∧ '\r' ∉ F ∧ '\r' ∉ stripText B := by
  have hstrip : stripText ('\n' :: newlines B) = stripText B ↔ '\r' ∉ stripText B := by
    rw [stripText_space rfl, stripText_newlines_iff]
  constructor
  · rintro ⟨hfront, hcontent⟩
    have hF := return_notMem_of_frontmatter hfront
    rw [SkillFile.read, Option.bind_some, read_framed_of_notMem hF, frontmatterRaw_fence] at hfront
    obtain ⟨⟨raw, body⟩, hcut, hraw⟩ := Option.map_eq_some_iff.mp hfront
    obtain rfl : raw = _ := hraw
    have heq := eq_of_cut hcut
    have hbody : body = '\n' :: newlines B := by
      simpa using heq.symm
    rw [hbody] at hcut
    refine ⟨cut_framed.mp hcut, hF, hstrip.mp ?_⟩
    rw [loadSkillContent, SkillFile.read, Option.map_some, read_framed_of_notMem hF, skillContent_fence hcut] at hcontent
    exact Option.some.inj hcontent
  · rintro ⟨hfence, hF, hB⟩
    have hcut := (cut_framed (B := B)).mpr hfence
    constructor
    · rw [SkillFile.read, Option.bind_some, read_framed_of_notMem hF, frontmatterRaw_fence, hcut]
      rfl
    · rw [loadSkillContent, SkillFile.read, Option.map_some, read_framed_of_notMem hF, skillContent_fence hcut,
        hstrip.mpr hB]

end Fences

section Metadata

variable {yaml : Yaml} {skill_dir : SkillDir} {is_private : Bool} {content : Word}

lemma metaOf_ne_none {loaded : Option Value} :
    metaOf skill_dir is_private loaded ≠ none ↔ ∃ data, loaded = some (.dict data) := by
  constructor
  · intro h
    unfold metaOf at h
    split at h
    · exact ⟨_, rfl⟩
    · exact absurd rfl h
  · rintro ⟨data, rfl⟩
    simp [metaOf]

lemma frontmatterRaw_eq_some {raw : Word} :
    frontmatterRaw content = some raw ↔ ∃ rest body, content = fence ++ rest ∧ cut fence rest = some (raw, body) := by
  constructor
  · intro h
    by_cases hfence : fence <+: content
    · obtain ⟨rest, rfl⟩ := hfence
      rw [frontmatterRaw_fence] at h
      obtain ⟨⟨raw', body⟩, hcut, rfl⟩ := Option.map_eq_some_iff.mp h
      exact ⟨rest, body, rfl, hcut⟩
    · rw [frontmatterRaw, if_neg hfence] at h
      cases h
  · rintro ⟨rest, body, rfl, hcut⟩
    rw [frontmatterRaw_fence, hcut]
    rfl

lemma loadSkillMeta_ne_none (hread : skill_dir.skill_file.read = some content) :
    loadSkillMeta yaml skill_dir is_private ≠ none ↔ DashesAroundMapping yaml content := by
  have hload : loadSkillMeta yaml skill_dir is_private =
      (frontmatterRaw content).bind fun raw => metaOf skill_dir is_private (yaml.safe_load raw) := by
    rw [loadSkillMeta, hread]
    rfl
  rw [hload]
  constructor
  · intro h
    cases hraw : frontmatterRaw content with
    | none => exact absurd (by rw [hraw]; rfl) h
    | some raw =>
      rw [hraw, Option.bind_some, metaOf_ne_none] at h
      obtain ⟨data, hdata⟩ := h
      obtain ⟨rest, body, hcontent, hcut⟩ := frontmatterRaw_eq_some.mp hraw
      exact ⟨rest, raw, body, data, hcontent, hcut, hdata⟩
  · rintro ⟨rest, raw, body, data, hcontent, hcut, hdata⟩
    rw [frontmatterRaw_eq_some.mpr ⟨rest, body, hcontent, hcut⟩, Option.bind_some, metaOf_ne_none]
    exact ⟨data, hdata⟩

lemma metaOnlyFromBlock_iff : MetaOnlyFromBlock yaml skill_dir is_private ↔
    ∀ content, skill_dir.skill_file.read = some content →
      StartsWithBlock content ∨ ¬ DashesAroundMapping yaml content := by
  cases hread : skill_dir.skill_file.read with
  | none =>
    refine iff_of_true (fun _ => ?_) nofun
    rw [loadSkillMeta, hread]
    rfl
  | some content =>
    rw [MetaOnlyFromBlock, hread]
    simp only [Option.some.injEq, forall_eq']
    rw [← loadSkillMeta_ne_none hread, not_not]
    exact Classical.or_iff_not_imp_left.symm

end Metadata

theorem skill_framing_iff (yaml : Yaml) :
    (∀ F B, FramingHolds F B ↔ ¬ fence <:+: F ∧ '\r' ∉ F ∧ '\r' ∉ stripText B) ∧
    ∀ skill_dir is_private, MetaOnlyFromBlock yaml skill_dir is_private ↔
      ∀ content, skill_dir.skill_file.read = some content →
        StartsWithBlock content ∨ ¬ DashesAroundMapping yaml content :=
  ⟨fun _ _ => framingHolds_iff, fun _ _ => metaOnlyFromBlock_iff⟩

/-- Three dashes in a description end the front matter. -/
theorem dashes_in_description :
    fence ∉ "name: disk\ndescription: df --- and du".toList.splitOn '\n' ∧
      ¬ FramingHolds "name: disk\ndescription: df --- and du".toList "# Disk".toList := by
  refine ⟨by decide, fun h => (framingHolds_iff.mp h).1 ?_⟩
  decide

end OpsSentry.Agent.SkillLoader
