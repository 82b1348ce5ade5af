import OpsSentry.Foundation.Dicts
import OpsSentry.Foundation.Splits
import OpsSentry.Foundation.Values

/-! `skill_loader.py`: the skills of an account and of an agent, each a directory with a `SKILL.md`. -/

namespace OpsSentry.Agent.SkillLoader

open Foundation Foundation.Lines Foundation.Markup Foundation.Splits Foundation.Values

/-- `yaml.safe_load`, which raises or gives a value, with `str` and `hash` of its values. -/
structure Yaml where
  safe_load : Word → Option Value
  str : Value → String
  hashable : Value → Bool
  str_str : ∀ s, str (.str s) = s
  hashable_str : ∀ s, hashable (.str s) = true

/-- `SKILL.md` in a directory, with the text on disk if it is UTF-8. -/
inductive SkillFile
  | missing
  | undecodable
  | text (disk : Word)

structure SkillDir where
  name : String
  skill_file : SkillFile

structure SkillMeta where
  name : Value
  version : Value
  description : Value
  trigger : Value
  path : SkillFile
  is_private : Bool

def fence : Word := ['-', '-', '-']

/-- `f.read()` in text mode. -/
def SkillFile.read : SkillFile → Option Word
  | .text disk => some (newlines disk)
  | _ => none

/-- What stands between the first two fences. -/
def frontmatterRaw (content : Word) : Option Word :=
  if fence <+: content then
    match splitMax fence 2 content with
    | [_, frontmatter_raw, _] => some frontmatter_raw
    | _ => none
  else none

/-- `data.get(key, default)`. -/
def getD (data : Dict) (key : String) (default : Value) : Value := (data.lookup (.text key)).getD default

def metaOf (skill_dir : SkillDir) (is_private : Bool) : Option Value → Option SkillMeta
  | some (.dict data) => some
      { name := getD data "name" (.str skill_dir.name), version := getD data "version" (.str "v0.1")
        description := getD data "description" (.str ""), trigger := getD data "trigger" (.list [])
        path := skill_dir.skill_file, is_private }
  | _ => none

section Loader

variable (yaml : Yaml)

def loadSkillMeta (skill_dir : SkillDir) (is_private : Bool) : Option SkillMeta := do
  let content ← skill_dir.skill_file.read
  let frontmatter_raw ← frontmatterRaw content
  metaOf skill_dir is_private (yaml.safe_load frontmatter_raw)

def skillContent (content : Word) : Word :=
  if fence <+: content then
    match splitMax fence 2 content with
    | [_, _, body] => stripText body
    | _ => stripText content
  else stripText content

def loadSkillContent (skill_file : SkillFile) : Option Word := skill_file.read.map skillContent

/-- The skills with a string for a name, the last of each name; no other name is ever asked for. -/
abbrev Skills := List (String × SkillMeta)

/-- A name that has no hash makes the insertion raise. -/
def addSkill (all_skills : Skills) (m : SkillMeta) : Option Skills :=
  if yaml.hashable m.name then
    match m.name with
    | .str name => some (put all_skills name m)
    | _ => some all_skills
  else none

structure Home where
  account_skills : List SkillDir
  agent_skills : List SkillDir

def Home.metas (home : Home) : List SkillMeta :=
  home.account_skills.filterMap (loadSkillMeta yaml · false) ++ home.agent_skills.filterMap (loadSkillMeta yaml · true)

def scanSkills (home : Home) : Option Skills := (home.metas yaml).foldlM (addSkill yaml) []

structure Injected where
  name : Word
  version : Word
  body : Word

def Injected.render (x : Injected) : Word :=
  "### Skill: ".toList ++ x.name ++ " (".toList ++ x.version ++ ")\n".toList ++ x.body

def injectedOf (m : SkillMeta) : Option Injected :=
  match loadSkillContent m.path with
  | none | some [] => none
  | some skill_text => some ⟨(yaml.str m.name).toList, (yaml.str m.version).toList, skill_text⟩

def injected (available_skills : Skills) (enabled_skills : List String) : List Injected :=
  enabled_skills.filterMap fun skill_name => (available_skills.lookup skill_name).bind (injectedOf yaml)

def noSkills : Word := "No specialized skills currently enabled.".toList

def joinInjected (injection_parts : List Injected) : Word :=
  if injection_parts = [] then noSkills
  else "\n\n".toList.intercalate (injection_parts.map Injected.render)

def getSystemPromptInjection (home : Home) (enabled_skills : List String) : Option Word :=
  (scanSkills yaml home).map fun available_skills => joinInjected (injected yaml available_skills enabled_skills)

end Loader

end OpsSentry.Agent.SkillLoader
