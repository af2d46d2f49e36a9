import DurableAgent.Library.FallibleSteps
import DurableAgent.Library.OrderedDict
import DurableAgent.Python.Text
import DurableAgent.Skills.Models

/-!
# The skill loader

`skills/loader.py`. A directory is the list of its entries in the order in which they are
enumerated. Of the validation, only what decides between a text and a list is modelled.
-/

set_option autoImplicit false

namespace DurableAgent.Skills

open Library Python

inductive FrontmatterValue where
  | text (value : String)
  | list (items : List String)
  deriving DecidableEq, Repr

namespace SkillLoader

/-! ## The pattern -/

/-- What can follow `\s*\n`, with the longest run of whitespace first. -/
def afterBlank : List Char → List (List Char)
  | [] => []
  | char :: rest =>
      (if isSpace char then afterBlank rest else []) ++ if char = '\n' then [rest] else []

def afterMarker (marker chars : List Char) : List (List Char) :=
  if marker.isPrefixOf chars then afterBlank (chars.drop marker.length) else []

/-- The shortest block before a closing marker, and the text behind the marker. -/
def closeBlock : List Char → Option (List Char × List Char)
  | [] => none
  | char :: rest =>
      match (afterMarker ['\n', '-', '-', '-'] (char :: rest)).head? with
      | some body => some ([], body)
      | none => (closeBlock rest).map fun parts => (char :: parts.1, parts.2)

/-- The groups of the first match of `^---\s*\n(.*?)\n---\s*\n(.*)$`, where a dot stands for
any character. -/
def matchPattern (content : List Char) : Option (List Char × List Char) :=
  (afterMarker ['-', '-', '-'] content).findSome? closeBlock

/-- Whitespace up to the end of a line. -/
def IsBlank (chars : List Char) : Prop := ∀ char ∈ chars, isSpace char = true

/-- A block between two markers that stand alone in their lines, and the text behind them. -/
def Fenced (content block body : List Char) : Prop :=
  ∃ opening closing, IsBlank opening ∧ IsBlank closing ∧
    content = ['-', '-', '-'] ++ (opening ++ '\n' :: (block ++
      (['\n', '-', '-', '-'] ++ (closing ++ '\n' :: body))))

section Pattern

variable {marker chars content block body rest : List Char}

theorem mem_afterBlank : rest ∈ afterBlank chars ↔
    ∃ blank, IsBlank blank ∧ chars = blank ++ '\n' :: rest := by
  induction chars with
  | nil => simp [afterBlank]
  | cons char others ih =>
      have further : (∃ blank, IsBlank blank ∧ char :: others = blank ++ '\n' :: rest) ↔
          isSpace char = true ∧ (∃ blank, IsBlank blank ∧ others = blank ++ '\n' :: rest) ∨
            char = '\n' ∧ rest = others := by
        constructor
        · rintro ⟨blank, spaces, split⟩
          cases blank with
          | nil =>
              cases split
              exact .inr ⟨rfl, rfl⟩
          | cons first blank =>
              cases split
              exact .inl ⟨spaces _ List.mem_cons_self, blank,
                fun other member => spaces other (List.mem_cons_of_mem _ member), rfl⟩
        · rintro (⟨space, blank, spaces, rfl⟩ | ⟨rfl, rfl⟩)
          · exact ⟨char :: blank, List.forall_mem_cons.mpr ⟨space, spaces⟩, rfl⟩
          · exact ⟨[], List.forall_mem_nil _, rfl⟩
      rw [further, afterBlank, List.mem_append, ← ih]
      refine or_congr ?_ ?_
      · split
        · next space => simp [space]
        · next solid => simp [solid]
      · split
        · next newline => simp [newline]
        · next other => simp [other]

theorem mem_afterMarker : rest ∈ afterMarker marker chars ↔
    ∃ blank, IsBlank blank ∧ chars = marker ++ (blank ++ '\n' :: rest) := by
  unfold afterMarker
  split
  · next starts =>
      obtain ⟨tail, rfl⟩ := List.isPrefixOf_iff_prefix.mp starts
      rw [List.drop_left, mem_afterBlank]
      simp
  · next other =>
      simp only [List.not_mem_nil, false_iff, not_exists, not_and]
      rintro blank _ rfl
      exact other (List.isPrefixOf_iff_prefix.mpr (List.prefix_append marker _))

theorem closeBlock_sound (closed : closeBlock chars = some (block, body)) :
    ∃ closing, IsBlank closing ∧
      chars = block ++ (['\n', '-', '-', '-'] ++ (closing ++ '\n' :: body)) := by
  induction chars generalizing block with
  | nil => cases closed
  | cons char others ih =>
      rw [closeBlock] at closed
      split at closed
      · next found =>
          cases closed
          exact mem_afterMarker.mp (List.mem_of_head? found)
      · obtain ⟨parts, later, same⟩ := Option.map_eq_some_iff.mp closed
        cases same
        obtain ⟨closing, spaces, rfl⟩ := ih later
        exact ⟨closing, spaces, rfl⟩

theorem closeBlock_isSome {closing : List Char} (spaces : IsBlank closing) :
    (closeBlock (block ++ (['\n', '-', '-', '-'] ++ (closing ++ '\n' :: body)))).isSome = true := by
  induction block with
  | nil =>
      have found : body ∈ afterMarker ['\n', '-', '-', '-']
          (['\n', '-', '-', '-'] ++ (closing ++ '\n' :: body)) :=
        mem_afterMarker.mpr ⟨closing, spaces, rfl⟩
      obtain ⟨first, leads⟩ := Option.isSome_iff_exists.mp
        (List.isSome_head?.mpr (List.ne_nil_of_mem found))
      rw [List.nil_append]
      rw [List.cons_append] at leads ⊢
      rw [closeBlock, leads]
      rfl
  | cons char block ih =>
      rw [List.cons_append, closeBlock]
      split
      · rfl
      · rwa [Option.isSome_map]

/-- A match has the shape that the pattern describes. -/
theorem matchPattern_sound (found : matchPattern content = some (block, body)) :
    Fenced content block body := by
  obtain ⟨rest, within, closed⟩ := List.exists_of_findSome?_eq_some found
  obtain ⟨opening, spaces, rfl⟩ := mem_afterMarker.mp within
  obtain ⟨closing, blank, rfl⟩ := closeBlock_sound closed
  exact ⟨opening, closing, spaces, blank, rfl⟩

/-- Backtracking finds a match wherever there is one. -/
theorem matchPattern_isSome_iff :
    (matchPattern content).isSome = true ↔ ∃ block body, Fenced content block body := by
  constructor
  · intro found
    obtain ⟨⟨block, body⟩, same⟩ := Option.isSome_iff_exists.mp found
    exact ⟨block, body, matchPattern_sound same⟩
  · rintro ⟨block, body, opening, closing, spaces, blank, rfl⟩
    rw [matchPattern, List.findSome?_isSome_iff]
    exact ⟨_, mem_afterMarker.mpr ⟨opening, spaces, rfl⟩, closeBlock_isSome blank⟩

end Pattern

/-! ## The frontmatter -/

def cleaned (value : String) : String := stripChar '\'' (stripChar '"' (strip value))

/-- A value in brackets is a list, whatever its key is. -/
def parseValue (value : String) : FrontmatterValue :=
  match (cleaned value).toList with
  | '[' :: rest =>
      if rest.getLast? = some ']' then
        .list (((splitOn ',' (String.ofList rest.dropLast)).filter (· ≠ "")).map cleaned)
      else .text (cleaned value)
  | _ => .text (cleaned value)

def parseLine (frontmatter : OrderedDict String FrontmatterValue) (line : String) :
    OrderedDict String FrontmatterValue :=
  if ':' ∈ line.toList then
    frontmatter.insert (strip (splitOnce ':' line).1) (parseValue (splitOnce ':' line).2)
  else frontmatter

def parseFrontmatter (content : String) : OrderedDict String FrontmatterValue × String :=
  match matchPattern content.toList with
  | none => (.empty, content)
  | some (block, body) =>
      ((splitOn '\n' (String.ofList block)).foldl parseLine .empty, String.ofList body)

/-! ## The catalog -/

/-- The fields whose values have the wrong type. -/
structure ValidationError where
  fields : List String
  deriving DecidableEq, Repr

def validateText (field : String) : FrontmatterValue → List String
  | .text _ => []
  | .list _ => [field]

def validateList (field : String) : FrontmatterValue → List String
  | .text _ => [field]
  | .list _ => []

/-- `SkillMetadata(...)`. -/
def buildMetadata (rootPath : String) (name description allowedTools : FrontmatterValue) :
    Except ValidationError SkillMetadata :=
  match name, description, allowedTools with
  | .text name, .text description, .list allowedTools =>
      .ok { name := name, description := description, rootPath := rootPath,
            allowedTools := allowedTools }
  | _, _, _ =>
      .error ⟨validateText "name" name ++ validateText "description" description ++
        validateList "allowed_tools" allowedTools⟩

/-- An entry of the skills directory, and the text of its `SKILL.md` where it has one. -/
structure DirectoryEntry where
  path : String
  isDir : Bool
  skillFile : Option String

/-- A file as it is read in text mode. -/
def readText (content : String) : String := String.ofList (universalNewlines content.toList)

def frontmatterOf (content : String) : OrderedDict String FrontmatterValue :=
  (parseFrontmatter (readText content)).1

/-- The body of the loop over the directory. -/
def listEntry (entry : DirectoryEntry) : Except ValidationError (Option SkillMetadata) :=
  if entry.isDir then
    match entry.skillFile with
    | none => .ok none
    | some content =>
        let frontmatter := frontmatterOf content
        match frontmatter.get? "name", frontmatter.get? "description" with
        | some name, some description =>
            (buildMetadata entry.path name description
              ((frontmatter.get? "allowed_tools").getD (.list []))).map some
        | _, _ => .ok none
  else .ok none

def discoverStep (catalog : List SkillMetadata) (entry : DirectoryEntry) :
    Except ValidationError (List SkillMetadata) := do
  match ← listEntry entry with
  | some skill => return catalog ++ [skill]
  | none => return catalog

/-- A root that does not exist has no skills. -/
def discoverCatalog (root : Option (List DirectoryEntry)) :
    Except ValidationError (List SkillMetadata) :=
  match root with
  | none => .ok []
  | some entries => entries.foldlM discoverStep []

/-- The body of a skill, read again from its folder. -/
def loadFullSkill {ReadError : Type} (read : String → Except ReadError String)
    (skill : SkillMetadata) : Except ReadError ActivatedSkill := do
  let content ← read (skill.rootPath ++ "/SKILL.md")
  return { name := skill.name, metadata := skill,
           fullInstructions := strip (parseFrontmatter (readText content)).2 }

end SkillLoader

end DurableAgent.Skills
