import DurableAgent.Skills.Loader

/-!
# What a directory lists

Folders are listed one by one, each by its own text. A value of the wrong type ends the
listing of all of them.
-/

set_option autoImplicit false

namespace DurableAgent.Skills

open Library Python

def FrontmatterValue.isText : FrontmatterValue → Bool
  | .text _ => true
  | .list _ => false

namespace SkillLoader

/-- Only brackets around the cleaned value make a list. -/
theorem parseValue_isText_iff (value : String) :
    (parseValue value).isText = false ↔
      ∃ inner, (cleaned value).toList = '[' :: (inner ++ [']']) := by
  unfold parseValue
  split
  · next rest starts =>
      split
      · next closed =>
          obtain ⟨inner, rfl⟩ := List.getLast?_eq_some_iff.mp closed
          exact ⟨fun _ => ⟨inner, starts⟩, fun _ => rfl⟩
      · next unclosed =>
          refine ⟨fun isList => (by cases isList), ?_⟩
          rintro ⟨inner, same⟩
          rw [starts, List.cons.injEq] at same
          exact absurd (by rw [same.2, List.getLast?_concat]) unclosed
  · next other =>
      refine ⟨fun isList => (by cases isList), ?_⟩
      rintro ⟨inner, same⟩
      exact absurd same (other _)

/-! ## One folder -/

/-- The metadata that a frontmatter gives in the right form. -/
def wellFormed (path : String) (frontmatter : OrderedDict String FrontmatterValue) :
    Option SkillMetadata :=
  match frontmatter.get? "name", frontmatter.get? "description",
    (frontmatter.get? "allowed_tools").getD (.list []) with
  | some (.text name), some (.text description), .list allowedTools =>
      some { name := name, description := description, rootPath := path,
             allowedTools := allowedTools }
  | _, _, _ => none

/-- What the text of a folder alone says about its skill. -/
def ownMetadata (entry : DirectoryEntry) : Option SkillMetadata :=
  if entry.isDir then
    entry.skillFile.bind fun content => wellFormed entry.path (frontmatterOf content)
  else none

/-- A name and a description, of which one is a list, or tools that are a text. -/
def Misshapen (frontmatter : OrderedDict String FrontmatterValue) : Prop :=
  ∃ name description, frontmatter.get? "name" = some name ∧
    frontmatter.get? "description" = some description ∧
    (name.isText = false ∨ description.isText = false ∨
      ((frontmatter.get? "allowed_tools").any FrontmatterValue.isText) = true)

/-- A folder whose file is misshapen. -/
def Spoils (entry : DirectoryEntry) : Prop :=
  entry.isDir = true ∧ ∃ content, entry.skillFile = some content ∧
    Misshapen (frontmatterOf content)

section Entries

variable {frontmatter : OrderedDict String FrontmatterValue}
  {name description : FrontmatterValue}

theorem misshapen_iff (named : frontmatter.get? "name" = some name)
    (described : frontmatter.get? "description" = some description) :
    Misshapen frontmatter ↔ name.isText = false ∨ description.isText = false ∨
      ((frontmatter.get? "allowed_tools").getD (.list [])).isText = true := by
  have tools : (frontmatter.get? "allowed_tools").any FrontmatterValue.isText =
      ((frontmatter.get? "allowed_tools").getD (.list [])).isText := by
    cases frontmatter.get? "allowed_tools" with
    | none => rfl
    | some value => rfl
  simp [Misshapen, named, described, tools]

/-- The validation accepts what is well formed and names the fields of what is not. -/
theorem buildMetadata_cases (path : String) (named : frontmatter.get? "name" = some name)
    (described : frontmatter.get? "description" = some description) :
    ¬ Misshapen frontmatter ∧ (∃ skill, wellFormed path frontmatter = some skill ∧
        buildMetadata path name description
          ((frontmatter.get? "allowed_tools").getD (.list [])) = .ok skill) ∨
      Misshapen frontmatter ∧ ∃ error, buildMetadata path name description
        ((frontmatter.get? "allowed_tools").getD (.list [])) = .error error ∧
          error.fields ≠ [] := by
  rw [misshapen_iff named described, wellFormed, named, described]
  generalize (frontmatter.get? "allowed_tools").getD (.list []) = allowedTools
  cases name with
  | list items => exact .inr ⟨.inl rfl, _, rfl, by simp [validateText]⟩
  | text name =>
      cases description with
      | list items => exact .inr ⟨.inr (.inl rfl), _, rfl, by simp [validateText]⟩
      | text description =>
          cases allowedTools with
          | text tools => exact .inr ⟨.inr (.inr rfl), _, rfl, by simp [validateList]⟩
          | list tools => exact .inl ⟨by simp [FrontmatterValue.isText], _, rfl, rfl⟩

/-- A folder is listed by its own text, or it raises. -/
theorem listEntry_cases (entry : DirectoryEntry) :
    ¬ Spoils entry ∧ listEntry entry = .ok (ownMetadata entry) ∨
      Spoils entry ∧ ∃ error, listEntry entry = .error error ∧ error.fields ≠ [] := by
  unfold listEntry ownMetadata Spoils
  cases kind : entry.isDir with
  | false => simp
  | true =>
      cases file : entry.skillFile with
      | none => simp
      | some content =>
          simp only [if_true, Option.bind_some, true_and, Option.some.injEq, exists_eq_left']
          generalize frontmatterOf content = frontmatter
          cases named : frontmatter.get? "name" with
          | none => simp [Misshapen, wellFormed, named]
          | some name =>
              cases described : frontmatter.get? "description" with
              | none => simp [Misshapen, wellFormed, described]
              | some description =>
                  rcases buildMetadata_cases entry.path named described with
                    ⟨shaped, skill, own, built⟩ | ⟨misshapen, error, failed, fields⟩
                  · exact .inl ⟨shaped, by simp [built, own, Except.map]⟩
                  · exact .inr ⟨misshapen, error, by simp [failed, Except.map], fields⟩

theorem own_of_listed {entry : DirectoryEntry} {outcome : Option SkillMetadata}
    (listed : listEntry entry = .ok outcome) :
    ¬ Spoils entry ∧ ownMetadata entry = outcome := by
  rcases listEntry_cases entry with ⟨shaped, own⟩ | ⟨_, error, failed, _⟩
  · exact ⟨shaped, Except.ok.inj (own.symm.trans listed)⟩
  · rw [listed] at failed
    cases failed

theorem listEntry_of_shaped {entry : DirectoryEntry} (shaped : ¬ Spoils entry) :
    listEntry entry = .ok (ownMetadata entry) := by
  rcases listEntry_cases entry with ⟨_, listed⟩ | ⟨spoils, _⟩
  · exact listed
  · exact absurd spoils shaped

end Entries

/-! ## The directory -/

theorem discoverCatalog_eq (entries : List DirectoryEntry) :
    discoverCatalog (some entries) =
      (entries.mapM listEntry).map fun outcomes => outcomes.flatMap Option.toList := by
  have steps : discoverStep = fun catalog entry => do
      return catalog ++ (← listEntry entry).toList := by
    funext catalog entry
    rw [discoverStep]
    cases listEntry entry with
    | error error => rfl
    | ok outcome =>
        cases outcome with
        | none => exact congrArg Except.ok (List.append_nil catalog).symm
        | some skill => rfl
  have collected (catalog : List SkillMetadata) (outcomes : List (Option SkillMetadata)) :
      outcomes.foldl (fun catalog outcome => catalog ++ outcome.toList) catalog =
        catalog ++ outcomes.flatMap Option.toList := by
    induction outcomes generalizing catalog with
    | nil => simp
    | cons outcome rest ih => simp [ih]
  simp only [discoverCatalog, steps]
  rw [foldlM_eq_mapM listEntry fun catalog outcome => catalog ++ outcome.toList]
  simp [collected]

theorem shaped_of_discovered {entries : List DirectoryEntry} {catalog : List SkillMetadata}
    (discovered : discoverCatalog (some entries) = .ok catalog) :
    ∀ entry ∈ entries, ¬ Spoils entry := by
  intro entry member spoils
  rw [discoverCatalog_eq] at discovered
  cases outcomes : entries.mapM listEntry with
  | error error =>
      rw [outcomes] at discovered
      cases discovered
  | ok results =>
      obtain ⟨result, listed⟩ := step_ok_of_mapM_ok outcomes member
      exact (own_of_listed listed).1 spoils

theorem discovered_of_shaped {entries : List DirectoryEntry}
    (shaped : ∀ entry ∈ entries, ¬ Spoils entry) :
    discoverCatalog (some entries) = .ok (entries.filterMap ownMetadata) := by
  rw [discoverCatalog_eq, mapM_ok fun entry member => listEntry_of_shaped (shaped entry member)]
  simp [Except.map, List.flatMap_map, List.filterMap_eq_flatMap_toList]

/-- Every folder is listed by its own text, in the order of the directory. -/
def ListsEachFolder (root : Option (List DirectoryEntry)) : Prop :=
  discoverCatalog root = .ok ((root.getD []).filterMap ownMetadata)

/-- No folder is hidden by another one if and only if no folder is misshapen. -/
theorem listsEachFolder_iff (root : Option (List DirectoryEntry)) :
    ListsEachFolder root ↔ ∀ entry ∈ root.getD [], ¬ Spoils entry := by
  cases root with
  | none => simp [ListsEachFolder, discoverCatalog]
  | some entries => exact ⟨shaped_of_discovered, discovered_of_shaped⟩

/-- The first folder that raises decides, whatever the folders behind it are. -/
theorem discoverCatalog_error {before behind : List DirectoryEntry} {entry : DirectoryEntry}
    {error : ValidationError} (shaped : ∀ other ∈ before, ¬ Spoils other)
    (failed : listEntry entry = .error error) :
    discoverCatalog (some (before ++ entry :: behind)) = .error error := by
  rw [discoverCatalog_eq, List.mapM_append,
    mapM_ok fun other member => listEntry_of_shaped (shaped other member), List.mapM_cons, failed]
  rfl

/-- Folders that are listed one by one are listed together. -/
theorem discoverCatalog_of_listed {listings : List (DirectoryEntry × SkillMetadata)}
    (listed : ∀ listing ∈ listings, listEntry listing.1 = .ok (some listing.2)) :
    discoverCatalog (some (listings.map Prod.fst)) = .ok (listings.map Prod.snd) := by
  have own : (listings.map Prod.fst).filterMap ownMetadata = listings.map Prod.snd := by
    rw [List.filterMap_map, ← List.filterMap_eq_map]
    exact List.filterMap_congr fun listing member => (own_of_listed (listed listing member)).2
  rw [discovered_of_shaped, own]
  intro entry member
  obtain ⟨listing, among, rfl⟩ := List.mem_map.mp member
  exact (own_of_listed (listed listing among)).1

/-! ## The bodies -/

/-- The text of a `SKILL.md` of the directory; any other path cannot be read. -/
def readFrom (entries : List DirectoryEntry) (path : String) : Except String String :=
  match entries.find? fun entry => decide (entry.path ++ "/SKILL.md" = path) with
  | none => .error path
  | some entry =>
      match entry.skillFile with
      | none => .error path
      | some content => .ok content

theorem ownMetadata_some {entry : DirectoryEntry} {skill : SkillMetadata}
    (own : ownMetadata entry = some skill) :
    skill.rootPath = entry.path ∧ ∃ content, entry.skillFile = some content := by
  unfold ownMetadata at own
  split at own
  · obtain ⟨content, file, formed⟩ := Option.bind_eq_some_iff.mp own
    refine ⟨?_, content, file⟩
    unfold wellFormed at formed
    split at formed
    · cases formed
      rfl
    · cases formed
  · cases own

/-- Every listed skill is loaded from the folder that lists it. -/
theorem loadFullSkill_listed {entries : List DirectoryEntry}
    (distinct : (entries.map DirectoryEntry.path).Nodup) {entry : DirectoryEntry}
    (member : entry ∈ entries) {skill : SkillMetadata} (own : ownMetadata entry = some skill) :
    ∃ content, entry.skillFile = some content ∧
      loadFullSkill (readFrom entries) skill =
        .ok { name := skill.name, metadata := skill,
              fullInstructions := strip (parseFrontmatter (readText content)).2 } := by
  obtain ⟨path, content, file⟩ := ownMetadata_some own
  refine ⟨content, file, ?_⟩
  have found : entries.find? (fun other =>
      decide (other.path ++ "/SKILL.md" = skill.rootPath ++ "/SKILL.md")) = some entry := by
    cases search : entries.find? (fun other =>
        decide (other.path ++ "/SKILL.md" = skill.rootPath ++ "/SKILL.md")) with
    | none =>
        have missed := List.find?_eq_none.mp search entry member
        rw [path] at missed
        exact absurd (decide_eq_true rfl) missed
    | some other =>
        have joined := List.find?_some search
        rw [decide_eq_true_iff, String.append_left_inj] at joined
        have same : other.path = entry.path := joined.trans path
        rw [List.inj_on_of_nodup_map distinct (List.mem_of_find?_eq_some search) member same]
  have text : readFrom entries (skill.rootPath ++ "/SKILL.md") = .ok content := by
    rw [readFrom, found]
    simp only [file]
  rw [loadFullSkill, text]
  rfl

private def backtestFolder : DirectoryEntry where
  path := "skills/backtest"
  isDir := true
  skillFile := some "---\nname: backtest\ndescription: Splits.\n---\n"

/-- The tools of this folder are not in brackets. -/
private def nowcastFolder : DirectoryEntry where
  path := "skills/nowcast"
  isDir := true
  skillFile := some "---\nname: nowcast\ndescription: Output.\nallowed_tools: run\n---\n"

private def backtestSkill : SkillMetadata :=
  { name := "backtest", description := "Splits.", rootPath := "skills/backtest",
    allowedTools := [] }

/-- A folder that is listed alone is not listed beside a misshapen one. -/
theorem nowcast_hides_backtest :
    discoverCatalog (some [backtestFolder]) = .ok [backtestSkill] ∧
      discoverCatalog (some [backtestFolder, nowcastFolder]) = .error ⟨["allowed_tools"]⟩ ∧
      ¬ ListsEachFolder (some [backtestFolder, nowcastFolder]) := by
  have listed : listEntry backtestFolder = .ok (some backtestSkill) := by decide +kernel
  have rejected : listEntry nowcastFolder = .error ⟨["allowed_tools"]⟩ := by decide +kernel
  have alone : ∀ listing ∈ [(backtestFolder, backtestSkill)],
      listEntry listing.1 = .ok (some listing.2) := by simpa using listed
  have hidden : discoverCatalog (some ([backtestFolder] ++ nowcastFolder :: [])) =
      .error ⟨["allowed_tools"]⟩ :=
    discoverCatalog_error (by simpa using (own_of_listed listed).1) rejected
  refine ⟨discoverCatalog_of_listed alone, hidden, fun shown => ?_⟩
  cases hidden.symm.trans shown

end SkillLoader

end DurableAgent.Skills
