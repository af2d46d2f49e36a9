import DurableAgent.Skills.Selector
import Mathlib.Analysis.SpecialFunctions.Log.Basic

/-!
# What a query matches

The index text of a skill has words of its own besides those of the skill, and a query
with one of them selects a skill that it has nothing in common with.
-/

set_option autoImplicit false

namespace DurableAgent.Skills

open Library OrderedDict Python Retrieval SimpleTokenizer

namespace SkillSelector

/-! ## Tokens of the index text -/

section Tokens

variable (data : UnicodeData)

/-- The words of the template that every index text is made from. -/
def labels : List String := ["skill", "description", "keywords"]

/-- The tokens of the name, the description and the tools. -/
def skillTokens (skill : SkillMetadata) : List String :=
  tokenize data skill.name ++ tokenize data skill.description ++
    skill.allowedTools.flatMap (tokenize data)

theorem indexText_eq (skill : SkillMetadata) :
    indexText skill =
      "Skill:" ++ " " ++ (skill.name ++ ".") ++ " " ++ "Description:" ++ " " ++
        (skill.description ++ ".") ++ " " ++ "Keywords:" ++ " " ++
          joinOn ' ' skill.allowedTools := by
  rw [← String.toList_inj]
  simp [indexText]

theorem tokenize_indexText (skill : SkillMetadata) :
    tokenize data (indexText skill) =
      ["skill"] ++ tokenize data skill.name ++ ["description"] ++
        tokenize data skill.description ++ ["keywords"] ++
          skill.allowedTools.flatMap (tokenize data) := by
  have skillLabel : tokenize data "Skill:" = ["skill"] :=
    (tokenize_ascii data (by decide) .ascii).trans (by decide)
  have descriptionLabel : tokenize data "Description:" = ["description"] :=
    (tokenize_ascii data (by decide) .ascii).trans (by decide)
  have keywordsLabel : tokenize data "Keywords:" = ["keywords"] :=
    (tokenize_ascii data (by decide) .ascii).trans (by decide)
  simp only [indexText_eq, tokenize_space, tokenize_point, tokenize_joinOn, skillLabel,
    descriptionLabel, keywordsLabel]

theorem mem_tokensOf_skillChunk {skill : SkillMetadata} {token : String} :
    token ∈ tokensOf data (skillChunk skill) ↔
      token ∈ labels ∨ token ∈ skillTokens data skill := by
  have text : tokensOf data (skillChunk skill) = tokenize data (indexText skill) := rfl
  rw [text, tokenize_indexText]
  simp only [labels, skillTokens, List.mem_append, List.mem_cons, List.not_mem_nil, or_false]
  grind

theorem holders_skillChunks_iff {catalog : List SkillMetadata} {token : String} :
    holders data token (catalog.map skillChunk) = ∅ ↔
      ∀ skill ∈ catalog, token ∉ labels ∧ token ∉ skillTokens data skill := by
  rw [FilledSet.eq_empty_iff]
  constructor
  · intro unheld skill member
    rw [← not_or, ← mem_tokensOf_skillChunk data]
    exact fun contains => unheld _ (mem_holders.mpr
      ⟨skillChunk skill, List.mem_map_of_mem member, contains, rfl⟩)
  · intro absent chunkId held
    obtain ⟨chunk, among, contains, _⟩ := mem_holders.mp held
    obtain ⟨skill, member, rfl⟩ := List.mem_map.mp among
    exact not_or.mpr (absent skill member) ((mem_tokensOf_skillChunk data).mp contains)

end Tokens

/-! ## The choice -/

section Choice

variable {R : Type} {bm25Hits vectorHits : List (RetrievalHit R)}

theorem map_fst_votes (hits : List (RetrievalHit R)) :
    (votes hits).map Prod.fst = hits.map fun hit => skillNameOf hit.chunkId := by
  rw [votes, List.map_map, ← map_numbered (fun hit => skillNameOf hit.chunkId) 1 hits]
  rfl

theorem keys_rrfScores :
    (rrfScores bm25Hits vectorHits).keys =
      ((bm25Hits ++ vectorHits).map fun hit => skillNameOf hit.chunkId).eraseDups := by
  rw [rrfScores, addAll_append, keys_addAll, keys_empty, List.nil_append, List.map_append, map_fst_votes,
    map_fst_votes, List.map_append]

/-- The best name is one of a hit. -/
theorem bestSkillName_total (nonempty : bm25Hits ≠ []) :
    ∃ name, bestSkillName (rrfScores bm25Hits vectorHits) = some name ∧
      ∃ hit ∈ bm25Hits ++ vectorHits, skillNameOf hit.chunkId = name := by
  cases best : (rrfScores bm25Hits vectorHits).entries.argmax Prod.snd with
  | none =>
      obtain ⟨hit, rest, rfl⟩ := List.exists_cons_of_ne_nil nonempty
      have voted : skillNameOf hit.chunkId ∈ (rrfScores (hit :: rest) vectorHits).keys := by
        rw [keys_rrfScores]
        simp
      rw [keys, List.argmax_eq_none.mp best] at voted
      cases voted
  | some entry =>
      have voted : entry.1 ∈ (rrfScores bm25Hits vectorHits).keys :=
        List.mem_map_of_mem (List.argmax_mem best)
      rw [keys_rrfScores, List.mem_eraseDups] at voted
      refine ⟨entry.1, ?_, List.mem_map.mp voted⟩
      rw [bestSkillName, best, Option.map_some]

theorem skillNameOf_skillChunk (skill : SkillMetadata) :
    skillNameOf (skillChunk skill).chunkId = skill.name := removeFirst_append _ _

variable [Arithmetic R] [LinearOrder R] (host : SkillHost R) {catalog : List SkillMetadata}

theorem buildSkillIndices_kept (selector : SkillSelector R) :
    (buildSkillIndices host selector).catalog = selector.catalog ∧
      (buildSkillIndices host selector).skillByName = selector.skillByName := by
  unfold buildSkillIndices
  dsimp only
  split
  · exact ⟨rfl, rfl⟩
  · exact ⟨rfl, rfl⟩

theorem init_catalog : (init host catalog).catalog = catalog :=
  (buildSkillIndices_kept host _).1

theorem init_skillByName :
    (init host catalog).skillByName = .ofPairs (catalog.map fun skill => (skill.name, skill)) :=
  (buildSkillIndices_kept host _).2

theorem init_indices (nonempty : catalog ≠ []) :
    (init host catalog).bm25 = (BM25Retriever.init 1.5 0.75).fit host.unicode host.log
        (catalog.map skillChunk) ∧
      (init host catalog).vectorIndex = VectorIndex.init.addChunks host.getEmbedding host.sqrt
        (catalog.map skillChunk) := by
  have chunks : (catalog.map skillChunk).isEmpty = false := by
    simpa using nonempty
  unfold init buildSkillIndices
  simp [chunks]

/-- The skill of a hit is in the catalog. -/
theorem skillByName_of_hit {chunkId : String}
    (hit : chunkId ∈ (catalog.map skillChunk).map Chunk.chunkId) :
    ∃ skill ∈ catalog, (init host catalog).skillByName.get? (skillNameOf chunkId) = some skill := by
  obtain ⟨chunk, among, rfl⟩ := List.mem_map.mp hit
  obtain ⟨skill, member, rfl⟩ := List.mem_map.mp among
  rw [skillNameOf_skillChunk, init_skillByName, ofPairs, get?_insertAll, get?_empty, Option.or_none]
  have named : skill.name ∈ (catalog.map fun skill => (skill.name, skill)).map Prod.fst := by
    rw [List.map_map]
    exact List.mem_map_of_mem member
  obtain ⟨last, found⟩ := Option.isSome_iff_exists.mp (lastValue_isSome_iff.mpr named)
  obtain ⟨stored, within, same⟩ := List.mem_map.mp (mem_of_lastValue found)
  obtain ⟨_, rfl⟩ := Prod.mk.inj same
  exact ⟨stored, within, found⟩

end Choice

section Total

variable {R : Type} [Field R] [LinearOrder R] [FloorRing R] [IsStrictOrderedRing R]
  (host : SkillHost R) {LoadError : Type}

/-- A choice always ends, and with none exactly where nothing matches. -/
theorem choose_total (catalog : List SkillMetadata) (query : String) :
    ∃ choice : Option SkillMetadata,
      choose host (init host catalog) query = (.ok choice : Except (SelectionError LoadError) _) ∧
      (∀ skill, choice = some skill → skill ∈ catalog) ∧
      (choice = none ↔ catalog = [] ∨ namedSkill host catalog query = none ∧
        ∀ token ∈ tokenize host.unicode query,
          holders host.unicode token (catalog.map skillChunk) = ∅) := by
  by_cases empty : catalog = []
  · refine ⟨none, ?_, by simp, by simp [empty]⟩
    simp [choose, init_catalog, empty]
  · cases named : namedSkill host catalog query with
    | some skill =>
        refine ⟨some skill, ?_, ?_, by simp [empty]⟩
        · simp [choose, init_catalog, empty, named]
        · rintro other ⟨⟩
          exact List.mem_of_find?_eq_some named
    | none =>
        obtain ⟨bm25, vectorIndex⟩ := init_indices host empty
        obtain ⟨bm25Hits, searched, within, unmatched⟩ :=
          BM25Retriever.search_total host.unicode host.log (catalog.map skillChunk)
            (show (0 : R) < 1.5 by norm_num) (show (0 : R) ≤ 0.75 by norm_num)
            (show (0.75 : R) < 1 by norm_num) host.setOrder query Nat.two_pos
        rw [← bm25, Nat.cast_ofNat] at searched
        cases bm25Hits with
        | nil =>
            refine ⟨none, ?_, by simp, by simpa [empty] using unmatched⟩
            simp [choose, init_catalog, empty, named, searched]
        | cons first rest =>
            obtain ⟨vectorHits, found, stored⟩ := VectorIndex.search_total host.getEmbedding
              host.sqrt (init host catalog).vectorIndex query 2
            have nonempty : first :: rest ≠ [] := List.cons_ne_nil first rest
            obtain ⟨name, best, hit, voted, rfl⟩ :
              ∃ name, bestSkillName (rrfScores (first :: rest) vectorHits) = some name ∧ _ :=
              bestSkillName_total nonempty
            have known : hit.chunkId ∈ (catalog.map skillChunk).map Chunk.chunkId := by
              rcases List.mem_append.mp voted with keyword | vector
              · exact within hit keyword
              · have among := stored hit vector
                rwa [vectorIndex, VectorIndex.mem_keys_addChunks] at among
            obtain ⟨skill, member, looked⟩ := skillByName_of_hit host known
            refine ⟨some skill, ?_, ?_, by simpa [empty] using unmatched⟩
            · simp [choose, init_catalog, empty, named, searched, found, best, looked]
            · rintro other ⟨⟩
              exact member

end Total

/-! ## Queries without a common token -/

section Unmatched

variable {R : Type} [Field R] [LinearOrder R] [FloorRing R] [IsStrictOrderedRing R]
  (host : SkillHost R) {LoadError : Type}
  (loadFullSkill : SkillMetadata → Except LoadError ActivatedSkill)

/-- Nothing is returned and no body is loaded. -/
def SelectsNothing (catalog : List SkillMetadata) (query : String) : Prop :=
  selectAndActivate host loadFullSkill (init host catalog) query = ⟨.ok none, []⟩

theorem selectsNothing_iff (catalog : List SkillMetadata) (query : String) :
    SelectsNothing host loadFullSkill catalog query ↔
      catalog = [] ∨ namedSkill host catalog query = none ∧
        ∀ token ∈ tokenize host.unicode query,
          holders host.unicode token (catalog.map skillChunk) = ∅ := by
  obtain ⟨choice, chosen, _, nothing⟩ :
    ∃ choice : Option SkillMetadata, choose host (init host catalog) query =
      (.ok choice : Except (SelectionError LoadError) _) ∧ _ := choose_total host catalog query
  rw [SelectsNothing, selectAndActivate, chosen, ← nothing]
  cases choice with
  | none => simp
  | some skill => simp

omit [Field R] [LinearOrder R] [FloorRing R] [IsStrictOrderedRing R] in
theorem namedSkill_eq_none_iff {catalog : List SkillMetadata} {query : String} :
    namedSkill host catalog query = none ↔ ∀ skill ∈ catalog,
      occursIn (host.unicode.lower skill.name) (host.unicode.lower query) = false := by
  simp [namedSkill, List.find?_eq_none]

/-- A query that has no token of a skill selects nothing if and only if it has no name of a
skill and no label of the index texts, or there are no skills. -/
theorem unmatched_selectsNothing_iff {catalog : List SkillMetadata} {query : String}
    (unshared : ∀ token ∈ tokenize host.unicode query, ∀ skill ∈ catalog,
      token ∉ skillTokens host.unicode skill) :
    SelectsNothing host loadFullSkill catalog query ↔
      catalog = [] ∨
        (∀ skill ∈ catalog,
          occursIn (host.unicode.lower skill.name) (host.unicode.lower query) = false) ∧
        ∀ label ∈ labels, label ∉ tokenize host.unicode query := by
  rw [selectsNothing_iff, namedSkill_eq_none_iff]
  refine or_congr_right' fun nonempty => and_congr_right fun _ => ?_
  obtain ⟨skill, member⟩ := List.exists_mem_of_ne_nil catalog nonempty
  simp only [holders_skillChunks_iff]
  constructor
  · intro absent label among contained
    exact (absent label contained skill member).1 among
  · intro unlabelled token among other within
    exact ⟨fun label => unlabelled token label among, unshared token among other within⟩

end Unmatched

private def nowcasting : SkillMetadata :=
  { name := "nowcasting", description := "Forecast current output.",
    rootPath := "skills/nowcasting", allowedTools := ["run_approved_script"] }

/-- The provider has this vector for texts about forecasts and training. -/
private noncomputable def forecastHost : SkillHost ℝ :=
  { unicode := .ascii, setOrder := .leading "skill_chunk_nowcasting", log := Real.log,
    sqrt := Real.sqrt, getEmbedding := fun _ => [0.9, 0.1, 0, 0] }

private def loadBody (skill : SkillMetadata) : Except String ActivatedSkill :=
  .ok { name := skill.name, metadata := skill, fullInstructions := "Collect the indicators." }

private theorem nowcasting_tokens : skillTokens .ascii nowcasting =
    ["nowcasting", "forecast", "current", "output", "run_approved_script"] := by
  decide +kernel

private theorem ticket_tokens : tokenize .ascii "Summarize this training ticket." =
    ["summarize", "this", "training", "ticket"] := by
  decide +kernel

private theorem question_tokens : tokenize .ascii "Which skill needs training?" =
    ["which", "skill", "needs", "training"] := by
  decide +kernel

private theorem forecastHost_unicode : forecastHost.unicode = .ascii := rfl

theorem ticket_selects_nothing :
    SelectsNothing forecastHost loadBody [nowcasting] "Summarize this training ticket." := by
  refine (unmatched_selectsNothing_iff forecastHost loadBody ?_).mpr (.inr ⟨?_, ?_⟩)
  · rw [forecastHost_unicode, ticket_tokens]
    simp only [List.mem_singleton, forall_eq, nowcasting_tokens]
    decide
  · rw [forecastHost_unicode]
    decide +kernel
  · rw [forecastHost_unicode, ticket_tokens]
    decide

/-- A word that only a label has loads the body of a skill. -/
theorem question_loads_body :
    (∀ token ∈ tokenize .ascii "Which skill needs training?",
        token ∉ skillTokens .ascii nowcasting) ∧
      occursIn (UnicodeData.ascii.lower "nowcasting")
        (UnicodeData.ascii.lower "Which skill needs training?") = false ∧
      selectAndActivate forecastHost loadBody (init forecastHost [nowcasting])
          "Which skill needs training?" =
        ⟨.ok (some { name := "nowcasting", metadata := nowcasting,
                     fullInstructions := "Collect the indicators." }), [nowcasting]⟩ := by
  refine ⟨?_, by decide +kernel, ?_⟩
  · rw [question_tokens, nowcasting_tokens]
    decide
  obtain ⟨choice, chosen, fromCatalog, nothing⟩ :
    ∃ choice : Option SkillMetadata, choose forecastHost (init forecastHost [nowcasting])
      "Which skill needs training?" = (.ok choice : Except (SelectionError String) _) ∧ _ :=
    choose_total forecastHost [nowcasting] "Which skill needs training?"
  rw [forecastHost_unicode] at nothing
  cases choice with
  | none =>
      rcases nothing.mp rfl with empty | ⟨_, unmatched⟩
      · cases empty
      · have queried : "skill" ∈ tokenize .ascii "Which skill needs training?" := by
          simp [question_tokens]
        have unheld := holders_skillChunks_iff .ascii |>.mp (unmatched "skill" queried)
        have label : "skill" ∈ labels := List.mem_cons_self
        exact absurd label (unheld nowcasting (List.mem_singleton_self nowcasting)).1
  | some skill =>
      have only : skill = nowcasting := List.mem_singleton.mp (fromCatalog skill rfl)
      rw [selectAndActivate, chosen, only]
      rfl

end SkillSelector

end DurableAgent.Skills
