import DurableAgent.Retrieval.Fusion
import DurableAgent.Retrieval.SetOrders
import DurableAgent.Skills.Matching

/-!
# The winner of two hits

With two hits on each side the vote has a closed form: the first keyword hit wins, unless the
second one is the only one of the two that is also similar.
-/

set_option autoImplicit false

namespace DurableAgent.Skills

open Library OrderedDict Python Retrieval SimpleTokenizer BM25Retriever

namespace SkillSelector

/-! ## The vote -/

section Vote

variable {R : Type} {bm25Hits vectorHits hits : List (RetrievalHit R)}

/-- The skills of hits by their names. -/
def namesOf (hits : List (RetrievalHit R)) : List String :=
  hits.map fun hit => skillNameOf hit.chunkId

def share (names : List String) (name : String) : ℚ :=
  ReciprocalRankFusion.evidence 60 names name

theorem total_votes (distinct : (namesOf hits).Nodup) (name : String) :
    total name (votes hits) = share (namesOf hits) name := by
  rw [share, ← ReciprocalRankFusion.total_evidence distinct, namesOf, List.zipIdx_map,
    List.map_map]
  rfl

section Shares

variable {names : List String} {first second name : String}

theorem share_nonneg (names : List String) (name : String) : 0 ≤ share names name :=
  ReciprocalRankFusion.evidence_nonneg _ _

theorem share_le (names : List String) (name : String) : share names name ≤ 1 / 61 :=
  (ReciprocalRankFusion.evidence_le _ _).trans (by norm_num)

theorem share_absent (absent : name ∉ names) : share names name = 0 := if_neg absent

theorem share_first (rest : List String) : share (first :: rest) first = 1 / 61 := by
  rw [share, ReciprocalRankFusion.evidence, if_pos List.mem_cons_self, List.idxOf_cons_self]
  norm_num

theorem share_second (differ : first ≠ second) (rest : List String) :
    share (first :: second :: rest) second = 1 / 62 := by
  have among : second ∈ first :: second :: rest := List.mem_cons_of_mem first List.mem_cons_self
  rw [share, ReciprocalRankFusion.evidence, if_pos among, List.idxOf_cons_ne _ differ,
    List.idxOf_cons_self]
  norm_num

/-- With two ranks a hit has at least the second. -/
theorem share_ge (few : names.length ≤ 2) (member : name ∈ names) : 1 / 62 ≤ share names name := by
  have place : names.idxOf name + 1 ≤ 2 := by
    have inside := List.idxOf_lt_length_iff.mpr member
    omega
  rw [share, ReciprocalRankFusion.evidence, if_pos member]
  refine one_div_le_one_div_of_le (by positivity) ?_
  have cast : ((names.idxOf name + 1 : Nat) : ℚ) ≤ 2 := by exact_mod_cast place
  calc ((60 : Nat) : ℚ) + (names.idxOf name + 1 : Nat) ≤ (60 : Nat) + 2 := by gcongr
    _ = 62 := by norm_num

variable {rest others : List String}

/-- The first name is not outvoted if a later one is similar only together with it. -/
theorem first_wins (distinct : (first :: rest).Nodup) (few : (first :: rest).length ≤ 2)
    (fewOthers : others.length ≤ 2) (yields : ∀ second ∈ rest, second ∈ others → first ∈ others)
    (name : String) :
    share (first :: rest) name + share others name ≤
      share (first :: rest) first + share others first := by
  have leading : share (first :: rest) first = 1 / 61 := share_first rest
  have added := share_nonneg others first
  by_cases same : name = first
  · rw [same]
  by_cases later : name ∈ rest
  · obtain ⟨second, rfl⟩ : ∃ second, rest = [second] := by
      refine List.length_eq_one_iff.mp ?_
      have some := List.length_pos_of_mem later
      rw [List.length_cons] at few
      omega
    obtain rfl : name = second := List.mem_singleton.mp later
    have behind := share_second (Ne.symm same) []
    by_cases among : name ∈ others
    · have both := share_ge fewOthers (yields name later among)
      have limit := share_le others name
      linarith
    · have nothing := share_absent among
      linarith
  · have foreign : name ∉ first :: rest := fun member =>
      (List.mem_cons.mp member).elim same later
    have nothing := share_absent foreign
    have limit := share_le others name
    linarith

/-- The second name outvotes all others if of the two it alone is similar. -/
theorem second_wins (differ : first ≠ second) (fewOthers : others.length ≤ 2)
    (among : second ∈ others) (absent : first ∉ others) {name : String} (other : name ≠ second) :
    share [first, second] name + share others name <
      share [first, second] second + share others second := by
  have leading := share_second differ []
  have added := share_ge fewOthers among
  by_cases same : name = first
  · subst same
    have own : share [name, second] name = 1 / 61 := share_first [second]
    have nothing := share_absent absent
    linarith
  · have foreign : name ∉ [first, second] := by simp [same, other]
    have nothing := share_absent foreign
    have limit := share_le others name
    linarith

end Shares

/-- The first keyword hit wins, unless only the second one is similar too. -/
def winner {α : Type} [DecidableEq α] (keyword similar : List α) : Option α :=
  match keyword with
  | [] => none
  | [first] => some first
  | first :: second :: _ =>
      some (if second ∈ similar ∧ first ∉ similar then second else first)

theorem winner_mem {α : Type} [DecidableEq α] {keyword similar : List α} {best : α}
    (won : winner keyword similar = some best) : best ∈ keyword.take 2 := by
  match keyword with
  | [] => cases won
  | [first] =>
      cases won
      exact List.mem_cons_self
  | first :: second :: _ =>
      simp only [winner, Option.some.injEq] at won
      subst won
      split
      · exact List.mem_cons_of_mem first List.mem_cons_self
      · exact List.mem_cons_self

theorem entries_rrfScores (keyword : (namesOf bm25Hits).Nodup)
    (similar : (namesOf vectorHits).Nodup) :
    (rrfScores bm25Hits vectorHits).entries =
      (namesOf bm25Hits ++ namesOf vectorHits).eraseDups.map fun name =>
        (name, share (namesOf bm25Hits) name + share (namesOf vectorHits) name) := by
  rw [rrfScores, addAll_append, entries_addAll, List.map_append, map_fst_votes, map_fst_votes]
  simp only [total_append, total_votes keyword, total_votes similar]
  rfl

/-- What a hit of the vector index adds does not outweigh the first keyword hit. -/
theorem bestSkillName_eq_winner (keyword : (namesOf bm25Hits).Nodup)
    (similar : (namesOf vectorHits).Nodup) (few : bm25Hits.length ≤ 2)
    (fewSimilar : vectorHits.length ≤ 2) (nonempty : bm25Hits ≠ []) :
    bestSkillName (rrfScores bm25Hits vectorHits) =
      winner (namesOf bm25Hits) (namesOf vectorHits) := by
  have entries := entries_rrfScores keyword similar
  have few : (namesOf bm25Hits).length ≤ 2 := by rwa [namesOf, List.length_map]
  have fewSimilar : (namesOf vectorHits).length ≤ 2 := by rwa [namesOf, List.length_map]
  have nonempty : namesOf bm25Hits ≠ [] := by simpa [namesOf] using nonempty
  rw [bestSkillName, entries]
  generalize namesOf bm25Hits = names at keyword few nonempty
  generalize namesOf vectorHits = others at similar fewSimilar
  cases names with
  | nil => exact absurd rfl nonempty
  | cons first rest =>
      cases rest with
      | nil =>
          have head : ([first] ++ others).eraseDups = first :: _ := List.eraseDups_cons
          rw [head, List.map_cons, argmax_head]
          · rfl
          · intro entry member
            obtain ⟨name, _, rfl⟩ := List.mem_map.mp member
            exact first_wins keyword few fewSimilar (by simp) name
      | cons second rest =>
          obtain rfl : rest = [] := by simpa using few
          have differ : first ≠ second := fun same => by simp [same] at keyword
          by_cases outvoted : second ∈ others ∧ first ∉ others
          · have voted : second ∈ ([first, second] ++ others).eraseDups :=
              List.mem_eraseDups.mpr (by simp)
            rw [argmax_of_lt (List.mem_map.mpr ⟨second, voted, rfl⟩), winner, if_pos outvoted]
            · rfl
            · intro entry member other
              obtain ⟨name, _, rfl⟩ := List.mem_map.mp member
              refine second_wins differ fewSimilar outvoted.1 outvoted.2 fun same => ?_
              exact other (by rw [same])
          · have head : ([first, second] ++ others).eraseDups = first :: _ :=
              List.eraseDups_cons
            rw [head, List.map_cons, argmax_head, winner, if_neg outvoted]
            · rfl
            · intro entry member
              obtain ⟨name, _, rfl⟩ := List.mem_map.mp member
              refine first_wins keyword few fewSimilar ?_ name
              simpa [not_and] using outvoted

theorem winner_take {α : Type} [DecidableEq α] (keyword similar : List α) :
    winner (keyword.take 2) similar = winner keyword similar := by
  match keyword with
  | [] => rfl
  | [first] => rfl
  | first :: second :: _ => rfl

theorem winner_map {α β : Type} [DecidableEq α] [DecidableEq β] {f : α → β}
    {keyword similar : List α}
    (apart : ∀ item ∈ keyword, ∀ other ∈ similar, f item = f other → item = other) :
    winner (keyword.map f) (similar.map f) = (winner keyword similar).map f := by
  have among (item : α) (member : item ∈ keyword) : f item ∈ similar.map f ↔ item ∈ similar := by
    constructor
    · intro present
      obtain ⟨other, within, same⟩ := List.mem_map.mp present
      exact apart item member other within same.symm ▸ within
    · exact List.mem_map_of_mem
  match keyword, among with
  | [], _ => rfl
  | [first], _ => rfl
  | first :: second :: _, among =>
      simp only [List.map_cons, winner, among first (by simp), among second (by simp),
        Option.map_some, Option.some.injEq]
      split
      · rfl
      · rfl

end Vote

/-! ## The hits of a catalog -/

section Hits

variable {R : Type} [Arithmetic R] [LinearOrder R] (host : SkillHost R)
  {catalog : List SkillMetadata}

theorem chunkIds_nodup (distinct : (catalog.map SkillMetadata.name).Nodup) :
    ((catalog.map skillChunk).map Chunk.chunkId).Nodup := by
  refine List.Nodup.of_map skillNameOf ?_
  rw [List.map_map, List.map_map]
  exact (List.map_congr_left fun skill _ => skillNameOf_skillChunk skill) ▸ distinct

/-- Chunks of a catalog are those of a list of its skills. -/
theorem skills_of_chunks {chunks : List Chunk}
    (within : ∀ chunk ∈ chunks, chunk ∈ catalog.map skillChunk) :
    ∃ skills : List SkillMetadata, (∀ skill ∈ skills, skill ∈ catalog) ∧
      skills.map skillChunk = chunks := by
  induction chunks with
  | nil => exact ⟨[], by simp, rfl⟩
  | cons chunk rest ih =>
      obtain ⟨skill, member, made⟩ := List.mem_map.mp (within chunk List.mem_cons_self)
      obtain ⟨skills, known, others⟩ := ih fun other later =>
        within other (List.mem_cons_of_mem chunk later)
      refine ⟨skill :: skills, List.forall_mem_cons.mpr ⟨member, known⟩, ?_⟩
      rw [List.map_cons, made, others]

/-- The skills that share a token with the query, in the order of their ranks. -/
def IsKeywordRanking (catalog : List SkillMetadata) (query : String)
    (ranked : List SkillMetadata) : Prop :=
  (∀ skill ∈ ranked, skill ∈ catalog) ∧
    ranked.map skillChunk = rankedChunks host.unicode host.log 1.5 0.75 host.setOrder
      (catalog.map skillChunk) (tokenize host.unicode query)

variable {host} in
theorem IsKeywordRanking.nodup {query : String} {ranked : List SkillMetadata}
    (ranking : IsKeywordRanking host catalog query ranked) : ranked.Nodup := by
  refine List.Nodup.of_map skillChunk ?_
  rw [ranking.2]
  exact nodup_rankedChunks host.setOrder

theorem keywordRanking_exists (distinct : (catalog.map SkillMetadata.name).Nodup)
    (query : String) : ∃ ranked, IsKeywordRanking host catalog query ranked :=
  skills_of_chunks fun _ member => ((mem_rankedChunks (chunkIds_nodup distinct)).mp member).1

/-- How close the text of a skill is to the query. -/
def similarity (query : String) (skill : SkillMetadata) : R :=
  VectorIndex.dotProduct (VectorIndex.l2Normalize host.sqrt (host.getEmbedding query))
    (VectorIndex.l2Normalize host.sqrt (host.getEmbedding (indexText skill)))

/-- The skills of the vector hits. -/
def similarSkills (catalog : List SkillMetadata) (query : String) : List SkillMetadata :=
  if query = "" then [] else (rankBy (similarity host query) catalog).take 2

/-- No denominator of the keyword scores vanishes. -/
def Scorable (catalog : List SkillMetadata) (query : String) : Prop :=
  Divisible host.unicode (1.5 : R) 0.75 (catalog.map skillChunk) (catalog.map skillChunk)
    (tokenize host.unicode query)

variable [Rounding R]

theorem bm25_hits (distinct : (catalog.map SkillMetadata.name).Nodup) (nonempty : catalog ≠ [])
    {query : String} (scorable : Scorable host catalog query) {ranked : List SkillMetadata}
    (ranking : IsKeywordRanking host catalog query ranked) :
    ∃ hits, (init host catalog).bm25.search host.unicode host.setOrder query 2 = .ok hits ∧
      hits.map RetrievalHit.chunkId = (ranked.take 2).map fun skill =>
        (skillChunk skill).chunkId := by
  obtain ⟨bm25, _⟩ := init_indices host nonempty
  refine ⟨_, bm25 ▸ search_fit (chunkIds_nodup distinct) scorable host.setOrder 2, ?_⟩
  rw [← ranking.2, ← Nat.cast_ofNat, sliceTo_natCast, map_chunkId_hits, ← List.map_take,
    List.map_map]
  rfl

omit [LinearOrder R] [Rounding R] in
theorem ne_nil_of_unscorable {query : String} (unscorable : ¬ Scorable host catalog query) :
    catalog ≠ [] := by
  rintro rfl
  exact unscorable fun token _ chunkId held => absurd held (FilledSet.notMem_empty chunkId)

theorem bm25_unscorable {query : String} (unscorable : ¬ Scorable host catalog query) :
    (init host catalog).bm25.search host.unicode host.setOrder query 2 =
      .error .zeroDivisionError := by
  obtain ⟨bm25, _⟩ := init_indices host (ne_nil_of_unscorable host unscorable)
  rw [bm25]
  exact search_fresh_error unscorable host.setOrder 2

theorem vector_hits (distinct : (catalog.map SkillMetadata.name).Nodup) (nonempty : catalog ≠ [])
    (query : String) :
    ∃ hits, (init host catalog).vectorIndex.search host.getEmbedding host.sqrt query 2 =
        .ok hits ∧
      hits.map RetrievalHit.chunkId = (similarSkills host catalog query).map fun skill =>
        (skillChunk skill).chunkId := by
  obtain ⟨_, vectorIndex⟩ := init_indices host nonempty
  have entries : (init host catalog).vectorIndex.storage.entries = catalog.map fun skill =>
      ((skillChunk skill).chunkId,
        VectorIndex.l2Normalize host.sqrt (host.getEmbedding (indexText skill))) := by
    rw [vectorIndex, VectorIndex.storage_addChunks, List.map_map]
    have keyed : ((catalog.map fun skill => ((skillChunk skill).chunkId,
        VectorIndex.l2Normalize host.sqrt (host.getEmbedding (indexText skill)))).map
          Prod.fst).Nodup := by
      have ids := chunkIds_nodup distinct
      rwa [List.map_map] at ids ⊢
    exact congrArg OrderedDict.entries (ofPairs_entries ⟨_, keyed⟩)
  refine ⟨_, VectorIndex.search_eq _ _ _ query 2, ?_⟩
  rw [VectorIndex.rankedHits, entries, similarSkills]
  by_cases empty : query = ""
  · simp [empty]
  · rw [if_neg (by simp [nonempty, empty]), if_neg empty, List.map_map, List.map_map,
      rankBy_map, ← Nat.cast_ofNat, sliceTo_natCast]
    refine (map_numbered Prod.fst 1 _).trans ?_
    rw [← List.map_take, List.map_map]
    rfl

omit [Rounding R] in
theorem mem_similarSkills {query : String} {skill : SkillMetadata}
    (similar : skill ∈ similarSkills host catalog query) : skill ∈ catalog := by
  unfold similarSkills at similar
  split at similar
  · cases similar
  · exact mem_rankBy.mp (List.mem_of_mem_take similar)

omit [Rounding R] in
theorem skillByName_name (distinct : (catalog.map SkillMetadata.name).Nodup)
    {skill : SkillMetadata} (member : skill ∈ catalog) :
    (init host catalog).skillByName.get? skill.name = some skill := by
  have keyed : ((catalog.map fun skill => (skill.name, skill)).map Prod.fst).Nodup := by
    rwa [List.map_map]
  rw [init_skillByName, get?_eq_some_iff]
  have kept := ofPairs_entries ⟨_, keyed⟩
  rw [kept]
  exact List.mem_map.mpr ⟨skill, member, rfl⟩

omit [Arithmetic R] [LinearOrder R] [Rounding R] in
theorem namesOf_eq {hits : List (RetrievalHit R)} {skills : List SkillMetadata}
    (ids : hits.map RetrievalHit.chunkId = skills.map fun skill => (skillChunk skill).chunkId) :
    namesOf hits = skills.map SkillMetadata.name := by
  have names : namesOf hits = (hits.map RetrievalHit.chunkId).map skillNameOf := by
    rw [namesOf, List.map_map]
    rfl
  rw [names, ids, List.map_map]
  exact List.map_congr_left fun skill _ => skillNameOf_skillChunk skill

omit [Rounding R] in
theorem names_nodup (distinct : (catalog.map SkillMetadata.name).Nodup) {query : String}
    {ranked : List SkillMetadata} (ranking : IsKeywordRanking host catalog query ranked) :
    ((ranked.take 2).map SkillMetadata.name).Nodup ∧
      ((similarSkills host catalog query).map SkillMetadata.name).Nodup := by
  constructor
  · refine (List.Nodup.map_on ?_ ranking.nodup).sublist ((List.take_sublist 2 ranked).map _)
    exact fun first firstIn second secondIn same =>
      List.inj_on_of_nodup_map distinct (ranking.1 first firstIn) (ranking.1 second secondIn) same
  · unfold similarSkills
    split
    · exact List.nodup_nil
    · exact (((rankBy_perm _ catalog).map _).nodup_iff.mpr distinct).sublist
        ((List.take_sublist 2 _).map _)

omit [Arithmetic R] [LinearOrder R] [Rounding R] in
theorem length_of_leading {hits : List (RetrievalHit R)} {ranked : List SkillMetadata}
    (ids : hits.map RetrievalHit.chunkId = (ranked.take 2).map fun skill =>
      (skillChunk skill).chunkId) : hits.length ≤ 2 := by
  have lengths := congrArg List.length ids
  simp only [List.length_map, List.length_take] at lengths
  omega

/-- The hits of a query and the name that their votes select. -/
theorem ballot (distinct : (catalog.map SkillMetadata.name).Nodup) (nonempty : catalog ≠ [])
    {query : String} (scorable : Scorable host catalog query) {ranked : List SkillMetadata}
    (ranking : IsKeywordRanking host catalog query ranked) :
    ∃ bm25Hits vectorHits,
      (init host catalog).bm25.search host.unicode host.setOrder query 2 = .ok bm25Hits ∧
      (init host catalog).vectorIndex.search host.getEmbedding host.sqrt query 2 =
        .ok vectorHits ∧
      bm25Hits.map RetrievalHit.chunkId = (ranked.take 2).map (fun skill =>
        (skillChunk skill).chunkId) ∧
      vectorHits.map RetrievalHit.chunkId = (similarSkills host catalog query).map (fun skill =>
        (skillChunk skill).chunkId) ∧
      (bm25Hits ≠ [] → bestSkillName (rrfScores bm25Hits vectorHits) =
        (winner ranked (similarSkills host catalog query)).map SkillMetadata.name) := by
  obtain ⟨bm25Hits, searched, keyword⟩ := bm25_hits host distinct nonempty scorable ranking
  obtain ⟨vectorHits, found, similar⟩ := vector_hits host distinct nonempty query
  refine ⟨bm25Hits, vectorHits, searched, found, keyword, similar, fun matched => ?_⟩
  obtain ⟨keywordOnce, similarOnce⟩ := names_nodup host distinct ranking
  have few : bm25Hits.length ≤ 2 := length_of_leading keyword
  have fewSimilar : vectorHits.length ≤ 2 := by
    have lengths := congrArg List.length similar
    have limit : (similarSkills host catalog query).length ≤ 2 := by
      unfold similarSkills
      split
      · exact Nat.zero_le 2
      · exact List.length_take_le 2 _
    simp only [List.length_map] at lengths
    omega
  rw [← winner_take ranked, ← winner_map, ← namesOf_eq keyword, ← namesOf_eq similar]
  · refine bestSkillName_eq_winner ?_ ?_ few fewSimilar matched
    · rwa [namesOf_eq keyword]
    · rwa [namesOf_eq similar]
  · intro first firstIn second secondIn same
    exact List.inj_on_of_nodup_map distinct (ranking.1 first (List.mem_of_mem_take firstIn))
      (mem_similarSkills host secondIn) same

/-- Without a name in the query the winner of the hits is chosen. -/
theorem choose_unnamed {LoadError : Type} (distinct : (catalog.map SkillMetadata.name).Nodup)
    {query : String} (unnamed : namedSkill host catalog query = none)
    (scorable : Scorable host catalog query) {ranked : List SkillMetadata} (ranking : IsKeywordRanking host catalog query ranked) :
    choose host (init host catalog) query =
      (.ok (winner ranked (similarSkills host catalog query)) :
        Except (SelectionError LoadError) _) := by
  by_cases empty : catalog = []
  · have none : ranked = [] := List.eq_nil_iff_forall_not_mem.mpr fun skill member => by
      simpa [empty] using ranking.1 skill member
    simp [choose, init_catalog, empty, none, winner]
  obtain ⟨bm25Hits, vectorHits, searched, found, keyword, _, voted⟩ :=
    ballot host distinct empty scorable ranking
  cases bm25Hits with
  | nil =>
      have none : ranked = [] := by simpa using keyword.symm
      simp [choose, init_catalog, empty, unnamed, searched, none, winner]
  | cons first rest =>
      have some : ranked ≠ [] := by
        rintro rfl
        cases keyword
      obtain ⟨best, won⟩ : ∃ best, winner ranked (similarSkills host catalog query) = .some best := by
        cases ranked with
        | nil => exact absurd rfl some
        | cons only others =>
            cases others with
            | nil => exact ⟨only, rfl⟩
            | cons second others => exact ⟨_, rfl⟩
      have member : best ∈ catalog := ranking.1 best (List.mem_of_mem_take (winner_mem won))
      have name := voted (List.cons_ne_nil first rest)
      rw [won, Option.map_some] at name
      simp [choose, init_catalog, empty, unnamed, searched, found, name, won,
        skillByName_name host distinct member]

theorem choose_unscorable {LoadError : Type} {query : String}
    (unnamed : namedSkill host catalog query = none)
    (unscorable : ¬ Scorable host catalog query) :
    choose host (init host catalog) query =
      (.error (.retrieval .zeroDivisionError) : Except (SelectionError LoadError) _) := by
  have nonempty := ne_nil_of_unscorable host unscorable
  simp [choose, init_catalog, nonempty, unnamed, bm25_unscorable host unscorable]

end Hits

/-! ## What is activated -/

section Activation

variable {R : Type} [Arithmetic R] [LinearOrder R] [Rounding R]
  (host : SkillHost R) {LoadError : Type}
  (loadFullSkill : SkillMetadata → Except LoadError ActivatedSkill)
  (catalog : List SkillMetadata) (query : String)

/-- The hits of the keyword search alone decide what can be activated, and every hit leads
back to its skill. -/
structure KeywordActivation : Prop where
  activated : ∀ answer,
    (selectAndActivate host loadFullSkill (init host catalog) query).answer =
        .ok (some answer) →
      ∃ skill, loadFullSkill skill = .ok answer ∧
        (selectAndActivate host loadFullSkill (init host catalog) query).loaded = [skill]
  loaded : ∀ skill ∈ (selectAndActivate host loadFullSkill (init host catalog) query).loaded,
    skill ∈ catalog ∧ ∃ bm25Hits,
      (init host catalog).bm25.search host.unicode host.setOrder query 2 = .ok bm25Hits ∧
      bm25Hits.length ≤ 2 ∧ ∃ hit ∈ bm25Hits, hit.chunkId = (skillChunk skill).chunkId
  found : ∀ bm25Hits vectorHits,
    (init host catalog).bm25.search host.unicode host.setOrder query 2 = .ok bm25Hits →
    (init host catalog).vectorIndex.search host.getEmbedding host.sqrt query 2 =
      .ok vectorHits →
    bm25Hits ≠ [] →
    (∀ hit ∈ bm25Hits ++ vectorHits, ∃ skill ∈ catalog,
      (init host catalog).skillByName.get? (skillNameOf hit.chunkId) = some skill ∧
        skillNameOf hit.chunkId = skill.name) ∧
    ∃ name skill, bestSkillName (rrfScores bm25Hits vectorHits) = some name ∧
      (init host catalog).skillByName.get? name = some skill

variable {catalog query}

omit [Rounding R] in
theorem skill_of_chunkId (distinct : (catalog.map SkillMetadata.name).Nodup)
    {skills : List SkillMetadata} (within : ∀ skill ∈ skills, skill ∈ catalog) {chunkId : String}
    (among : chunkId ∈ skills.map fun skill => (skillChunk skill).chunkId) :
    ∃ skill ∈ catalog, (init host catalog).skillByName.get? (skillNameOf chunkId) = some skill ∧
      skillNameOf chunkId = skill.name := by
  obtain ⟨skill, member, rfl⟩ := List.mem_map.mp among
  have name := skillNameOf_skillChunk skill
  refine ⟨skill, within skill member, ?_, name⟩
  rw [name, skillByName_name host distinct (within skill member)]

theorem selectAndActivate_answer {selector : SkillSelector R} {answer : ActivatedSkill}
    (answered : (selectAndActivate host loadFullSkill selector query).answer = .ok (some answer)) :
    ∃ skill, loadFullSkill skill = .ok answer ∧
      (selectAndActivate host loadFullSkill selector query).loaded = [skill] := by
  unfold selectAndActivate at answered ⊢
  split at answered
  · cases answered
  · cases answered
  · next skill chosen =>
      cases body : loadFullSkill skill with
      | error error =>
          rw [body] at answered
          cases answered
      | ok read =>
          rw [body] at answered
          cases answered
          exact ⟨skill, body, rfl⟩

theorem loaded_of_chosen {selector : SkillSelector R} {chosen : Option SkillMetadata}
    (chose : choose host selector query =
      (.ok chosen : Except (SelectionError LoadError) _)) :
    (selectAndActivate host loadFullSkill selector query).loaded = chosen.toList := by
  unfold selectAndActivate
  rw [chose]
  cases chosen with
  | none => rfl
  | some skill => rfl

/-- A skill that only the vectors find is never activated. -/
theorem activated_among_keyword_hits (distinct : (catalog.map SkillMetadata.name).Nodup)
    (unnamed : ∀ skill ∈ catalog,
      occursIn (host.unicode.lower skill.name) (host.unicode.lower query) = false) :
    KeywordActivation host loadFullSkill catalog query where
  activated := fun _ => selectAndActivate_answer host loadFullSkill
  loaded := by
    intro skill member
    obtain ⟨ranked, ranking⟩ := keywordRanking_exists host distinct query
    have none := (namedSkill_eq_none_iff host).mpr unnamed
    have scorable : Scorable host catalog query := by
      by_contra unscorable
      rw [selectAndActivate, choose_unscorable host none unscorable] at member
      cases member
    rw [loaded_of_chosen host loadFullSkill (choose_unnamed host distinct none scorable ranking)]
      at member
    have leading := winner_mem (Option.mem_toList.mp member)
    have known := ranking.1 skill (List.mem_of_mem_take leading)
    obtain ⟨bm25Hits, searched, ids⟩ :=
      bm25_hits host distinct (List.ne_nil_of_mem known) scorable ranking
    refine ⟨known, bm25Hits, searched, length_of_leading ids, List.mem_map.mp ?_⟩
    rw [ids]
    exact List.mem_map_of_mem leading
  found := by
    intro bm25Hits vectorHits searched found matched
    obtain ⟨ranked, ranking⟩ := keywordRanking_exists host distinct query
    have nonempty : catalog ≠ [] := by
      rintro rfl
      have unfitted : (init host []).bm25.search host.unicode host.setOrder query 2 = .ok [] :=
        if_pos (.inr rfl)
      rw [unfitted] at searched
      cases searched
      exact matched rfl
    have scorable : Scorable host catalog query := by
      by_contra unscorable
      rw [bm25_unscorable host unscorable] at searched
      cases searched
    obtain ⟨_, _, sameSearch, sameFound, keyword, similar, voted⟩ :=
      ballot host distinct nonempty scorable ranking
    rw [searched, Except.ok.injEq] at sameSearch
    rw [found, Except.ok.injEq] at sameFound
    subst sameSearch sameFound
    have leads : ∀ hit ∈ bm25Hits ++ vectorHits, ∃ skill ∈ catalog,
        (init host catalog).skillByName.get? (skillNameOf hit.chunkId) = some skill ∧
          skillNameOf hit.chunkId = skill.name := by
      intro hit member
      rcases List.mem_append.mp member with inKeyword | inVector
      · refine skill_of_chunkId host distinct (fun skill among => ?_)
          (keyword ▸ List.mem_map_of_mem inKeyword)
        exact ranking.1 skill (List.mem_of_mem_take among)
      · exact skill_of_chunkId host distinct (fun skill => mem_similarSkills host)
          (similar ▸ List.mem_map_of_mem inVector)
    refine ⟨leads, ?_⟩
    obtain ⟨name, best, hit, member, rfl⟩ :
      ∃ name, bestSkillName (rrfScores bm25Hits vectorHits) = some name ∧ _ :=
      bestSkillName_total matched
    obtain ⟨skill, _, stored, _⟩ := leads hit member
    exact ⟨_, skill, best, stored⟩

end Activation

private def rollingBacktest : SkillMetadata :=
  { name := "rolling-backtest", description := "Evaluate chronological splits.",
    rootPath := "skills/rolling-backtest", allowedTools := [] }

private def seasonalDiagnostics : SkillMetadata :=
  { name := "seasonal-diagnostics", description := "Analyze repeated variance.",
    rootPath := "skills/seasonal-diagnostics", allowedTools := [] }

/-- Every text has the same vector. -/
private noncomputable def flatHost : SkillHost ℝ :=
  { unicode := .ascii, setOrder := .leading "skill_chunk_rolling-backtest", log := Real.log,
    sqrt := Real.sqrt, getEmbedding := fun _ => [0.5, 0.5, 0, 0] }

private def loadSteps (skill : SkillMetadata) : Except String ActivatedSkill :=
  .ok { name := skill.name, metadata := skill, fullInstructions := "Isolate the pattern." }

theorem variance_among_keyword_hits :
    KeywordActivation flatHost loadSteps [rollingBacktest, seasonalDiagnostics]
      "Is the variance repeated?" := by
  refine activated_among_keyword_hits flatHost loadSteps (by decide) ?_
  have unicode : flatHost.unicode = .ascii := rfl
  rw [unicode]
  decide +kernel

end SkillSelector

end DurableAgent.Skills
