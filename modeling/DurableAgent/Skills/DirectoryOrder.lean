import DurableAgent.Library.Reordering
import DurableAgent.Skills.Discovery
import DurableAgent.Skills.Winner

/-!
# The order of the skills directory

A directory is enumerated in any order, and sets that were filled in another order may be
iterated in another one too. The skill of a query stays the same exactly where no tie is
left to these orders.
-/

set_option autoImplicit false

namespace DurableAgent.Skills

open Library OrderedDict Python Retrieval SimpleTokenizer BM25Retriever

/-- A run with another order of the sets. -/
def SkillHost.ordered {R : Type} (host : SkillHost R) (order : SetOrder) : SkillHost R :=
  { host with setOrder := order }

namespace SkillSelector

section Ties

variable {R : Type} [Arithmetic R] [LinearOrder R] (host : SkillHost R)
  (catalog : List SkillMetadata) (query : String)

/-! ## Ties -/

def Matches (skill : SkillMetadata) : Prop :=
  SharesToken host.unicode (tokenize host.unicode query) (skillChunk skill)

/-- The place among the keyword hits: by the score, then by the first query token found. -/
def keywordPlace (skill : SkillMetadata) : Lex (Rᵒᵈ × Nat) :=
  place host.unicode host.log 1.5 0.75 (catalog.map skillChunk) (tokenize host.unicode query)
    (skillChunk skill)

/-- In some order the two are the keyword hits. -/
structure LeadingPair (first second : SkillMetadata) : Prop where
  firstIn : first ∈ catalog ∧ Matches host query first
  secondIn : second ∈ catalog ∧ Matches host query second
  differ : first ≠ second
  leads : ∀ other ∈ catalog, Matches host query other →
    keywordPlace host catalog query first ≤ keywordPlace host catalog query other
  follows : ∀ other ∈ catalog, Matches host query other → other ≠ first →
    keywordPlace host catalog query second ≤ keywordPlace host catalog query other

/-- Fewer than two other skills are as similar to the query. -/
def AlwaysSimilar (skill : SkillMetadata) : Prop :=
  rivals (similarity host query) catalog skill < 2

/-- Fewer than two skills are more similar to the query. -/
def SometimesSimilar (skill : SkillMetadata) : Prop :=
  superiors (similarity host query) catalog skill < 2

/-- All pairs of keyword hits that an order can yield have the same winner, whatever order
decides between equal similarities. -/
def TiesAgree : Prop :=
  ∃ best, ∀ first second, LeadingPair host catalog query first second →
    first = best ∧
        (AlwaysSimilar host catalog query first ∨ ¬ SometimesSimilar host catalog query second) ∨
      second = best ∧ AlwaysSimilar host catalog query second ∧
        ¬ SometimesSimilar host catalog query first

end Ties

/-! ## Keyword hits -/

/-- Two identifiers in front of all others. -/
def pairRank (first second chunkId : String) : Nat :=
  if chunkId = first then 0 else if chunkId = second then 1 else 2

theorem pairRank_pos {first second chunkId : String} (differs : chunkId ≠ first) :
    0 < pairRank first second chunkId := by
  rw [pairRank, if_neg differs]
  split
  · exact Nat.one_pos
  · exact Nat.two_pos

theorem pairRank_last {first second chunkId : String} (differs : chunkId ≠ first)
    (differsToo : chunkId ≠ second) : pairRank first second chunkId = 2 := by
  rw [pairRank, if_neg differs, if_neg differsToo]

section Keyword

variable {R : Type} [Arithmetic R] [LinearOrder R] {host : SkillHost R}
  {catalog reordered ranked : List SkillMetadata} {query : String} {order : SetOrder}
  (distinct : (catalog.map SkillMetadata.name).Nodup) (perm : reordered.Perm catalog)
  (ranking : IsKeywordRanking (host.ordered order) reordered query ranked)

include distinct perm

theorem reordered_distinct : (reordered.map SkillMetadata.name).Nodup :=
  (perm.map _).nodup_iff.mpr distinct

include ranking

theorem mem_ranking {skill : SkillMetadata} :
    skill ∈ ranked ↔ skill ∈ catalog ∧ Matches host query skill := by
  have names := reordered_distinct distinct perm
  have among : skillChunk skill ∈ ranked.map skillChunk ↔
      skillChunk skill ∈ reordered.map skillChunk ∧ Matches host query skill := by
    rw [ranking.2]
    exact mem_rankedChunks (chunkIds_nodup names)
  rw [← perm.mem_iff]
  constructor
  · intro member
    exact ⟨ranking.1 skill member, (among.mp (List.mem_map_of_mem member)).2⟩
  · rintro ⟨member, shares⟩
    obtain ⟨other, ranks, same⟩ :=
      List.mem_map.mp (among.mpr ⟨List.mem_map_of_mem member, shares⟩)
    have name : other.name = skill.name := by
      rw [← skillNameOf_skillChunk other, same, skillNameOf_skillChunk]
    rwa [← List.inj_on_of_nodup_map names (ranking.1 other ranks) member name]

/-- The hits follow the places, and inside one the order of the sets. -/
theorem ranking_pairwise {within : String → String → Prop}
    (each : ∀ token ∈ tokenize host.unicode query,
      (order.items token (holders host.unicode token (reordered.map skillChunk))).Pairwise
        within) :
    ranked.Pairwise fun first second =>
      keywordPlace host catalog query first < keywordPlace host catalog query second ∨
        keywordPlace host catalog query first = keywordPlace host catalog query second ∧
          within (skillChunk first).chunkId (skillChunk second).chunkId := by
  have ids := chunkIds_nodup (reordered_distinct distinct perm)
  have ordered : (rankedChunks host.unicode host.log (1.5 : R) 0.75 order
      (reordered.map skillChunk) (tokenize host.unicode query)).Pairwise _ :=
    rankedChunks_pairwise ids order each
  have chunks : ranked.map skillChunk = rankedChunks host.unicode host.log (1.5 : R) 0.75 order
      (reordered.map skillChunk) (tokenize host.unicode query) := ranking.2
  rw [← chunks, List.pairwise_map] at ordered
  simpa only [keywordPlace, place_perm (perm.map skillChunk)] using ordered

theorem ranking_sorted : ranked.Pairwise fun first second =>
    keywordPlace host catalog query first ≤ keywordPlace host catalog query second := by
  have each : ∀ token ∈ tokenize host.unicode query,
      (order.items token (holders host.unicode token (reordered.map skillChunk))).Pairwise
        fun _ _ => True := fun _ _ => List.pairwise_of_forall fun _ _ => trivial
  refine (ranking_pairwise distinct perm ranking each).imp fun either => ?_
  exact either.elim le_of_lt fun same => same.1.le

/-- The first two hits of any run. -/
theorem leadingPair_of_ranking {first second : SkillMetadata} {rest : List SkillMetadata}
    (hits : ranked = first :: second :: rest) :
    LeadingPair host catalog query first second := by
  have sorted := ranking_sorted distinct perm ranking
  have once := ranking.nodup
  have member {skill : SkillMetadata} (within : skill ∈ first :: second :: rest) :
      skill ∈ catalog ∧ Matches host query skill :=
    (mem_ranking distinct perm ranking).mp (hits ▸ within)
  have ranks {skill : SkillMetadata} (known : skill ∈ catalog)
      (shares : Matches host query skill) : skill ∈ first :: second :: rest :=
    hits ▸ (mem_ranking distinct perm ranking).mpr ⟨known, shares⟩
  rw [hits] at sorted once
  obtain ⟨leads, later⟩ := List.pairwise_cons.mp sorted
  obtain ⟨fresh, _⟩ := List.nodup_cons.mp once
  refine ⟨member (by simp), member (by simp), fun same => fresh (by simp [same]), ?_, ?_⟩
  · intro other known shares
    rcases List.mem_cons.mp (ranks known shares) with rfl | behind
    · exact le_refl _
    · exact leads other behind
  · intro other known shares differs
    have behind := (List.mem_cons.mp (ranks known shares)).resolve_left differs
    rcases List.mem_cons.mp behind with rfl | last
    · exact le_refl _
    · exact (List.pairwise_cons.mp later).1 other last

omit ranking perm in
theorem eq_of_chunkId {first second : SkillMetadata} (firstIn : first ∈ catalog)
    (secondIn : second ∈ catalog)
    (same : (skillChunk first).chunkId = (skillChunk second).chunkId) : first = second := by
  have names := congrArg skillNameOf same
  rw [skillNameOf_skillChunk, skillNameOf_skillChunk] at names
  exact List.inj_on_of_nodup_map distinct firstIn secondIn names

omit ranking perm in
/-- Any leading pair is made the first two hits by an order of the sets. -/
theorem ranking_of_leadingPair {first second : SkillMetadata}
    (pair : LeadingPair host catalog query first second) :
    ∃ order : SetOrder, ∀ reordered ranked : List SkillMetadata, reordered.Perm catalog →
      IsKeywordRanking (host.ordered order) reordered query ranked →
      ∃ rest, ranked = first :: second :: rest := by
  let rank := pairRank (skillChunk first).chunkId (skillChunk second).chunkId
  refine ⟨.byRank rank, fun reordered ranked perm ranking => ?_⟩
  have sorted := ranking_pairwise distinct perm ranking fun token _ =>
    SetOrder.byRank_pairwise rank token _
  have known {skill : SkillMetadata} (member : skill ∈ ranked) :
      skill ∈ catalog ∧ Matches host query skill :=
    (mem_ranking distinct perm ranking).mp member
  have apart {skill other : SkillMetadata} (within : skill ∈ catalog)
      (otherIn : other ∈ catalog) (differ : skill ≠ other) :
      (skillChunk skill).chunkId ≠ (skillChunk other).chunkId :=
    fun same => differ (eq_of_chunkId distinct within otherIn same)
  have leads : ranked.head? = some first := by
    refine head?_eq_of_least sorted ((mem_ranking distinct perm ranking).mpr pair.firstIn) ?_
    rintro skill member other (earlier | ⟨_, tied⟩)
    · exact (pair.leads skill (known member).1 (known member).2).not_gt earlier
    · have zero : rank (skillChunk first).chunkId = 0 := if_pos rfl
      have later : 0 < rank (skillChunk skill).chunkId :=
        pairRank_pos (apart (known member).1 pair.firstIn.1 other)
      omega
  obtain ⟨tail, rfl⟩ := List.head?_eq_some_iff.mp leads
  have follows : tail.head? = some second := by
    refine head?_eq_of_least (List.pairwise_cons.mp sorted).2 ?_ ?_
    · have among := (mem_ranking distinct perm ranking).mpr pair.secondIn
      exact (List.mem_cons.mp among).resolve_left pair.differ.symm
    · intro skill member other order
      obtain ⟨within, shares⟩ := known (List.mem_cons_of_mem first member)
      have notFirst : skill ≠ first := by
        rintro rfl
        exact (List.nodup_cons.mp ranking.nodup).1 member
      rcases order with earlier | ⟨_, tied⟩
      · exact (pair.follows skill within shares notFirst).not_gt earlier
      · have one : rank (skillChunk second).chunkId = 1 :=
          (if_neg (apart pair.secondIn.1 pair.firstIn.1 pair.differ.symm)).trans (if_pos rfl)
        have two : rank (skillChunk skill).chunkId = 2 :=
          pairRank_last (apart within pair.firstIn.1 notFirst)
            (apart within pair.secondIn.1 other)
        omega
  obtain ⟨rest, rfl⟩ := List.head?_eq_some_iff.mp follows
  exact ⟨rest, rfl⟩

end Keyword

/-! ## Vector hits -/

section Similar

variable {R : Type} [Arithmetic R] [LinearOrder R] {host : SkillHost R}
  {catalog reordered : List SkillMetadata} {query : String} {first last skill : SkillMetadata}
  (distinct : (catalog.map SkillMetadata.name).Nodup) (perm : reordered.Perm catalog)

include distinct perm

theorem similar_of_always (asked : query ≠ "") (member : skill ∈ catalog)
    (always : AlwaysSimilar host catalog query skill) :
    skill ∈ similarSkills host reordered query := by
  rw [similarSkills, if_neg asked]
  refine mem_take_rankBy (perm.nodup_iff.mpr distinct.of_map) (perm.mem_iff.mpr member) ?_
  rw [rivals, perm.countP_eq]
  exact always

theorem not_similar_of_never (member : skill ∈ catalog)
    (never : ¬ SometimesSimilar host catalog query skill) :
    skill ∉ similarSkills host reordered query := by
  unfold similarSkills
  split
  · exact List.not_mem_nil
  · refine not_mem_take_rankBy (perm.nodup_iff.mpr distinct.of_map) (perm.mem_iff.mpr member) ?_
    rw [superiors, perm.countP_eq]
    exact not_lt.mp never

omit distinct perm in
/-- Two skills at the ends of the directory. -/
theorem ends_perm (firstIn : first ∈ catalog) (lastIn : last ∈ catalog) (differ : first ≠ last) :
    ∃ middle : List SkillMetadata, (first :: (middle ++ [last])).Perm catalog := by
  refine ⟨(catalog.erase first).erase last, ?_⟩
  have later : last ∈ catalog.erase first :=
    (List.mem_erase_of_ne differ.symm).mpr lastIn
  have behind : ((catalog.erase first).erase last ++ [last]).Perm (catalog.erase first) :=
    (List.perm_append_singleton last _).trans (List.perm_cons_erase later).symm
  exact (behind.cons first).trans (List.perm_cons_erase firstIn).symm

omit perm in
theorem similar_of_first {middle : List SkillMetadata} (asked : query ≠ "")
    (ends : (first :: (middle ++ [last])).Perm catalog)
    (sometimes : SometimesSimilar host catalog query first) :
    first ∈ similarSkills host (first :: (middle ++ [last])) query := by
  rw [similarSkills, if_neg asked]
  refine mem_take_rankBy_of_first (ends.nodup_iff.mpr distinct.of_map) ?_
  rw [superiors, ends.countP_eq]
  exact sometimes

omit perm in
theorem not_similar_of_last {middle : List SkillMetadata}
    (ends : (first :: (middle ++ [last])).Perm catalog)
    (unsure : ¬ AlwaysSimilar host catalog query last) :
    last ∉ similarSkills host (first :: (middle ++ [last])) query := by
  unfold similarSkills
  split
  · exact List.not_mem_nil
  · rw [← List.cons_append] at ends ⊢
    refine not_mem_take_rankBy_of_last (ends.nodup_iff.mpr distinct.of_map) ?_
    rw [rivals, ends.countP_eq]
    exact not_lt.mp unsure

end Similar

/-! ## Runs -/

section Runs

variable {R : Type} [Arithmetic R] [LinearOrder R] {host : SkillHost R}
  {catalog reordered ranked : List SkillMetadata} {query : String}

/-- All runs over the catalog have the same winner. -/
def RunsAgree (host : SkillHost R) (catalog : List SkillMetadata) (query : String) : Prop :=
  ∀ first second : List SkillMetadata, first.Perm catalog → second.Perm catalog →
    ∀ order other : SetOrder, ∀ ranked others : List SkillMetadata,
      IsKeywordRanking (host.ordered order) first query ranked →
      IsKeywordRanking (host.ordered other) second query others →
      winner ranked (similarSkills host first query) =
        winner others (similarSkills host second query)

omit [Arithmetic R] [LinearOrder R] in
theorem asked_of_matches {skill : SkillMetadata} (shares : Matches host query skill) :
    query ≠ "" := by
  rintro rfl
  obtain ⟨token, among, _⟩ := shares
  cases among

variable (distinct : (catalog.map SkillMetadata.name).Nodup)

include distinct

/-- A pair that no tie can change has its winner in every run. -/
theorem winner_of_pair {first second best : SkillMetadata} (perm : reordered.Perm catalog)
    (pair : LeadingPair host catalog query first second)
    (decided : first = best ∧
        (AlwaysSimilar host catalog query first ∨ ¬ SometimesSimilar host catalog query second) ∨
      second = best ∧ AlwaysSimilar host catalog query second ∧
        ¬ SometimesSimilar host catalog query first) (rest : List SkillMetadata) :
    winner (first :: second :: rest) (similarSkills host reordered query) = some best := by
  have asked : query ≠ "" := asked_of_matches pair.firstIn.2
  rcases decided with ⟨rfl, always | never⟩ | ⟨rfl, always, never⟩
  · have similar := similar_of_always distinct perm asked pair.firstIn.1 always
    simp [winner, similar]
  · have absent := not_similar_of_never distinct perm pair.secondIn.1 never
    simp [winner, absent]
  · have similar := similar_of_always distinct perm asked pair.secondIn.1 always
    have absent := not_similar_of_never distinct perm pair.firstIn.1 never
    simp [winner, similar, absent]

theorem runsAgree_of_tiesAgree (agree : TiesAgree host catalog query) :
    RunsAgree host catalog query := by
  intro first second firstPerm secondPerm order other ranked others ranking rankingToo
  obtain ⟨best, decides⟩ := agree
  have same : others.Perm ranked := by
    rw [List.perm_ext_iff_of_nodup rankingToo.nodup ranking.nodup]
    intro skill
    rw [mem_ranking distinct firstPerm ranking, mem_ranking distinct secondPerm rankingToo]
  match ranked, others with
  | [], others => rw [List.perm_nil.mp same]; rfl
  | [only], others => rw [List.perm_singleton.mp same]; rfl
  | _ :: _ :: _, [] => cases same.length_eq
  | _ :: _ :: _, [_] => cases same.length_eq
  | leading :: next :: rest, start :: following :: tail =>
      have pair := leadingPair_of_ranking distinct firstPerm ranking rfl
      have pairToo := leadingPair_of_ranking distinct secondPerm rankingToo rfl
      rw [winner_of_pair distinct firstPerm pair (decides _ _ pair),
        winner_of_pair distinct secondPerm pairToo (decides _ _ pairToo)]

/-- A leading pair decides some run over every order of the directory. -/
theorem winner_of_runsAgree (agree : RunsAgree host catalog query)
    {first second : SkillMetadata} (pair : LeadingPair host catalog query first second) :
    ∃ best, ∀ order : SetOrder, ∀ reordered ranked : List SkillMetadata,
      reordered.Perm catalog → IsKeywordRanking (host.ordered order) reordered query ranked →
      winner ranked (similarSkills host reordered query) = some best := by
  obtain ⟨order, hits⟩ := ranking_of_leadingPair distinct pair
  obtain ⟨ranked, ranking⟩ := keywordRanking_exists (host.ordered order) distinct query
  obtain ⟨rest, rfl⟩ := hits catalog ranked (.refl catalog) ranking
  obtain ⟨best, won⟩ : ∃ best, winner (first :: second :: rest)
    (similarSkills host catalog query) = some best := ⟨_, rfl⟩
  refine ⟨best, fun other reordered others perm rankingToo => ?_⟩
  exact (agree reordered catalog perm (.refl catalog) other order others _ rankingToo
    ranking).trans won

/-- Where the runs agree, the skills at the ends of the directory show what a tie decides. -/
theorem tiesAgree_of_runsAgree (agree : RunsAgree host catalog query) :
    TiesAgree host catalog query := by
  by_cases some : ∃ first second, LeadingPair host catalog query first second
  · obtain ⟨_, _, any⟩ := some
    obtain ⟨best, always⟩ := winner_of_runsAgree distinct agree any
    refine ⟨best, fun first second pair => ?_⟩
    obtain ⟨order, hits⟩ := ranking_of_leadingPair distinct pair
    have asked : query ≠ "" := asked_of_matches pair.firstIn.2
    have wins {reordered : List SkillMetadata} (perm : reordered.Perm catalog) :
        (if second ∈ similarSkills host reordered query ∧
          first ∉ similarSkills host reordered query then second else first) = best := by
      obtain ⟨ranked, ranking⟩ := keywordRanking_exists (host.ordered order)
        (reordered_distinct distinct perm) query
      obtain ⟨rest, rfl⟩ := hits reordered ranked perm ranking
      exact Option.some.inj (always order reordered _ perm ranking)
    obtain ⟨middle, opens⟩ := ends_perm pair.firstIn.1 pair.secondIn.1 pair.differ
    obtain ⟨between, closes⟩ := ends_perm pair.secondIn.1 pair.firstIn.1 pair.differ.symm
    by_cases leads : first = best
    · refine .inl ⟨leads, ?_⟩
      by_contra undecided
      rw [not_or, not_not] at undecided
      have similar := similar_of_first distinct asked closes undecided.2
      have absent := not_similar_of_last distinct closes undecided.1
      have won := wins closes
      rw [if_pos ⟨similar, absent⟩] at won
      exact pair.differ (leads.trans won.symm)
    · have won := wins opens
      split at won
      · next outvoted =>
          refine .inr ⟨won, ?_, fun sometimes => ?_⟩
          · by_contra unsure
            exact not_similar_of_last distinct opens unsure outvoted.1
          · exact outvoted.2 (similar_of_first distinct asked opens sometimes)
      · exact absurd won leads
  · refine ⟨{ name := "", description := "", rootPath := "", allowedTools := [] }, ?_⟩
    exact fun first second pair => absurd ⟨first, second, pair⟩ some

end Runs

/-! ## Directories -/

section Directories

variable {R : Type} [Arithmetic R] [LinearOrder R] [Rounding R] (host : SkillHost R)
  {LoadError : Type} (loadFullSkill : SkillMetadata → Except LoadError ActivatedSkill)

/-- A selector over the skills of a directory, asked once. -/
def activateFrom (root : Option (List SkillLoader.DirectoryEntry)) (query : String) :
    Except SkillLoader.ValidationError (Selection LoadError) :=
  (SkillLoader.discoverCatalog root).map fun catalog =>
    selectAndActivate host loadFullSkill (init host catalog) query

/-- The same is activated for any two orders of the directory. -/
def OrderIndependent (entries : List SkillLoader.DirectoryEntry) (query : String) : Prop :=
  ∀ first second : List SkillLoader.DirectoryEntry, first.Perm entries → second.Perm entries →
    ∀ order other : SetOrder,
      activateFrom (host.ordered order) loadFullSkill (some first) query =
        activateFrom (host.ordered other) loadFullSkill (some second) query

def Names (query : String) (skill : SkillMetadata) : Prop :=
  occursIn (host.unicode.lower skill.name) (host.unicode.lower query) = true

variable {host loadFullSkill} {entries : List SkillLoader.DirectoryEntry}
  {catalog : List SkillMetadata} {query : String}

/-- The orders of a directory are the orders of its skills. -/
theorem orderIndependent_iff_catalogs
    (discovered : SkillLoader.discoverCatalog (some entries) = .ok catalog) :
    OrderIndependent host loadFullSkill entries query ↔
      ∀ first second : List SkillMetadata, first.Perm catalog → second.Perm catalog →
        ∀ order other : SetOrder,
          selectAndActivate (host.ordered order) loadFullSkill
              (init (host.ordered order) first) query =
            selectAndActivate (host.ordered other) loadFullSkill
              (init (host.ordered other) second) query := by
  have shaped := SkillLoader.shaped_of_discovered discovered
  have listed {arranged : List SkillLoader.DirectoryEntry} (perm : arranged.Perm entries) :
      SkillLoader.discoverCatalog (some arranged) =
        .ok (arranged.filterMap SkillLoader.ownMetadata) :=
    SkillLoader.discovered_of_shaped fun entry member => shaped entry (perm.mem_iff.mp member)
  have own : entries.filterMap SkillLoader.ownMetadata = catalog :=
    Except.ok.inj ((listed (.refl entries)).symm.trans discovered)
  constructor
  · intro independent first second firstPerm secondPerm order other
    obtain ⟨left, leftPerm, rfl⟩ :=
      exists_perm_filterMap SkillLoader.ownMetadata firstPerm.symm own
    obtain ⟨right, rightPerm, rfl⟩ :=
      exists_perm_filterMap SkillLoader.ownMetadata secondPerm.symm own
    have same := independent left right leftPerm rightPerm order other
    rw [activateFrom, activateFrom, listed leftPerm, listed rightPerm] at same
    exact Except.ok.inj same
  · intro same first second firstPerm secondPerm order other
    rw [activateFrom, activateFrom, listed firstPerm, listed secondPerm]
    exact congrArg Except.ok (same _ _ (own ▸ firstPerm.filterMap _)
      (own ▸ secondPerm.filterMap _) order other)

omit [Rounding R] [LinearOrder R] [Arithmetic R] in
theorem names_of_namedSkill {reordered : List SkillMetadata} {skill : SkillMetadata}
    (named : namedSkill host reordered query = some skill) :
    skill ∈ reordered ∧ Names host query skill := by
  unfold namedSkill at named
  have matched := List.find?_some named
  exact ⟨List.mem_of_find?_eq_some named, matched⟩

/-- A skill in front of the directory that the query names is chosen. -/
theorem choose_named {reordered : List SkillMetadata} {skill : SkillMetadata}
    (named : namedSkill host reordered query = some skill) (order : SetOrder) :
    choose (host.ordered order) (init (host.ordered order) reordered) query =
      (.ok (some skill) : Except (SelectionError LoadError) _) := by
  have nonempty : reordered ≠ [] := List.ne_nil_of_mem (names_of_namedSkill named).1
  have same : namedSkill (host.ordered order) reordered query = some skill := named
  simp [choose, init_catalog, nonempty, same]

theorem loaded_of_named {reordered : List SkillMetadata} {skill : SkillMetadata}
    (named : namedSkill host reordered query = some skill) :
    (selectAndActivate host loadFullSkill (init host reordered) query).loaded = [skill] :=
  loaded_of_chosen host loadFullSkill (choose_named named host.setOrder)

/-- What is activated tells which skill was chosen. -/
theorem choice_of_activated {left right : SkillSelector R} {order other : SetOrder}
    {chosen also : Option SkillMetadata}
    (leftChose : choose (host.ordered order) left query =
      (.ok chosen : Except (SelectionError LoadError) _))
    (rightChose : choose (host.ordered other) right query =
      (.ok also : Except (SelectionError LoadError) _)) :
    selectAndActivate (host.ordered order) loadFullSkill left query =
        selectAndActivate (host.ordered other) loadFullSkill right query ↔ chosen = also := by
  constructor
  · intro same
    have loaded := congrArg Selection.loaded same
    rw [loaded_of_chosen (host.ordered order) loadFullSkill leftChose,
      loaded_of_chosen (host.ordered other) loadFullSkill rightChose] at loaded
    simpa using congrArg List.head? loaded
  · rintro rfl
    unfold selectAndActivate
    rw [leftChose, rightChose]

/-! ## The exact condition -/

/-- Each of two named skills is chosen where it comes first. -/
theorem named_single (same : ∀ first second : List SkillMetadata, first.Perm catalog →
      second.Perm catalog → ∀ order other : SetOrder,
        selectAndActivate (host.ordered order) loadFullSkill
            (init (host.ordered order) first) query =
          selectAndActivate (host.ordered other) loadFullSkill
            (init (host.ordered other) second) query)
    {first second : SkillMetadata} (firstIn : first ∈ catalog) (secondIn : second ∈ catalog)
    (firstNamed : Names host query first) (secondNamed : Names host query second) :
    first = second := by
  by_contra differ
  obtain ⟨middle, opens⟩ := ends_perm firstIn secondIn differ
  obtain ⟨between, closes⟩ := ends_perm secondIn firstIn (Ne.symm differ)
  have leads : namedSkill host (first :: (middle ++ [second])) query = some first :=
    List.find?_cons_of_pos firstNamed
  have leadsToo : namedSkill host (second :: (between ++ [first])) query = some second :=
    List.find?_cons_of_pos secondNamed
  have chosen := (choice_of_activated (choose_named leads host.setOrder)
    (choose_named leadsToo host.setOrder)).mp
      (same _ _ opens closes host.setOrder host.setOrder)
  exact differ (Option.some.inj chosen)

variable (distinct : (catalog.map SkillMetadata.name).Nodup)

include distinct

omit [LinearOrder R] [Rounding R] in
theorem scorable_perm {reordered : List SkillMetadata} (perm : reordered.Perm catalog)
    (order : SetOrder) :
    Scorable (host.ordered order) reordered query ↔ Scorable host catalog query :=
  divisible_perm (chunkIds_nodup distinct) (perm.map skillChunk)

theorem choose_unnamed_run {reordered ranked : List SkillMetadata} {order : SetOrder}
    (perm : reordered.Perm catalog) (unnamed : ∀ skill ∈ catalog, ¬ Names host query skill)
    (scorable : Scorable host catalog query)
    (ranking : IsKeywordRanking (host.ordered order) reordered query ranked) :
    choose (host.ordered order) (init (host.ordered order) reordered) query =
      (.ok (winner ranked (similarSkills host reordered query)) :
        Except (SelectionError LoadError) _) := by
  refine choose_unnamed (host.ordered order) (reordered_distinct distinct perm) ?_
    ((scorable_perm distinct perm order).mpr scorable) ranking
  refine (namedSkill_eq_none_iff _).mpr fun skill member => ?_
  exact Bool.eq_false_iff.mpr (unnamed skill (perm.mem_iff.mp member))

/-- The order of the directory does not matter if and only if the query names one skill at
most and, where it names none, the ties agree; a vanishing denominator raises for all orders. -/
theorem orderIndependent_iff
    (discovered : SkillLoader.discoverCatalog (some entries) = .ok catalog) :
    OrderIndependent host loadFullSkill entries query ↔
      (∀ first ∈ catalog, ∀ second ∈ catalog, Names host query first →
        Names host query second → first = second) ∧
      ((∀ skill ∈ catalog, ¬ Names host query skill) → Scorable host catalog query →
        TiesAgree host catalog query) := by
  rw [orderIndependent_iff_catalogs discovered]
  constructor
  · intro same
    refine ⟨fun first firstIn second secondIn => named_single same firstIn secondIn,
      fun unnamed scorable => tiesAgree_of_runsAgree distinct ?_⟩
    intro first second firstPerm secondPerm order other ranked others ranking rankingToo
    exact (choice_of_activated (choose_unnamed_run distinct firstPerm unnamed scorable ranking)
      (choose_unnamed_run distinct secondPerm unnamed scorable rankingToo)).mp
        (same first second firstPerm secondPerm order other)
  · rintro ⟨single, agree⟩ first second firstPerm secondPerm order other
    have firstMatch (reordered : List SkillMetadata) (perm : reordered.Perm catalog) :
        namedSkill host reordered query = namedSkill host catalog query :=
      find?_eq_of_perm perm single
    cases named : namedSkill host catalog query with
    | some skill =>
        exact (choice_of_activated
          (choose_named ((firstMatch first firstPerm).trans named) order)
          (choose_named ((firstMatch second secondPerm).trans named) other)).mpr rfl
    | none =>
        have unnamed : ∀ skill ∈ catalog, ¬ Names host query skill := fun skill member =>
          Bool.eq_false_iff.mp ((namedSkill_eq_none_iff host).mp named skill member)
        by_cases scorable : Scorable host catalog query
        · obtain ⟨ranked, ranking⟩ := keywordRanking_exists (host.ordered order)
            (reordered_distinct distinct firstPerm) query
          obtain ⟨others, rankingToo⟩ := keywordRanking_exists (host.ordered other)
            (reordered_distinct distinct secondPerm) query
          exact (choice_of_activated
            (choose_unnamed_run distinct firstPerm unnamed scorable ranking)
            (choose_unnamed_run distinct secondPerm unnamed scorable rankingToo)).mpr
              (runsAgree_of_tiesAgree distinct (agree unnamed scorable) first second firstPerm
                secondPerm order other ranked others ranking rankingToo)
        · have raises {reordered : List SkillMetadata} (perm : reordered.Perm catalog)
              (order : SetOrder) :
              choose (host.ordered order) (init (host.ordered order) reordered) query =
                (.error (.retrieval .zeroDivisionError) :
                  Except (SelectionError LoadError) _) :=
            choose_unscorable (host.ordered order) ((firstMatch reordered perm).trans named)
              ((scorable_perm distinct perm order).not.mpr scorable)
          rw [selectAndActivate, selectAndActivate, raises firstPerm, raises secondPerm]

end Directories

private def nestedFolder : SkillLoader.DirectoryEntry where
  path := "skills/backtest"
  isDir := true
  skillFile := some "---\nname: backtest\ndescription: Splits.\n---\n"

private def outerFolder : SkillLoader.DirectoryEntry where
  path := "skills/rolling-backtest"
  isDir := true
  skillFile := some "---\nname: rolling-backtest\ndescription: Windows.\n---\n"

private def growthFolder : SkillLoader.DirectoryEntry where
  path := "skills/nowcasting"
  isDir := true
  skillFile := some "---\nname: nowcasting\ndescription: Growth.\n---\n"

private def nestedSkill : SkillMetadata :=
  { name := "backtest", description := "Splits.", rootPath := "skills/backtest",
    allowedTools := [] }

private def outerSkill : SkillMetadata :=
  { name := "rolling-backtest", description := "Windows.",
    rootPath := "skills/rolling-backtest", allowedTools := [] }

private def growthSkill : SkillMetadata :=
  { name := "nowcasting", description := "Growth.", rootPath := "skills/nowcasting",
    allowedTools := [] }

private noncomputable def plainHost : SkillHost ℝ :=
  { unicode := .ascii, setOrder := .leading "skill_chunk_backtest", log := Real.log,
    sqrt := Real.sqrt, getEmbedding := fun _ => [0.5, 0.5, 0, 0] }

private def loadOutline (skill : SkillMetadata) : Except String ActivatedSkill :=
  .ok { name := skill.name, metadata := skill, fullInstructions := "Define the horizon." }

private theorem folders_listed :
    ∀ listing ∈ [(nestedFolder, nestedSkill), (outerFolder, outerSkill),
      (growthFolder, growthSkill)], SkillLoader.listEntry listing.1 = .ok (some listing.2) := by
  have nested : SkillLoader.listEntry nestedFolder = .ok (some nestedSkill) := by decide +kernel
  have outer : SkillLoader.listEntry outerFolder = .ok (some outerSkill) := by decide +kernel
  have growth : SkillLoader.listEntry growthFolder = .ok (some growthSkill) := by decide +kernel
  simp [nested, outer, growth]

private theorem pair_discovered :
    SkillLoader.discoverCatalog (some [nestedFolder, growthFolder]) =
      .ok [nestedSkill, growthSkill] := by
  have listed : ∀ listing ∈ [(nestedFolder, nestedSkill), (growthFolder, growthSkill)],
      SkillLoader.listEntry listing.1 = .ok (some listing.2) :=
    fun listing member => folders_listed listing (by grind)
  exact SkillLoader.discoverCatalog_of_listed listed

private theorem pair_distinct : ([nestedSkill, growthSkill].map SkillMetadata.name).Nodup := by
  decide

private theorem pair_query :
    tokenize .ascii "Which growth splits?" = ["which", "growth", "splits"] := by
  decide +kernel

private theorem growth_tokens : tokensOf .ascii (skillChunk growthSkill) =
    ["skill", "nowcasting", "description", "growth", "keywords"] := by
  decide +kernel

private theorem nested_tokens : tokensOf .ascii (skillChunk nestedSkill) =
    ["skill", "backtest", "description", "splits", "keywords"] := by
  decide +kernel

/-- The two index texts differ in the words that the query asks for. -/
private theorem growth_first :
    keywordPlace plainHost [nestedSkill, growthSkill] "Which growth splits?" growthSkill <
      keywordPlace plainHost [nestedSkill, growthSkill] "Which growth splits?" nestedSkill := by
  refine place_lt_iff.mpr (.inr ⟨?_, ?_⟩)
  · have growth : (tokenize .ascii "Which growth splits?").filter (fun token =>
        decide (token ∈ tokensOf .ascii (skillChunk growthSkill))) = ["growth"] := by
      simp [pair_query, growth_tokens]
    have splits : (tokenize .ascii "Which growth splits?").filter (fun token =>
        decide (token ∈ tokensOf .ascii (skillChunk nestedSkill))) = ["splits"] := by
      simp [pair_query, nested_tokens]
    have unicode : plainHost.unicode = .ascii := rfl
    rw [chunkScore, chunkScore, unicode, growth, splits, List.map_singleton,
      List.map_singleton, worth_congr]
    · simp [documentFrequency, growth_tokens, nested_tokens]
    · simp [growth_tokens, nested_tokens]
    · simp [growth_tokens, nested_tokens]
  · have unicode : plainHost.unicode = .ascii := rfl
    rw [unicode, firstToken, firstToken, pair_query, growth_tokens, nested_tokens]
    decide

/-- The query names one of two skills, or finds one of them by an earlier word. -/
theorem two_skills_order_independent :
    OrderIndependent plainHost loadOutline [nestedFolder, growthFolder] "Use a backtest." ∧
      (∀ skill ∈ [nestedSkill, growthSkill], Matches plainHost "Which growth splits?" skill) ∧
      OrderIndependent plainHost loadOutline [nestedFolder, growthFolder]
        "Which growth splits?" := by
  refine ⟨?_, ?_, ?_⟩
  · have nested : Names plainHost "Use a backtest." nestedSkill :=
      show occursIn (UnicodeData.ascii.lower _) (UnicodeData.ascii.lower _) = true by
        decide +kernel
    have growth : ¬ Names plainHost "Use a backtest." growthSkill :=
      show ¬ occursIn (UnicodeData.ascii.lower _) (UnicodeData.ascii.lower _) = true by
        decide +kernel
    refine (orderIndependent_iff pair_distinct pair_discovered).mpr
      ⟨?_, fun unnamed => absurd nested (unnamed nestedSkill List.mem_cons_self)⟩
    have only : ∀ skill ∈ [nestedSkill, growthSkill],
        Names plainHost "Use a backtest." skill → skill = nestedSkill := by
      simp [growth]
    exact fun first firstIn second secondIn firstNamed secondNamed =>
      (only first firstIn firstNamed).trans (only second secondIn secondNamed).symm
  · show ∀ skill ∈ [nestedSkill, growthSkill],
      SharesToken .ascii (tokenize .ascii "Which growth splits?") (skillChunk skill)
    simp [SharesToken, pair_query, nested_tokens, growth_tokens]
  · have unnamed : ∀ skill ∈ [nestedSkill, growthSkill],
        ¬ Names plainHost "Which growth splits?" skill :=
      show ∀ skill ∈ [nestedSkill, growthSkill],
        ¬ occursIn (UnicodeData.ascii.lower _) (UnicodeData.ascii.lower _) = true by
        decide +kernel
    have growth : Matches plainHost "Which growth splits?" growthSkill :=
      show SharesToken .ascii (tokenize .ascii "Which growth splits?")
        (skillChunk growthSkill) by simp [SharesToken, pair_query, growth_tokens]
    refine (orderIndependent_iff pair_distinct pair_discovered).mpr
      ⟨fun first firstIn _ _ named => absurd named (unnamed first firstIn), fun _ _ => ?_⟩
    refine ⟨growthSkill, fun first second pair => .inl ⟨?_, .inl ?_⟩⟩
    · have among := pair.firstIn.1
      simp only [List.mem_cons, List.not_mem_nil, or_false] at among
      refine among.resolve_left fun nested => ?_
      have leads := pair.leads growthSkill (by simp) growth
      rw [nested] at leads
      exact leads.not_gt growth_first
    · exact rivals_lt_length pair.firstIn.1

/-- Of a name and a longer one that contains it, the one enumerated first is activated. -/
theorem enumeration_decides_nested_names :
    (activateFrom plainHost loadOutline (some [nestedFolder, outerFolder])
        "Use rolling-backtest.").map Selection.loaded = .ok [nestedSkill] ∧
      (activateFrom plainHost loadOutline (some [outerFolder, nestedFolder])
        "Use rolling-backtest.").map Selection.loaded = .ok [outerSkill] ∧
      ¬ OrderIndependent plainHost loadOutline [nestedFolder, outerFolder]
        "Use rolling-backtest." := by
  have nested : Names plainHost "Use rolling-backtest." nestedSkill :=
    show occursIn (UnicodeData.ascii.lower _) (UnicodeData.ascii.lower _) = true by
      decide +kernel
  have outer : Names plainHost "Use rolling-backtest." outerSkill :=
    show occursIn (UnicodeData.ascii.lower _) (UnicodeData.ascii.lower _) = true by
      decide +kernel
  have listed : ∀ listing ∈ [(nestedFolder, nestedSkill), (outerFolder, outerSkill)],
      SkillLoader.listEntry listing.1 = .ok (some listing.2) :=
    fun listing member => folders_listed listing (by grind)
  have discovered : SkillLoader.discoverCatalog (some [nestedFolder, outerFolder]) =
      .ok [nestedSkill, outerSkill] := SkillLoader.discoverCatalog_of_listed listed
  have reversed : SkillLoader.discoverCatalog (some [outerFolder, nestedFolder]) =
      .ok [outerSkill, nestedSkill] :=
    SkillLoader.discoverCatalog_of_listed fun listing member =>
      listed listing ((List.Perm.swap _ _ _).mem_iff.mp member)
  have first : (activateFrom plainHost loadOutline (some [nestedFolder, outerFolder])
      "Use rolling-backtest.").map Selection.loaded = .ok [nestedSkill] := by
    rw [activateFrom, discovered]
    exact congrArg Except.ok (loaded_of_named (List.find?_cons_of_pos nested))
  have second : (activateFrom plainHost loadOutline (some [outerFolder, nestedFolder])
      "Use rolling-backtest.").map Selection.loaded = .ok [outerSkill] := by
    rw [activateFrom, reversed]
    exact congrArg Except.ok (loaded_of_named (List.find?_cons_of_pos outer))
  refine ⟨first, second, fun independent => ?_⟩
  have same := congrArg (Except.map Selection.loaded)
    (independent _ [outerFolder, nestedFolder] (.refl _) (.swap _ _ _) plainHost.setOrder
      plainHost.setOrder)
  have differ : nestedSkill ≠ outerSkill := by decide
  have equal : Except.ok [nestedSkill] = Except.ok [outerSkill] :=
    first.symm.trans (same.trans second)
  exact differ (List.singleton_inj.mp (Except.ok.inj equal))

end SkillSelector

end DurableAgent.Skills
