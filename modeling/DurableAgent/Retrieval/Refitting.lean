import DurableAgent.Retrieval.FittedSearch
import Mathlib.Analysis.SpecialFunctions.Log.Basic

/-!
# Refitting

A fit replaces some tables of the retriever and adds to the others. A query does not notice
where it finds the same identifiers, with the same scores and in the same order, as in the
last corpus alone.
-/

set_option autoImplicit false

namespace DurableAgent.Retrieval

open Library OrderedDict Python SimpleTokenizer

namespace SetOrder

/-- A set alone decides how it is iterated, whatever token it is stored for. -/
def Uniform (order : SetOrder) : Prop :=
  ∀ token other set, order.items token set = order.items other set

/-- Every set is iterated with an item of its own ahead. -/
def choosing (leader : FilledSet String → String) : SetOrder where
  items token set := (leading (leader set)).items token set
  perm token set := (leading (leader set)).perm token set

theorem choosing_uniform (leader : FilledSet String → String) : (choosing leader).Uniform :=
  fun _ _ _ => rfl

end SetOrder

namespace BM25Retriever

/-! ## What an index leads to -/

section Found

variable (data : UnicodeData) (seen last : List Chunk) (tokens : List String)

/-- Some token of the query leads to the identifier. -/
def Reaches (chunkId : String) : Prop := ∃ token ∈ tokens, chunkId ∈ holders data token seen

/-- The set in which the query finds the identifier first. -/
def foundSet (chunkId : String) : Option (FilledSet String) :=
  tokens[found data seen tokens chunkId]?.map fun token => holders data token seen

variable {R : Type} [Arithmetic R] (log : R → R) (k1 b : R)

/-- The chunks seen before the last corpus change nothing of what the query finds there. -/
structure Undisturbed : Prop where
  divisible : Divisible data k1 b seen last tokens
  reaches : ∀ chunkId, Reaches data seen tokens chunkId → Reaches data last tokens chunkId
  scores : ∀ chunkId, Reaches data last tokens chunkId →
    scoreOf data log k1 b seen last tokens chunkId =
      scoreOf data log k1 b last last tokens chunkId
  order : ∀ first second, Reaches data last tokens first → Reaches data last tokens second →
    first ≠ second →
    scoreOf data log k1 b last last tokens first =
      scoreOf data log k1 b last last tokens second →
    (found data last tokens first < found data last tokens second →
        found data seen tokens first < found data seen tokens second) ∧
      (found data last tokens first = found data last tokens second →
        found data seen tokens first = found data seen tokens second ∧
          foundSet data seen tokens first = foundSet data last tokens first)

end Found

section Rankings

variable {data : UnicodeData} {seen last : List Chunk} {tokens : List String} {R : Type}
  [Arithmetic R] {log : R → R} {k1 b : R}

theorem get?_scores {order : SetOrder} {chunkId : String}
    (reached : Reaches data seen tokens chunkId) :
    (OrderedDict.empty.addAll (amounts data log k1 b seen last order tokens)).get? chunkId =
      some (scoreOf data log k1 b seen last tokens chunkId) := by
  have among : chunkId ∈ (amounts data log k1 b seen last order tokens).map Prod.fst := by
    rw [map_fst_amounts]
    exact mem_reached.mpr reached
  rw [get?_addAll, if_pos among, total_amounts]

theorem get?_scores_eq_none {order : SetOrder} {chunkId : String}
    (missed : ¬ Reaches data seen tokens chunkId) :
    (OrderedDict.empty.addAll (amounts data log k1 b seen last order tokens)).get? chunkId =
      none := by
  have absent : chunkId ∉ (amounts data log k1 b seen last order tokens).map Prod.fst := by
    rw [map_fst_amounts]
    exact fun member => missed (mem_reached.mp member)
  rw [get?_addAll, if_neg absent]

variable [LinearOrder R]

/-- Ranks among equal scores go by the query, then by who leads the set. -/
theorem ahead_of_choosing {leader : FilledSet String → String} {first second : String}
    (ahead : [first, second].Sublist
      (rankedIds data log k1 b seen last (.choosing leader) tokens))
    (tied : scoreOf data log k1 b seen last tokens first =
      scoreOf data log k1 b seen last tokens second) :
    found data seen tokens first < found data seen tokens second ∨
      found data seen tokens first = found data seen tokens second ∧
        ∃ set, foundSet data seen tokens first = some set ∧ second ≠ leader set := by
  have ranked := rankedIds_pairwise data log k1 b seen last tokens (.choosing leader)
    (fun token _ other => other ≠ leader (holders data token seen)) fun token _ =>
      SetOrder.leading_pairwise (leader (holders data token seen)) token _
  rcases List.pairwise_iff_forall_sublist.mp ranked ahead with less | ⟨_, place⟩
  · exact absurd tied.symm less.ne
  · refine place.imp_right fun ⟨same, token, finds, led⟩ => ⟨same, holders data token seen, ?_, led⟩
    rw [foundSet, finds, Option.map_some]

variable (data seen last tokens log k1 b) in
/-- By score, then by the query, then by the order of the set in which both are found. -/
def RanksAhead (order : SetOrder) (first second : String) : Prop :=
  scoreOf data log k1 b seen last tokens second < scoreOf data log k1 b seen last tokens first ∨
    scoreOf data log k1 b seen last tokens second =
        scoreOf data log k1 b seen last tokens first ∧
      (found data seen tokens first < found data seen tokens second ∨
        found data seen tokens first = found data seen tokens second ∧
          ∃ token, tokens[found data seen tokens first]? = some token ∧
            (order.items token (holders data token seen)).idxOf first <
              (order.items token (holders data token seen)).idxOf second)

theorem rankedIds_ranksAhead (order : SetOrder) :
    (rankedIds data log k1 b seen last order tokens).Pairwise
      (RanksAhead data seen last tokens log k1 b order) :=
  rankedIds_pairwise data log k1 b seen last tokens order _ fun _ _ =>
    pairwise_idxOf (order.nodup _ _)

theorem RanksAhead.asymm {order : SetOrder} {first second : String}
    (ahead : RanksAhead data seen last tokens log k1 b order first second) :
    ¬ RanksAhead data seen last tokens log k1 b order second first := by
  intro behind
  rcases ahead with higher | ⟨same, before⟩
  · rcases behind with lower | ⟨same, _⟩
    · exact higher.asymm lower
    · exact higher.ne' same
  · rcases behind with lower | ⟨_, after⟩
    · exact lower.ne' same
    · rcases before with less | ⟨samePlace, token, finds, inFront⟩
      · rcases after with more | ⟨samePlace, _⟩
        · omega
        · omega
      · rcases after with more | ⟨_, other, findsToo, atBack⟩
        · omega
        · rw [← samePlace, finds] at findsToo
          cases findsToo
          omega

/-- Undisturbed, what ranks ahead does so in the last corpus. -/
theorem Undisturbed.ranksAhead (undisturbed : Undisturbed data seen last tokens log k1 b)
    {order : SetOrder} (uniform : order.Uniform) {first second : String}
    (firstReached : Reaches data last tokens first)
    (secondReached : Reaches data last tokens second) (differ : first ≠ second)
    (ahead : RanksAhead data seen last tokens log k1 b order first second) :
    RanksAhead data last last tokens log k1 b order first second := by
  rw [RanksAhead, undisturbed.scores first firstReached,
    undisturbed.scores second secondReached] at ahead
  refine ahead.imp_right fun ⟨same, placed⟩ => ⟨same, ?_⟩
  obtain ⟨_, ties⟩ := undisturbed.order first second firstReached secondReached differ same.symm
  obtain ⟨stays, _⟩ :=
    undisturbed.order second first secondReached firstReached differ.symm same
  rcases Nat.lt_trichotomy (found data last tokens first) (found data last tokens second)
    with less | equal | more
  · exact .inl less
  · obtain ⟨sameFound, sameSet⟩ := ties equal
    rcases placed with earlier | ⟨_, token, finds, inFront⟩
    · omega
    · rw [foundSet, finds, Option.map_some, eq_comm, foundSet, Option.map_eq_some_iff]
        at sameSet
      obtain ⟨other, findsToo, filled⟩ := sameSet
      refine .inr ⟨equal, other, findsToo, ?_⟩
      rwa [filled, uniform other token]
  · have behind := stays more
    omega

/-- Undisturbed, the ranks are those of the last corpus. -/
theorem Undisturbed.rankedIds_eq (undisturbed : Undisturbed data seen last tokens log k1 b)
    (kept : ∀ chunkId, Reaches data last tokens chunkId → Reaches data seen tokens chunkId)
    {order : SetOrder} (uniform : order.Uniform) :
    rankedIds data log k1 b seen last order tokens =
      rankedIds data log k1 b last last order tokens := by
  have perm : (rankedIds data log k1 b seen last order tokens).Perm
      (rankedIds data log k1 b last last order tokens) := by
    rw [List.perm_ext_iff_of_nodup (nodup_rankedIds order) (nodup_rankedIds order)]
    intro chunkId
    rw [mem_rankedIds, mem_rankedIds]
    exact ⟨undisturbed.reaches chunkId, kept chunkId⟩
  refine List.Perm.eq_of_pairwise ?_ ?_ (rankedIds_ranksAhead order) perm
  · exact fun first second _ _ ahead behind => absurd behind ahead.asymm
  · refine (List.Pairwise.and (rankedIds_ranksAhead order) (nodup_rankedIds order)).imp_of_mem ?_
    rintro first second firstIn secondIn ⟨ahead, differ⟩
    exact undisturbed.ranksAhead uniform (undisturbed.reaches first (mem_rankedIds.mp firstIn))
      (undisturbed.reaches second (mem_rankedIds.mp secondIn)) differ ahead

variable (log k1 b) in
theorem ahead_or_behind {first second : String} (firstReached : Reaches data last tokens first)
    (secondReached : Reaches data last tokens second) (differ : first ≠ second)
    (leader : FilledSet String → String) :
    [first, second].Sublist (rankedIds data log k1 b last last (.choosing leader) tokens) ∨
      [second, first].Sublist (rankedIds data log k1 b last last (.choosing leader) tokens) :=
  pair_sublist (mem_rankedIds.mpr firstReached) (mem_rankedIds.mpr secondReached) differ

section Ties

variable (ranks : ∀ leader, rankedIds data log k1 b seen last (.choosing leader) tokens =
    rankedIds data log k1 b last last (.choosing leader) tokens)
  (scores : ∀ chunkId, Reaches data last tokens chunkId →
    scoreOf data log k1 b seen last tokens chunkId =
      scoreOf data log k1 b last last tokens chunkId)
  {first second : String} (firstReached : Reaches data last tokens first)
  (secondReached : Reaches data last tokens second)
  (tied : scoreOf data log k1 b last last tokens first =
    scoreOf data log k1 b last last tokens second)

include ranks scores firstReached secondReached tied

/-- What stands ahead does so over both indices, whatever leads the sets. -/
theorem ahead_of_both {leader : FilledSet String → String}
    (ahead : [first, second].Sublist
      (rankedIds data log k1 b last last (.choosing leader) tokens)) :
    (found data seen tokens first < found data seen tokens second ∨
        found data seen tokens first = found data seen tokens second ∧
          ∃ set, foundSet data seen tokens first = some set ∧ second ≠ leader set) ∧
      (found data last tokens first < found data last tokens second ∨
        found data last tokens first = found data last tokens second ∧
          ∃ set, foundSet data last tokens first = some set ∧ second ≠ leader set) := by
  refine ⟨ahead_of_choosing (ranks leader ▸ ahead) ?_, ahead_of_choosing ahead tied⟩
  rw [scores first firstReached, scores second secondReached, tied]

variable (differ : first ≠ second)

include differ

theorem found_lt_of_both (less : found data last tokens first < found data last tokens second) :
    found data seen tokens first < found data seen tokens second := by
  rcases ahead_or_behind log k1 b firstReached secondReached differ (fun _ => second)
    with ahead | behind
  · obtain ⟨earlier | ⟨_, set, _, led⟩, _⟩ :=
      ahead_of_both ranks scores firstReached secondReached tied ahead
    · exact earlier
    · exact absurd rfl led
  · obtain ⟨_, later | ⟨same, _⟩⟩ :=
      ahead_of_both ranks scores secondReached firstReached tied.symm behind
    · omega
    · omega

theorem found_le_of_both (equal : found data last tokens first = found data last tokens second) :
    found data seen tokens second ≤ found data seen tokens first := by
  rcases ahead_or_behind log k1 b firstReached secondReached differ (fun _ => second)
    with ahead | behind
  · obtain ⟨_, earlier | ⟨_, set, _, led⟩⟩ :=
      ahead_of_both ranks scores firstReached secondReached tied ahead
    · omega
    · exact absurd rfl led
  · obtain ⟨later | ⟨same, _⟩, _⟩ :=
      ahead_of_both ranks scores secondReached firstReached tied.symm behind
    · omega
    · omega

/-- Two sets that were not filled alike can be led by different identifiers. -/
theorem foundSet_eq_of_both (equal : found data last tokens first = found data last tokens second)
    (equalToo : found data seen tokens first = found data seen tokens second) :
    foundSet data seen tokens first = foundSet data last tokens first := by
  by_contra filled
  rcases ahead_or_behind log k1 b firstReached secondReached differ
    (fun set => if foundSet data seen tokens first = some set then first else second)
    with ahead | behind
  · obtain ⟨_, earlier | ⟨_, set, finds, led⟩⟩ :=
      ahead_of_both ranks scores firstReached secondReached tied ahead
    · omega
    · rw [if_neg fun same => filled (same.trans finds.symm)] at led
      exact led rfl
  · obtain ⟨later | ⟨_, set, finds, led⟩, _⟩ :=
      ahead_of_both ranks scores secondReached firstReached tied.symm behind
    · omega
    · rw [foundSet, ← equalToo, ← foundSet] at finds
      rw [if_pos finds] at led
      exact led rfl

end Ties

end Rankings

/-! ## Searches -/

section Searches

variable {data : UnicodeData} {earlier last : List Chunk} {R : Type} [Arithmetic R]
  [LinearOrder R] [Rounding R] {log : R → R} {k1 b : R} {query : String}

omit [Arithmetic R] [LinearOrder R] [Rounding R] in
theorem holders_kept {token chunkId : String} (held : chunkId ∈ holders data token last) :
    chunkId ∈ holders data token (earlier ++ last) := by
  obtain ⟨chunk, among, contains⟩ := mem_holders.mp held
  exact mem_holders.mpr ⟨chunk, List.mem_append_right earlier among, contains⟩

omit [Arithmetic R] [LinearOrder R] [Rounding R] in
theorem Reaches.kept {tokens : List String} {chunkId : String}
    (reaches : Reaches data last tokens chunkId) :
    Reaches data (earlier ++ last) tokens chunkId :=
  reaches.imp fun _ => And.imp_right holders_kept

omit [LinearOrder R] [Rounding R] in
theorem divisible_last {tokens : List String}
    (divisible : Divisible data k1 b (earlier ++ last) last tokens) :
    Divisible data k1 b last last tokens := by
  intro token among chunkId held
  have latest := latest_append (chunkId_of_mem_holders held) earlier
  have term := divisible token among chunkId (holders_kept held)
  rwa [chunkAt, latest, ← chunkAt] at term

section Fitted

variable {seen : List Chunk} {retriever : BM25Retriever R}
  (fitted : Fitted data log seen last retriever) (k1Same : retriever.k1 = k1)
  (bSame : retriever.b = b)

include fitted k1Same bSame

/-- A search that finds all it ranks has every one of them stored. -/
theorem stored_of_search (nonempty : last ≠ [])
    (divisible : Divisible data k1 b seen last (tokenize data query)) {order : SetOrder}
    (raisesNot : ∀ topK, ∃ hits, search data order retriever query topK = .ok hits) :
    ∀ chunkId ∈ rankedIds data log k1 b seen last order (tokenize data query),
      chunkId ∈ last.map Chunk.chunkId := by
  intro chunkId ranked
  obtain ⟨hits, searched⟩ := raisesNot
    (rankedIds data log k1 b seen last order (tokenize data query)).length
  rw [search_ranked fitted k1Same bSame nonempty divisible, sliceTo_natCast, List.take_length]
    at searched
  rw [← List.zipIdx_map_fst 1 (rankedIds data log k1 b seen last order _)] at ranked
  obtain ⟨entry, member, rfl⟩ := List.mem_map.mp ranked
  obtain ⟨hit, read⟩ := step_ok_of_mapM_ok searched member
  by_contra absent
  rw [hitOf_missing fitted absent] at read
  cases read

theorem chunkIds_of_search (divisible : Divisible data k1 b seen last (tokenize data query))
    {order : SetOrder} (stored : ∀ chunkId ∈ rankedIds data log k1 b seen last order
      (tokenize data query), chunkId ∈ last.map Chunk.chunkId) (topK : Int) :
    (search data order retriever query topK).map (List.map RetrievalHit.chunkId) =
      .ok (sliceTo (rankedIds data log k1 b seen last order (tokenize data query)) topK) := by
  rw [search_fitted fitted k1Same bSame divisible stored, Except.map, List.map_map]
  refine congrArg Except.ok (Eq.trans (List.map_congr_left fun entry _ => ?_)
    (List.zipIdx_map_fst 1 _))
  exact chunkAt_chunkId last entry.1

/-- An identifier that only earlier chunks have raises as soon as it is a hit. -/
theorem search_stale (nonempty : last ≠ [])
    (divisible : Divisible data k1 b seen last (tokenize data query)) {chunkId : String}
    (only : ∀ other, Reaches data seen (tokenize data query) other ↔ other = chunkId)
    (absent : chunkId ∉ last.map Chunk.chunkId) (order : SetOrder) {topK : Nat}
    (wanted : 0 < topK) :
    search data order retriever query topK = .error (.keyError chunkId) := by
  have ranked : rankedIds data log k1 b seen last order (tokenize data query) = [chunkId] := by
    refine List.perm_singleton.mp ?_
    rw [List.perm_ext_iff_of_nodup (nodup_rankedIds order) (List.nodup_singleton chunkId)]
    intro other
    rw [mem_rankedIds, List.mem_singleton]
    exact only other
  have first : [chunkId].take topK = [chunkId] := List.take_of_length_le wanted
  rw [search_ranked fitted k1Same bSame nonempty divisible, ranked, sliceTo_natCast, first,
    List.zipIdx_singleton, List.mapM_cons, hitOf_missing fitted absent]
  rfl

end Fitted

section Refitted

variable {refitted fresh : BM25Retriever R}
  (older : Fitted data log (earlier ++ last) last refitted)
  (newer : Fitted data log last last fresh) (k1Same : refitted.k1 = k1) (bSame : refitted.b = b)
  (k1Fresh : fresh.k1 = k1) (bFresh : fresh.b = b)

include older newer k1Same bSame k1Fresh bFresh

/-- Equal searches rank alike. -/
theorem rankedIds_of_searches (nonempty : last ≠ [])
    (divisible : Divisible data k1 b (earlier ++ last) last (tokenize data query))
    {order : SetOrder}
    (raisesNot : ∀ topK, ∃ hits, search data order refitted query topK = .ok hits)
    (same : ∀ topK, search data order refitted query topK =
      search data order fresh query topK) :
    rankedIds data log k1 b (earlier ++ last) last order (tokenize data query) =
      rankedIds data log k1 b last last order (tokenize data query) := by
  have stored := stored_of_search older k1Same bSame nonempty divisible raisesNot
  have ids := chunkIds_of_search older k1Same bSame divisible stored
    (max (rankedIds data log k1 b (earlier ++ last) last order (tokenize data query)).length
      (rankedIds data log k1 b last last order (tokenize data query)).length : Nat)
  rw [same, chunkIds_of_search newer k1Fresh bFresh (divisible_last divisible)
      fun _ => chunkId_of_ranked,
    sliceTo_natCast, sliceTo_natCast, List.take_of_length_le (le_max_right _ _),
    List.take_of_length_le (le_max_left _ _)] at ids
  exact (Except.ok.inj ids).symm

theorem search_undisturbed
    (undisturbed : Undisturbed data (earlier ++ last) last (tokenize data query) log k1 b)
    {order : SetOrder} (uniform : order.Uniform) (topK : Int) :
    search data order refitted query topK = search data order fresh query topK := by
  have ranks := undisturbed.rankedIds_eq (fun _ => Reaches.kept) uniform
  have stored : ∀ chunkId ∈ rankedIds data log k1 b (earlier ++ last) last order
      (tokenize data query), chunkId ∈ last.map Chunk.chunkId := by
    rw [ranks]
    exact fun _ => chunkId_of_ranked
  rw [search_fitted older k1Same bSame undisturbed.divisible stored,
    search_fitted newer k1Fresh bFresh (divisible_last undisturbed.divisible)
      fun _ => chunkId_of_ranked, ranks]
  refine congrArg Except.ok (List.map_congr_left fun entry member => ?_)
  have ranked := mem_of_mem_sliceTo (List.fst_mem_of_mem_zipIdx member)
  rw [undisturbed.scores entry.1 (mem_rankedIds.mp ranked)]

omit [Rounding R] in
/-- The scores of both searches, before they are rounded. -/
theorem scores_of_loops
    (divisible : Divisible data k1 b (earlier ++ last) last (tokenize data query))
    (order : SetOrder) :
    ∃ scores freshScores,
      (tokenize data query).foldlM (scoreToken order refitted) .empty = .ok scores ∧
        (tokenize data query).foldlM (scoreToken order fresh) .empty = .ok freshScores ∧
        (∀ chunkId, Reaches data last (tokenize data query) chunkId →
          scores.get? chunkId =
              some (scoreOf data log k1 b (earlier ++ last) last (tokenize data query) chunkId) ∧
            freshScores.get? chunkId =
              some (scoreOf data log k1 b last last (tokenize data query) chunkId)) ∧
        ∀ chunkId, ¬ Reaches data (earlier ++ last) (tokenize data query) chunkId →
          scores.get? chunkId = none ∧ freshScores.get? chunkId = none :=
  ⟨_, _, foldlM_scoreToken_fitted older k1Same bSame divisible order,
    foldlM_scoreToken_fitted newer k1Fresh bFresh (divisible_last divisible) order,
    fun _ reached => ⟨get?_scores reached.kept, get?_scores reached⟩,
    fun _ missed => ⟨get?_scores_eq_none missed,
      get?_scores_eq_none fun reached => missed reached.kept⟩⟩

/-- Searches that agree whatever leads the sets are undisturbed. -/
theorem undisturbed_of_searches (nonempty : last ≠ [])
    (same : ∀ order : SetOrder, order.Uniform → ∀ topK,
      search data order refitted query topK = search data order fresh query topK)
    (raisesNot : ∀ order topK, ∃ hits, search data order refitted query topK = .ok hits)
    (adds : ∀ order, ∃ scores freshScores,
      (tokenize data query).foldlM (scoreToken order refitted) .empty = .ok scores ∧
        (tokenize data query).foldlM (scoreToken order fresh) .empty = .ok freshScores ∧
        ∀ chunkId, scores.get? chunkId = freshScores.get? chunkId) :
    Undisturbed data (earlier ++ last) last (tokenize data query) log k1 b := by
  have divisible : Divisible data k1 b (earlier ++ last) last (tokenize data query) := by
    by_contra vanishing
    obtain ⟨hits, searched⟩ := raisesNot (.leading "") 0
    rw [search_fitted_error older k1Same bSame nonempty vanishing] at searched
    cases searched
  have ranks (leader : FilledSet String → String) :=
    rankedIds_of_searches older newer k1Same bSame k1Fresh bFresh nonempty divisible
      (raisesNot (.choosing leader)) (same _ (SetOrder.choosing_uniform leader))
  have scores : ∀ chunkId, Reaches data last (tokenize data query) chunkId →
      scoreOf data log k1 b (earlier ++ last) last (tokenize data query) chunkId =
        scoreOf data log k1 b last last (tokenize data query) chunkId := by
    intro chunkId reached
    obtain ⟨scores, freshScores, scored, scoredFresh, values, _⟩ :=
      scores_of_loops older newer k1Same bSame k1Fresh bFresh divisible (.leading "")
    obtain ⟨others, freshOthers, scoredToo, scoredFreshToo, agree⟩ := adds (.leading "")
    obtain rfl := Except.ok.inj (scored.symm.trans scoredToo)
    obtain rfl := Except.ok.inj (scoredFresh.symm.trans scoredFreshToo)
    obtain ⟨value, freshValue⟩ := values chunkId reached
    exact Option.some.inj (value.symm.trans ((agree chunkId).trans freshValue))
  refine ⟨divisible, fun chunkId reached => ?_, scores, ?_⟩
  · have ranked : chunkId ∈ rankedIds data log k1 b (earlier ++ last) last
        (.choosing fun _ => "") (tokenize data query) := mem_rankedIds.mpr reached
    rw [ranks] at ranked
    exact mem_rankedIds.mp ranked
  · intro first second firstReached secondReached differ tied
    refine ⟨found_lt_of_both ranks scores firstReached secondReached tied differ,
      fun equal => ?_⟩
    have together := le_antisymm
      (found_le_of_both ranks scores secondReached firstReached tied.symm differ.symm equal.symm)
      (found_le_of_both ranks scores firstReached secondReached tied differ equal)
    exact ⟨together,
      foundSet_eq_of_both ranks scores firstReached secondReached tied differ equal together⟩

end Refitted

end Searches

variable {data : UnicodeData} {R : Type} [Arithmetic R] [LinearOrder R] [Rounding R] {log : R → R}

variable (data log) in
/-- A search after the last fit is one on a retriever that has seen the last corpus only: it
has the same hits for any iteration of the sets, never raises, and adds up the same scores. -/
structure Replaces (k1 b : R) (corpora : List (List Chunk)) (last : List Chunk)
    (query : String) : Prop where
  hits : ∀ order : SetOrder, order.Uniform → ∀ topK,
    search data order (fitAll data log (init k1 b) (corpora ++ [last])) query topK =
      search data order (fit data log (init k1 b) last) query topK
  raisesNot : ∀ order topK, ∃ hits,
    search data order (fitAll data log (init k1 b) (corpora ++ [last])) query topK = .ok hits
  scores : last ≠ [] → ∀ order, ∃ scores freshScores,
    (tokenize data query).foldlM (scoreToken order
        (fitAll data log (init k1 b) (corpora ++ [last]))) .empty = .ok scores ∧
      (tokenize data query).foldlM (scoreToken order (fit data log (init k1 b) last)) .empty =
        .ok freshScores ∧
      ∀ chunkId, scores.get? chunkId = freshScores.get? chunkId

section Exact

variable {data : UnicodeData} {seen earlier last : List Chunk} {token chunkId : String} {R : Type}
  [Field R] {log : R → R} {k1 b : R}

theorem scoreOf_eq_sum (known : chunkId ∈ seen.map Chunk.chunkId) (tokens : List String) :
    scoreOf data log k1 b seen last tokens chunkId =
      (tokens.map fun token => amount data log k1 b seen last token chunkId).sum := by
  refine runningSum_filter fun token unheld => ?_
  have absent : token ∉ tokensOf data (chunkAt seen chunkId) := by
    obtain ⟨chunk, stored⟩ := Option.isSome_iff_exists.mp (latest_isSome_iff.mpr known)
    obtain ⟨within, named⟩ := chunk_of_latest stored
    rw [chunkAt, stored, Option.getD_some]
    exact fun contains => of_decide_eq_false unheld
      (mem_holders.mpr ⟨chunk, within, contains, named⟩)
  rw [amount, termFactor_of_not_mem _ _ _ _ _ absent, mul_zero]

variable (known : chunkId ∈ last.map Chunk.chunkId)

omit [Field R] in
include known in
theorem chunkAt_append : chunkAt (earlier ++ last) chunkId = chunkAt last chunkId := by
  rw [chunkAt, latest_append known, ← chunkAt]

include known in
/-- A token adds the same where all its earlier identifiers are of the last corpus too. -/
theorem amount_of_fresh (fresh : token ∈ tokensOf data (chunkAt last chunkId) →
      ∀ other ∈ holders data token earlier, other ∈ holders data token last) :
    amount data log k1 b (earlier ++ last) last token chunkId =
      amount data log k1 b last last token chunkId := by
  rw [amount, amount, chunkAt_append known]
  by_cases contains : token ∈ tokensOf data (chunkAt last chunkId)
  · have same : (holders data token (earlier ++ last)).card = (holders data token last).card := by
      refine le_antisymm (FilledSet.card_le fun other held => ?_)
        (FilledSet.card_le fun _ => holders_kept)
      obtain ⟨chunk, among, holds⟩ := mem_holders.mp held
      rcases List.mem_append.mp among with old | new
      · exact fresh contains other (mem_holders.mpr ⟨chunk, old, holds⟩)
      · exact mem_holders.mpr ⟨chunk, new, holds⟩
    rw [same]
  · rw [termFactor_of_not_mem _ _ _ _ _ contains, mul_zero, mul_zero]

variable [LinearOrder R] [IsStrictOrderedRing R]
  (rising : ∀ low high : R, 0 < low → low < high → log low < log high)

include rising

/-- A token is worth less the more identifiers it leads to. -/
theorem idfOf_lt (numDocs : Nat) {few many : Nat} (more : few < many) :
    idfOf log numDocs many < idfOf log numDocs few := by
  have half : (0 : R) < 0.5 := by norm_num
  have positive (nQ : Nat) : (0 : R) < nQ + 0.5 := add_pos_of_nonneg_of_pos (Nat.cast_nonneg _) half
  have value (nQ : Nat) : ((((numDocs : Int) - nQ : Int) : R) + 0.5) / (nQ + 0.5) + 1 =
      (numDocs + 1) / (nQ + 0.5) := by
    rw [div_add_one (positive nQ).ne', Int.cast_sub, Int.cast_natCast, Int.cast_natCast]
    congr 1
    ring
  have total : (0 : R) < numDocs + 1 := add_pos_of_nonneg_of_pos (Nat.cast_nonneg _) one_pos
  unfold idfOf
  rw [value, value]
  refine rising _ _ (div_pos total (positive many)) ?_
  refine div_lt_div_of_pos_left total (positive few) ?_
  exact add_lt_add_left (Nat.cast_lt.mpr more) _

variable (weight : 0 < k1) (lower : 0 ≤ b) (upper : b < 1)

include weight lower upper known

/-- A stale identifier of a token lowers what the token adds. -/
theorem amount_of_stale (contains : token ∈ tokensOf data (chunkAt last chunkId))
    {other : String} (stale : other ∈ holders data token earlier)
    (absent : other ∉ holders data token last) :
    amount data log k1 b (earlier ++ last) last token chunkId <
      amount data log k1 b last last token chunkId := by
  obtain ⟨chunk, among, holds⟩ := mem_holders.mp stale
  have grown : (holders data token last).card < (holders data token (earlier ++ last)).card :=
    FilledSet.card_lt (fun _ => holders_kept)
      (mem_holders.mpr ⟨chunk, List.mem_append_left last among, holds⟩) absent
  have factor : 0 < termFactor k1 b (meanLength data last)
      (tokensOf data (chunkAt last chunkId)) token :=
    div_pos (mul_pos (Nat.cast_pos.mpr (List.count_pos_iff.mpr contains))
      (add_pos weight one_pos)) (damped_pos weight lower upper (meanLength_nonneg last) _ _)
  rw [amount, amount, chunkAt_append known]
  exact mul_lt_mul_of_pos_right (idfOf_lt rising last.length grown) factor

/-- With exact numbers a score stays what it is in the last corpus if and only if no earlier
corpus has added to the set of a query token that the chunk has. -/
theorem scoreOf_kept_iff (tokens : List String) :
    scoreOf data log k1 b (earlier ++ last) last tokens chunkId =
        scoreOf data log k1 b last last tokens chunkId ↔
      ∀ token ∈ tokens, token ∈ tokensOf data (chunkAt last chunkId) →
        ∀ other ∈ holders data token earlier, other ∈ holders data token last := by
  have knownToo : chunkId ∈ (earlier ++ last).map Chunk.chunkId := by
    rw [List.map_append]
    exact List.mem_append_right _ known
  rw [scoreOf_eq_sum knownToo, scoreOf_eq_sum known]
  constructor
  · intro same token among contains other stale
    by_contra absent
    refine (List.sum_lt_sum _ _ (fun token _ => ?_) ⟨token, among,
      amount_of_stale known rising weight lower upper contains stale absent⟩).ne same
    by_cases fresh : token ∈ tokensOf data (chunkAt last chunkId) →
        ∀ other ∈ holders data token earlier, other ∈ holders data token last
    · exact (amount_of_fresh known fresh).le
    · simp only [not_forall] at fresh
      obtain ⟨contains, other, stale, absent⟩ := fresh
      exact (amount_of_stale known rising weight lower upper contains stale absent).le
  · intro fresh
    exact congrArg List.sum (List.map_congr_left fun token among =>
      amount_of_fresh known (fresh token among))

omit rising known in
/-- Parameters in their range divide by nothing that vanishes. -/
theorem divisible_of_reaches {tokens : List String}
    (reaches : ∀ chunkId, Reaches data seen tokens chunkId → Reaches data last tokens chunkId) :
    Divisible data k1 b seen last tokens := by
  intro token among chunkId held
  obtain ⟨other, _, heldToo⟩ := reaches chunkId ⟨token, among, held⟩
  exact ⟨meanLength_ne_zero heldToo,
    (damped_pos weight lower upper (meanLength_nonneg last) _ token).ne'⟩

end Exact

private def inflationChunk : Chunk :=
  { chunkId := "d1_c0", documentId := "d1", text := "Inflation rose." }

private def ratesChunk : Chunk :=
  { chunkId := "d2_c0", documentId := "d2", text := "Rates fell." }

private def revisedChunk : Chunk :=
  { chunkId := "d1_c0", documentId := "d1", text := "Rates fell." }

private def growthChunk : Chunk :=
  { chunkId := "d2_c0", documentId := "d2", text := "Growth slowed." }

end BM25Retriever

end DurableAgent.Retrieval
