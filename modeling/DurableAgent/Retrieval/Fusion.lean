import DurableAgent.Library.FallibleSteps
import DurableAgent.Library.Rounding
import DurableAgent.Retrieval.Bm25
import Mathlib.Data.Rat.Floor
import Mathlib.Tactic.NormNum

/-!
# Fusion and reranking

`retrieval/hybrid.py` and `retrieval/reranker.py`. Scores are exact. The hits of both
retrievers are records; only their identifiers, documents and texts are read.
-/

set_option autoImplicit false

namespace DurableAgent.Retrieval

open Library OrderedDict Python

structure ReciprocalRankFusion where
  k : Nat := 60

/-- What the fusion keeps of the first hit of a chunk. -/
structure Source where
  chunkId : String
  documentId : String
  text : String
  deriving DecidableEq, Repr

structure FusedHit extends Source where
  rrfScore : ℚ
  combinedRank : Nat
  deriving DecidableEq, Repr

namespace ReciprocalRankFusion

variable {Score : Type}

structure Fusing where
  rrfScores : OrderedDict String ℚ
  chunkLookup : OrderedDict String Source

def sourceOf (hit : RetrievalHit Score) : Source where
  chunkId := hit.chunkId
  documentId := hit.documentId
  text := hit.text

def addHit (k : Nat) (fusing : Fusing) (entry : RetrievalHit Score × Nat) : Fusing where
  rrfScores := fusing.rrfScores.add entry.1.chunkId (1 / (k + entry.2))
  chunkLookup :=
    if entry.1.chunkId ∈ fusing.chunkLookup.keys then fusing.chunkLookup
    else fusing.chunkLookup.insert entry.1.chunkId (sourceOf entry.1)

def addHits (k : Nat) (fusing : Fusing) (hits : List (RetrievalHit Score)) : Fusing :=
  (hits.zipIdx 1).foldl (addHit k) fusing

def fusedHit (chunkLookup : OrderedDict String Source) (entry : (String × ℚ) × Nat) :
    Except RetrievalError FusedHit := do
  let source ← BM25Retriever.lookup chunkLookup entry.1.1
  return { source with rrfScore := roundTo 6 entry.1.2, combinedRank := entry.2 }

def fuse (fusion : ReciprocalRankFusion) (bm25Hits vectorHits : List (RetrievalHit Score)) :
    Except RetrievalError (List FusedHit) :=
  let fusing := addHits fusion.k (addHits fusion.k ⟨.empty, .empty⟩ bm25Hits) vectorHits
  ((rankBy Prod.snd fusing.rrfScores.entries).zipIdx 1).mapM (fusedHit fusing.chunkLookup)

/-! ## The tables -/

section Tables

variable (k : Nat) {fusing : Fusing} {hits : List (RetrievalHit Score)}

/-- What the ranks of a list add to the scores. -/
def reciprocals (hits : List (RetrievalHit Score)) : List (String × ℚ) :=
  (hits.zipIdx 1).map fun entry => (entry.1.chunkId, 1 / (k + entry.2))

theorem map_fst_reciprocals :
    (reciprocals k hits).map Prod.fst = hits.map RetrievalHit.chunkId := by
  rw [reciprocals, List.map_map]
  exact map_numbered RetrievalHit.chunkId 1 hits

theorem addHits_rrfScores :
    (addHits k fusing hits).rrfScores = fusing.rrfScores.addAll (reciprocals k hits) := by
  unfold addHits reciprocals
  generalize hits.zipIdx 1 = entries
  induction entries generalizing fusing with
  | nil => rfl
  | cons entry rest ih => exact ih

theorem addHit_chunkLookup (entry : RetrievalHit Score × Nat) (chunkId : String) :
    (addHit k fusing entry).chunkLookup.get? chunkId =
      (fusing.chunkLookup.get? chunkId).or
        (if entry.1.chunkId = chunkId then some (sourceOf entry.1) else none) := by
  unfold addHit
  by_cases known : entry.1.chunkId ∈ fusing.chunkLookup.keys
  · obtain ⟨source, found⟩ := Option.isSome_iff_exists.mp (get?_isSome_iff.mpr known)
    by_cases same : entry.1.chunkId = chunkId
    · subst same
      simp [known, found]
    · simp [known, same]
  · have missing := get?_eq_none_iff.mpr known
    by_cases same : entry.1.chunkId = chunkId
    · subst same
      simp [known, missing]
    · have other : chunkId ≠ entry.1.chunkId := fun equal => same equal.symm
      simp [known, same, get?_insert, other]

/-- The first hit of a chunk is kept. -/
theorem addHits_chunkLookup (chunkId : String) :
    (addHits k fusing hits).chunkLookup.get? chunkId =
      (fusing.chunkLookup.get? chunkId).or
        ((hits.find? fun hit => decide (hit.chunkId = chunkId)).map sourceOf) := by
  unfold addHits
  generalize 1 = start
  induction hits generalizing fusing start with
  | nil => simp
  | cons hit rest ih =>
      rw [List.zipIdx_cons, List.foldl_cons, ih, addHit_chunkLookup, Option.or_assoc]
      by_cases same : hit.chunkId = chunkId
      · simp [same]
      · simp [same]

end Tables

/-! ## The fused hits -/

section Fused

variable (k : Nat) (left right : List (RetrievalHit Score))

def rrfScore (chunkId : String) : ℚ := total chunkId (reciprocals k left ++ reciprocals k right)

/-- The identifiers of both lists in the order of their scores. -/
def fusedIds : List String :=
  rankBy (rrfScore k left right) ((left ++ right).map RetrievalHit.chunkId).eraseDups

/-- What stands for an identifier of neither list is not used. -/
def sourceFor (chunkId : String) : Source :=
  (((left ++ right).find? fun hit => decide (hit.chunkId = chunkId)).map sourceOf).getD
    { chunkId := chunkId, documentId := "", text := "" }

def fusedAt (entry : String × Nat) : FusedHit :=
  { sourceFor left right entry.1 with
    rrfScore := roundTo 6 (rrfScore k left right entry.1)
    combinedRank := entry.2 }

variable {k left right}

theorem mem_fusedIds {chunkId : String} :
    chunkId ∈ fusedIds k left right ↔
      chunkId ∈ left.map RetrievalHit.chunkId ∨ chunkId ∈ right.map RetrievalHit.chunkId := by
  rw [fusedIds, mem_rankBy, List.mem_eraseDups, List.map_append, List.mem_append]

theorem nodup_fusedIds : (fusedIds k left right).Nodup :=
  (rankBy_perm _ _).nodup_iff.mpr (nodup_eraseDups _)

theorem sourceFor_chunkId (chunkId : String) : (sourceFor left right chunkId).chunkId = chunkId := by
  unfold sourceFor
  cases found : (left ++ right).find? fun hit => decide (hit.chunkId = chunkId) with
  | none => rfl
  | some hit =>
      have named := List.find?_some found
      exact of_decide_eq_true named

theorem chunkLookup_sourceFor {chunkId : String} (member : chunkId ∈ fusedIds k left right) :
    (addHits k (addHits k ⟨.empty, .empty⟩ left) right).chunkLookup.get? chunkId =
      some (sourceFor left right chunkId) := by
  have named : ∃ hit ∈ left ++ right, hit.chunkId = chunkId := by
    simpa [or_and_right, exists_or] using mem_fusedIds.mp member
  rw [addHits_chunkLookup, addHits_chunkLookup, get?_empty, Option.none_or, ← Option.map_or,
    ← List.find?_append, sourceFor]
  cases found : (left ++ right).find? fun hit => decide (hit.chunkId = chunkId) with
  | none =>
      obtain ⟨hit, among, same⟩ := named
      exact absurd (decide_eq_true same) (List.find?_eq_none.mp found hit among)
  | some hit => rfl

theorem rankBy_rrfScores :
    rankBy Prod.snd (addHits k (addHits k ⟨.empty, .empty⟩ left) right).rrfScores.entries =
      (fusedIds k left right).map fun chunkId => (chunkId, rrfScore k left right chunkId) := by
  rw [addHits_rrfScores, addHits_rrfScores, addAll_append, entries_addAll, List.map_append,
    map_fst_reciprocals, map_fst_reciprocals, ← List.map_append]
  exact rankBy_map Prod.snd _ _

/-- A fusion has the source of every chunk that it ranks. -/
theorem fuse_eq (fusion : ReciprocalRankFusion) :
    fuse fusion left right =
      .ok (((fusedIds fusion.k left right).zipIdx 1).map (fusedAt fusion.k left right)) := by
  unfold fuse
  simp only [rankBy_rrfScores, List.zipIdx_map, List.mapM_map]
  refine mapM_ok fun entry member => ?_
  have ranked := List.fst_mem_of_mem_zipIdx member
  simp only [Function.comp_apply, fusedHit, BM25Retriever.lookup, Prod.map,
    chunkLookup_sourceFor ranked]
  rfl

end Fused

/-! ## Rank evidence -/

section Evidence

variable {k : Nat} {hits left right : List (RetrievalHit Score)} {first second : String}

theorem idxOf_lt_of_ahead {ids : List String} (distinct : ids.Nodup)
    (ahead : [first, second].Sublist ids) : ids.idxOf first < ids.idxOf second :=
  List.pairwise_iff_forall_sublist.mp (pairwise_idxOf distinct) ahead

variable (k) in
/-- What one list of distinct identifiers adds to a score. -/
def evidence (ids : List String) (chunkId : String) : ℚ :=
  if chunkId ∈ ids then 1 / (k + (ids.idxOf chunkId + 1 : Nat)) else 0

theorem total_evidence {ids : List String} (distinct : ids.Nodup) (chunkId : String) :
    total chunkId ((ids.zipIdx 1).map fun entry => (entry.1, (1 / (k + entry.2) : ℚ))) =
      evidence k ids chunkId := by
  have ranked : ((ids.zipIdx 1).map fun entry => (entry.1, (1 / (k + entry.2) : ℚ))) =
      ids.map fun chunkId => (chunkId, (1 / (k + (ids.idxOf chunkId + 1 : Nat)) : ℚ)) := by
    refine List.ext_getElem (by simp) fun index inside within => ?_
    have place := distinct.idxOf_getElem index (by simpa using within)
    simp [place, add_comm]
  rw [ranked, total_map distinct, evidence]

theorem total_reciprocals (distinct : (hits.map RetrievalHit.chunkId).Nodup) (chunkId : String) :
    total chunkId (reciprocals k hits) = evidence k (hits.map RetrievalHit.chunkId) chunkId := by
  rw [← total_evidence distinct, List.zipIdx_map, List.map_map]
  rfl

theorem evidence_nonneg (ids : List String) (chunkId : String) : 0 ≤ evidence k ids chunkId := by
  unfold evidence
  split
  · positivity
  · exact le_refl _

theorem evidence_le (ids : List String) (chunkId : String) :
    evidence k ids chunkId ≤ 1 / (k + 1) := by
  unfold evidence
  split
  · refine one_div_le_one_div_of_le (by positivity) ?_
    have place : (1 : ℚ) ≤ (ids.idxOf chunkId + 1 : Nat) := Nat.one_le_cast.mpr (by omega)
    exact add_le_add le_rfl place
  · positivity

theorem evidence_lt_of_ahead {ids : List String} (distinct : ids.Nodup)
    (ahead : [first, second].Sublist ids) : evidence k ids second < evidence k ids first := by
  have less := idxOf_lt_of_ahead distinct ahead
  have firstIn : first ∈ ids := ahead.subset (by simp)
  have secondIn : second ∈ ids := ahead.subset (by simp)
  rw [evidence, evidence, if_pos firstIn, if_pos secondIn]
  refine one_div_lt_one_div_of_lt (by positivity) ?_
  exact add_lt_add_of_le_of_lt le_rfl (Nat.cast_lt.mpr (by omega))

theorem evidence_le_of_absent {ids : List String} (absent : second ∉ ids) :
    evidence k ids second ≤ evidence k ids first := by
  rw [evidence, if_neg absent]
  exact evidence_nonneg ids first

/-- Ahead in both lists, or in one of them while the other has only the first or none. -/
def Precedes (left right : List String) (first second : String) : Prop :=
  [first, second].Sublist left ∧ ([first, second].Sublist right ∨ second ∉ right) ∨
    [first, second].Sublist right ∧ second ∉ left

variable (leftDistinct : (left.map RetrievalHit.chunkId).Nodup)
  (rightDistinct : (right.map RetrievalHit.chunkId).Nodup)

include leftDistinct rightDistinct

theorem rrfScore_eq (chunkId : String) :
    rrfScore k left right chunkId = evidence k (left.map RetrievalHit.chunkId) chunkId +
      evidence k (right.map RetrievalHit.chunkId) chunkId := by
  rw [rrfScore, total_append, total_reciprocals leftDistinct, total_reciprocals rightDistinct]

theorem rrfScore_nonneg (chunkId : String) : 0 ≤ rrfScore k left right chunkId := by
  rw [rrfScore_eq leftDistinct rightDistinct]
  exact add_nonneg (evidence_nonneg _ _) (evidence_nonneg _ _)

theorem rrfScore_le (chunkId : String) : rrfScore k left right chunkId ≤ 2 / (k + 1) := by
  rw [rrfScore_eq leftDistinct rightDistinct, ← one_add_one_eq_two, add_div]
  exact add_le_add (evidence_le _ _) (evidence_le _ _)

theorem rrfScore_lt
    (precedes : Precedes (left.map RetrievalHit.chunkId) (right.map RetrievalHit.chunkId) first
      second) : rrfScore k left right second < rrfScore k left right first := by
  rw [rrfScore_eq leftDistinct rightDistinct, rrfScore_eq leftDistinct rightDistinct]
  rcases precedes with ⟨inLeft, inRight | absent⟩ | ⟨inRight, absent⟩
  · exact add_lt_add (evidence_lt_of_ahead leftDistinct inLeft)
      (evidence_lt_of_ahead rightDistinct inRight)
  · exact add_lt_add_of_lt_of_le (evidence_lt_of_ahead leftDistinct inLeft)
      (evidence_le_of_absent absent)
  · exact add_lt_add_of_le_of_lt (evidence_le_of_absent absent)
      (evidence_lt_of_ahead rightDistinct inRight)

theorem fusedIds_ahead
    (precedes : Precedes (left.map RetrievalHit.chunkId) (right.map RetrievalHit.chunkId) first
      second) : [first, second].Sublist (fusedIds k left right) := by
  have ranked (chunkId : String) (member : chunkId ∈ left.map RetrievalHit.chunkId ∨
      chunkId ∈ right.map RetrievalHit.chunkId) :
      chunkId ∈ ((left ++ right).map RetrievalHit.chunkId).eraseDups := by
    rwa [List.mem_eraseDups, List.map_append, List.mem_append]
  have less := rrfScore_lt (k := k) leftDistinct rightDistinct precedes
  rcases precedes with ⟨inLeft, _⟩ | ⟨inRight, _⟩
  · exact rankBy_ahead_of_lt (ranked first (.inl (inLeft.subset (by simp))))
      (ranked second (.inl (inLeft.subset (by simp)))) less
  · exact rankBy_ahead_of_lt (ranked first (.inr (inRight.subset (by simp))))
      (ranked second (.inr (inRight.subset (by simp)))) less

end Evidence

end ReciprocalRankFusion

namespace RuleBasedReranker

def isBoosted (chunkId : String) : Bool := occursIn "arima" chunkId || occursIn "backtest" chunkId

def boost (hit : FusedHit) : FusedHit :=
  if isBoosted hit.chunkId then { hit with rrfScore := hit.rrfScore + 0.05 } else hit

def rerank (fusedHits : List FusedHit) : List FusedHit :=
  rankBy FusedHit.rrfScore (fusedHits.map boost)

theorem boost_chunkId (hit : FusedHit) : (boost hit).chunkId = hit.chunkId := by
  unfold boost
  split
  · rfl
  · rfl

theorem boost_rrfScore (hit : FusedHit) :
    (boost hit).rrfScore = hit.rrfScore + if isBoosted hit.chunkId then 0.05 else 0 := by
  unfold boost
  split
  · rfl
  · exact (add_zero _).symm

/-- With scores below the boost, the reranker moves the boosted hits to the front. -/
theorem rerank_eq {fusedHits : List FusedHit} (lower : ∀ hit ∈ fusedHits, 0 ≤ hit.rrfScore)
    (upper : ∀ hit ∈ fusedHits, hit.rrfScore < 0.05)
    (ranked : fusedHits.Pairwise fun first second => second.rrfScore ≤ first.rrfScore) :
    (rerank fusedHits).map (·.chunkId) =
      (fusedHits.map (·.chunkId)).filter isBoosted ++
        (fusedHits.map (·.chunkId)).filter fun chunkId => !isBoosted chunkId := by
  have split : rerank fusedHits =
      (fusedHits.map boost).filter (fun hit : FusedHit => isBoosted hit.chunkId) ++
        (fusedHits.map boost).filter fun hit : FusedHit => !isBoosted hit.chunkId := by
    refine rankBy_partition (fun hit : FusedHit => isBoosted hit.chunkId) ?_ ?_
    · intro first firstIn second secondIn boosted plain
      obtain ⟨firstHit, firstWithin, rfl⟩ := List.mem_map.mp firstIn
      obtain ⟨secondHit, secondWithin, rfl⟩ := List.mem_map.mp secondIn
      rw [boost_chunkId] at boosted plain
      rw [boost_rrfScore, boost_rrfScore, boosted, plain]
      have below := upper secondHit secondWithin
      have above := lower firstHit firstWithin
      simp
      linarith
    · refine List.pairwise_map.mpr (ranked.imp fun order alike => ?_)
      rw [boost_chunkId, boost_chunkId] at alike
      rw [boost_rrfScore, boost_rrfScore, alike]
      exact add_le_add order le_rfl
  have ids : (fusedHits.map boost).map (·.chunkId) = fusedHits.map (·.chunkId) := by
    rw [List.map_map]
    exact List.map_congr_left fun hit _ => boost_chunkId hit
  have kept (wanted : String → Bool) (hits : List FusedHit) :
      (hits.filter fun hit => wanted hit.chunkId).map (·.chunkId) =
        (hits.map (·.chunkId)).filter wanted := List.filter_map.symm
  rw [split, List.map_append, kept, kept fun chunkId => !isBoosted chunkId, ids]

end RuleBasedReranker

/-! ## Both together -/

open ReciprocalRankFusion RuleBasedReranker

variable {Score : Type} {left right : List (RetrievalHit Score)}

/-- The fused hits are those of both lists, each once, and keep the evidence of the ranks. -/
structure FusesEvidence (left right : List (RetrievalHit Score)) (fused : List FusedHit) :
    Prop where
  distinct : (fused.map (·.chunkId)).Nodup
  union : ∀ chunkId, chunkId ∈ fused.map (·.chunkId) ↔
    chunkId ∈ left.map RetrievalHit.chunkId ∨ chunkId ∈ right.map RetrievalHit.chunkId
  ranks : fused.map FusedHit.combinedRank = List.range' 1 fused.length
  order : ∀ first second,
    Precedes (left.map RetrievalHit.chunkId) (right.map RetrievalHit.chunkId) first second →
      [first, second].Sublist (fused.map (·.chunkId))

theorem map_chunkId_fusedAt (k : Nat) :
    (((fusedIds k left right).zipIdx 1).map (fusedAt k left right)).map (·.chunkId) =
      fusedIds k left right := by
  rw [List.map_map]
  refine (List.map_congr_left fun entry _ => sourceFor_chunkId entry.1).trans ?_
  exact List.zipIdx_map_fst 1 _

theorem fusesEvidence (leftDistinct : (left.map RetrievalHit.chunkId).Nodup)
    (rightDistinct : (right.map RetrievalHit.chunkId).Nodup) (k : Nat) :
    FusesEvidence left right (((fusedIds k left right).zipIdx 1).map (fusedAt k left right)) where
  distinct := by
    rw [map_chunkId_fusedAt]
    exact nodup_fusedIds
  union := by
    intro chunkId
    rw [map_chunkId_fusedAt]
    exact mem_fusedIds
  ranks := by
    rw [List.map_map, List.length_map, List.length_zipIdx]
    exact List.zipIdx_map_snd ..
  order := by
    intro first second precedes
    rw [map_chunkId_fusedAt]
    exact fusedIds_ahead leftDistinct rightDistinct precedes

/-- A fused score is not negative and stays below the boost. -/
theorem fusedAt_rrfScore (leftDistinct : (left.map RetrievalHit.chunkId).Nodup)
    (rightDistinct : (right.map RetrievalHit.chunkId).Nodup) (entry : String × Nat) :
    0 ≤ (fusedAt 60 left right entry).rrfScore ∧
      (fusedAt 60 left right entry).rrfScore < 0.05 := by
  have low := rrfScore_nonneg (k := 60) leftDistinct rightDistinct entry.1
  have high := rrfScore_le (k := 60) leftDistinct rightDistinct entry.1
  have bottom : roundTo 6 (0 : ℚ) = 0 := by decide +kernel
  have top : roundTo 6 (2 / ((60 : Nat) + 1) : ℚ) < 0.05 := by decide +kernel
  constructor
  · exact bottom.symm.le.trans (roundTo_mono 6 low)
  · exact (roundTo_mono 6 high).trans_lt top

theorem ranked_fusedAt (k : Nat) :
    (((fusedIds k left right).zipIdx 1).map (fusedAt k left right)).Pairwise
      fun first second => second.rrfScore ≤ first.rrfScore := by
  have sorted : (fusedIds k left right).Pairwise _ := rankBy_sorted _ _
  rw [← List.zipIdx_map_fst 1 (fusedIds k left right), List.pairwise_map] at sorted
  exact List.pairwise_map.mpr (sorted.imp fun order => roundTo_mono 6 order)

/-- The boosted chunks come first, and neither part is reordered. -/
theorem map_chunkId_rerank (leftDistinct : (left.map RetrievalHit.chunkId).Nodup)
    (rightDistinct : (right.map RetrievalHit.chunkId).Nodup) :
    (rerank (((fusedIds 60 left right).zipIdx 1).map (fusedAt 60 left right))).map (·.chunkId) =
      (fusedIds 60 left right).filter isBoosted ++
        (fusedIds 60 left right).filter fun chunkId => !isBoosted chunkId := by
  have bounds : ∀ hit ∈ ((fusedIds 60 left right).zipIdx 1).map (fusedAt 60 left right),
      0 ≤ hit.rrfScore ∧ hit.rrfScore < 0.05 := by
    intro hit member
    obtain ⟨entry, _, rfl⟩ := List.mem_map.mp member
    exact fusedAt_rrfScore leftDistinct rightDistinct entry
  rw [rerank_eq (fun hit member => (bounds hit member).1) (fun hit member => (bounds hit member).2)
    (ranked_fusedAt 60), map_chunkId_fusedAt]

/-- Fusing keeps the evidence of the ranks, and reranking moves the boosted chunks ahead and
nothing else. -/
theorem fuse_rerank (leftDistinct : (left.map RetrievalHit.chunkId).Nodup)
    (rightDistinct : (right.map RetrievalHit.chunkId).Nodup) :
    ∃ fused, fuse {} left right = .ok fused ∧ FusesEvidence left right fused ∧
      (rerank fused).map (·.chunkId) =
        (fused.map (·.chunkId)).filter isBoosted ++
          (fused.map (·.chunkId)).filter fun chunkId => !isBoosted chunkId := by
  refine ⟨_, fuse_eq {}, fusesEvidence leftDistinct rightDistinct 60, ?_⟩
  rw [map_chunkId_fusedAt]
  exact map_chunkId_rerank leftDistinct rightDistinct

private def ratesHit : RetrievalHit ℚ :=
  { chunkId := "rates_c0", documentId := "rates", text := "Rates fell.", score := 2, rank := 1 }

private def arimaHit : RetrievalHit ℚ :=
  { chunkId := "arima_c0", documentId := "arima", text := "Fit an ARIMA model.", score := 1,
    rank := 2 }

private def pricesHit : RetrievalHit ℚ :=
  { chunkId := "prices_c0", documentId := "prices", text := "Prices rose.", score := 1, rank := 1 }

theorem fuse_rerank_rates :
    ∃ fused, fuse {} [ratesHit, arimaHit] [pricesHit, ratesHit] = .ok fused ∧
      FusesEvidence [ratesHit, arimaHit] [pricesHit, ratesHit] fused ∧
      (rerank fused).map (·.chunkId) =
        (fused.map (·.chunkId)).filter isBoosted ++
          (fused.map (·.chunkId)).filter fun chunkId => !isBoosted chunkId :=
  fuse_rerank (by decide) (by decide)

end DurableAgent.Retrieval
