import DurableAgent.Retrieval.Pipeline

/-!
# The embedding provider

`retrieval/embeddings.py`. A text that speaks of a concept gets the vector of the concept; the
vector of any other text is read off its digest.
-/

set_option autoImplicit false

namespace DurableAgent.Retrieval

open Library OrderedDict Python BM25Retriever

inductive Concept where
  | timeSeries
  | backtest
deriving DecidableEq

/-- `hashlib.md5` over the bytes of a text. -/
abbrev Digest := String → Fin 16 → Fin 256

structure FakeEmbeddingProvider where
  dimensions : Nat := 4

namespace FakeEmbeddingProvider

def containsAny (text : String) (keywords : List String) : Bool :=
  keywords.any fun keyword => occursIn keyword text

def timeSeriesKeywords : List String :=
  ["arima", "time series", "forecast", "forecasting", "historical", "sequential", "stochastic",
    "series", "training"]

def backtestKeywords : List String :=
  ["backtest", "backtesting", "trading", "systematic", "quantitative", "data leakage", "leakage"]

section Vectors

variable {R : Type} [Field R] [LinearOrder R] [FloorRing R] (data : UnicodeData) (md5 : Digest)

def tenths (count : Nat) : R := (count : R) / ((10 : Nat) : R)

def getEmbedding (provider : FakeEmbeddingProvider) (text : String) : List R :=
  if text = "" then List.replicate provider.dimensions 0
  else
    let normalized := data.lower text
    if containsAny normalized timeSeriesKeywords then [tenths 9, tenths 1, 0, 0]
    else if containsAny normalized backtestKeywords then [0, 0, tenths 8, tenths 2]
    else
      (List.range provider.dimensions).map fun i =>
        roundTo 4 (((md5 text (Fin.ofNat 16 i)).val : R) / ((255 : Nat) : R))

/-- The concept that a text speaks of; the time series are looked for first. -/
def conceptOf (text : String) : Option Concept :=
  if text = "" then none
  else if containsAny (data.lower text) timeSeriesKeywords then some .timeSeries
  else if containsAny (data.lower text) backtestKeywords then some .backtest
  else none

def conceptVector : Concept → List R
  | .timeSeries => [tenths 9, tenths 1, 0, 0]
  | .backtest => [0, 0, tenths 8, tenths 2]

variable {data} in
theorem getEmbedding_of_concept (provider : FakeEmbeddingProvider) {text : String}
    {concept : Concept} (speaks : conceptOf data text = some concept) :
    provider.getEmbedding data md5 text = (conceptVector concept : List R) := by
  unfold conceptOf at speaks
  unfold getEmbedding
  split at speaks
  · cases speaks
  · next nonempty =>
      rw [if_neg nonempty]
      dsimp only
      split at speaks
      · next series =>
          cases speaks
          rw [if_pos series]
          rfl
      · next other =>
          rw [if_neg other]
          split at speaks
          · next tested =>
              cases speaks
              rw [if_pos tested]
              rfl
          · cases speaks

end Vectors

section Cosines

variable {R : Type} [Field R] [LinearOrder R] [IsStrictOrderedRing R] {sqrt : R → R}

omit [LinearOrder R] [IsStrictOrderedRing R] in
theorem dotProduct_scaled (vec : List R) (norm : R) :
    VectorIndex.dotProduct (vec.map fun x => x / norm) (vec.map fun x => x / norm) =
      (vec.map fun x => x ^ 2).sum / (norm * norm) := by
  induction vec with
  | nil => simp [VectorIndex.dotProduct]
  | cons x rest ih =>
      have tail : (List.zipWith (fun a b => a * b) (rest.map fun x => x / norm)
          (rest.map fun x => x / norm)).sum = (rest.map fun x => x ^ 2).sum / (norm * norm) := ih
      simp only [VectorIndex.dotProduct, Arithmetic.sum_eq, List.map_cons, List.zipWith_cons_cons,
        List.sum_cons, tail]
      rw [div_mul_div_comm, ← sq, ← add_div]

omit [IsStrictOrderedRing R] in
/-- The cosine of a vector with itself. -/
theorem dotProduct_self (root : ∀ x, 0 ≤ x → sqrt x * sqrt x = x) {vec : List R}
    (positive : 0 < (vec.map fun x => x ^ 2).sum) :
    VectorIndex.dotProduct (VectorIndex.l2Normalize sqrt vec)
      (VectorIndex.l2Normalize sqrt vec) = 1 := by
  have squared := root _ positive.le
  have nonzero : sqrt (vec.map fun x => x ^ 2).sum ≠ 0 := by
    intro zero
    rw [zero, mul_zero] at squared
    exact positive.ne squared
  rw [VectorIndex.l2Normalize, Arithmetic.sum_eq, if_neg nonzero, dotProduct_scaled, squared,
    div_self positive.ne']

theorem dotProduct_concept (root : ∀ x, 0 ≤ x → sqrt x * sqrt x = x) (concept : Concept) :
    VectorIndex.dotProduct (VectorIndex.l2Normalize sqrt (conceptVector concept))
      (VectorIndex.l2Normalize sqrt (conceptVector concept)) = 1 := by
  refine dotProduct_self root ?_
  cases concept <;> norm_num [conceptVector, tenths]

omit [IsStrictOrderedRing R] in
theorem dotProduct_orthogonal {left right : Concept} (differ : left ≠ right) :
    VectorIndex.dotProduct (VectorIndex.l2Normalize sqrt (conceptVector left))
      (VectorIndex.l2Normalize sqrt (conceptVector right)) = 0 := by
  unfold VectorIndex.l2Normalize
  cases left <;> cases right
  · exact absurd rfl differ
  · dsimp only
    split_ifs <;> simp [conceptVector, VectorIndex.dotProduct]
  · dsimp only
    split_ifs <;> simp [conceptVector, VectorIndex.dotProduct]
  · exact absurd rfl differ

end Cosines

/-! ## What a question on a concept finds -/

section Concepts

variable {R : Type} [Field R] [LinearOrder R] [IsStrictOrderedRing R] [FloorRing R]
  {data : UnicodeData} {md5 : Digest} {provider : FakeEmbeddingProvider} {sqrt : R → R}
  {query text : String} {concept : Concept}

theorem similarity_same (root : ∀ x, 0 ≤ x → sqrt x * sqrt x = x)
    (asked : conceptOf data query = some concept) (speaks : conceptOf data text = some concept) :
    roundTo 4 (similarity (provider.getEmbedding data md5) sqrt query text) = 1 := by
  rw [similarity, provider.getEmbedding_of_concept md5 asked,
    provider.getEmbedding_of_concept md5 speaks, dotProduct_concept root]
  simpa using roundTo_intCast (R := R) 4 1

theorem similarity_other {other : Concept} (asked : conceptOf data query = some concept)
    (speaks : conceptOf data text = some other) (differ : other ≠ concept) :
    roundTo 4 (similarity (provider.getEmbedding data md5) sqrt query text) = 0 := by
  rw [similarity, provider.getEmbedding_of_concept md5 asked,
    provider.getEmbedding_of_concept md5 speaks, dotProduct_orthogonal (Ne.symm differ)]
  simpa using roundTo_intCast (R := R) 4 0

/-- Nothing supports a question on a concept: no chunk shares a word with it, none speaks of
the same concept, and no digest is by chance similar enough. -/
structure OffTopic (data : UnicodeData) (md5 : Digest) (provider : FakeEmbeddingProvider)
    (sqrt : R → R) (minScore : R) (corpus : List Chunk) (concept : Concept) (query : String) :
    Prop where
  words : ∀ chunk ∈ corpus, ¬ SharesToken data (SimpleTokenizer.tokenize data query) chunk
  concepts : ∀ chunk ∈ corpus, conceptOf data chunk.text ≠ some concept
  digests : ∀ chunk ∈ corpus, conceptOf data chunk.text = none →
    roundTo 4 (similarity (provider.getEmbedding data md5) sqrt query chunk.text) < minScore

theorem unsupported_iff_offTopic (root : ∀ x, 0 ≤ x → sqrt x * sqrt x = x) {minScore : R}
    (positive : 0 < minScore) (reachable : minScore ≤ 1) {corpus : List Chunk}
    (asked : conceptOf data query = some concept) :
    Unsupported data (provider.getEmbedding data md5) sqrt minScore corpus query ↔
      OffTopic data md5 provider sqrt minScore corpus concept query := by
  have nonempty : query ≠ "" := by
    rintro rfl
    simp [conceptOf] at asked
  constructor
  · rintro ⟨words, similar⟩
    refine ⟨words, fun chunk member speaks => ?_, fun chunk member _ => similar nonempty _ member⟩
    have below := similar nonempty chunk member
    rw [similarity_same root asked speaks] at below
    exact absurd reachable (not_le.mpr below)
  · rintro ⟨words, concepts, digests⟩
    refine ⟨words, fun _ chunk member => ?_⟩
    cases speaks : conceptOf data chunk.text with
    | none => exact digests chunk member speaks
    | some other =>
        have differ : other ≠ concept := fun same => concepts chunk member (same ▸ speaks)
        rw [similarity_other asked speaks differ]
        exact positive

/-- A question that speaks of a concept is answered from the documents unless it is off the
topic of every chunk; a chunk on its concept is enough, without a word in common. -/
theorem concept_question_answered (log : R → R) {k1 b minScore : R} {chunker : SimpleChunker}
    {docs : List Document} {corpus : List Chunk} (ingests : chunker.Ingests docs corpus)
    (named : (docs.map Document.documentId).Nodup) (weight : 0 < k1) (lower : 0 ≤ b)
    (upper : b < 1) (root : ∀ x, 0 ≤ x → sqrt x * sqrt x = x) (positive : 0 < minScore)
    (reachable : minScore ≤ 1) (order : SetOrder) (topK : Int)
    (asked : conceptOf data query = some concept) :
    ∃ text citations,
      (HybridRetrievalPipeline.over data log k1 b (provider.getEmbedding data md5) sqrt minScore
        corpus).executePipeline data order (provider.getEmbedding data md5) sqrt query topK =
        .ok (text, citations) ∧
      (OffTopic data md5 provider sqrt minScore corpus concept query ∧
          (text, citations) = insufficientEvidence ∨
        ¬ OffTopic data md5 provider sqrt minScore corpus concept query ∧
          ∃ candidates, Grounded docs candidates text citations ∧
            (0 ≤ topK → candidates.length ≤ topK) ∧ (0 < topK → candidates ≠ [])) := by
  rw [← unsupported_iff_offTopic root positive reachable asked]
  exact executePipeline_outcome data log _ sqrt minScore ingests named weight lower upper order
    query topK

end Concepts

end FakeEmbeddingProvider

def seriesNotice : Document :=
  { documentId := "doc_2", title := "ARIMA", sourcePath := "docs/arima.md",
    content := "ARIMA fits stationary data." }

def seriesChunk : Chunk :=
  { chunkId := "doc_2_c0", documentId := "doc_2", text := "ARIMA fits stationary data." }

theorem series_ingests : ({} : SimpleChunker).Ingests [seriesNotice] [seriesChunk] :=
  ⟨[[seriesChunk]], .cons ((SimpleChunker.returns_short (by decide)).mpr rfl) .nil, rfl⟩

/-- A question about forecasting finds a passage on time series. -/
theorem forecast_question_answered :
    ∃ text citations,
      (HybridRetrievalPipeline.over .ascii Real.log (3 / 2) (3 / 4)
        (FakeEmbeddingProvider.getEmbedding .ascii (fun _ _ => 0) {}) Real.sqrt (3 / 4)
        [seriesChunk]).executePipeline .ascii (.leading "doc_2_c0")
        (FakeEmbeddingProvider.getEmbedding .ascii (fun _ _ => 0) {}) Real.sqrt
        "Can we forecast inflation?" 2 = .ok (text, citations) ∧
      text ≠ "insufficient_evidence" := by
  have asked : FakeEmbeddingProvider.conceptOf .ascii "Can we forecast inflation?" =
      some .timeSeries := by decide +kernel
  have speaks : FakeEmbeddingProvider.conceptOf .ascii seriesChunk.text = some .timeSeries := by
    decide +kernel
  have weight : (0 : ℝ) < 3 / 2 := by norm_num
  have lower : (0 : ℝ) ≤ 3 / 4 := by norm_num
  have upper : (3 / 4 : ℝ) < 1 := by norm_num
  have positive : (0 : ℝ) < 3 / 4 := by norm_num
  obtain ⟨text, citations, returned, outcome⟩ :=
    FakeEmbeddingProvider.concept_question_answered Real.log series_ingests (by decide) weight
      lower upper (fun x nonneg => Real.mul_self_sqrt nonneg) positive upper.le
      (.leading "doc_2_c0") 2 asked
  refine ⟨text, citations, returned, ?_⟩
  rcases outcome with ⟨offTopic, _⟩ | ⟨_, candidates, grounded, _⟩
  · exact absurd speaks (offTopic.concepts seriesChunk (List.mem_singleton_self _))
  · exact grounded.text_ne

end DurableAgent.Retrieval
