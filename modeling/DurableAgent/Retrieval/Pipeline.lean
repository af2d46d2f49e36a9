import DurableAgent.Retrieval.ExhaustiveBm25
import DurableAgent.Retrieval.Fusion
import DurableAgent.Retrieval.Ingestion
import DurableAgent.Retrieval.VectorIndex
import Mathlib.Analysis.SpecialFunctions.Log.Basic
import Mathlib.Analysis.SpecialFunctions.Sqrt

/-!
# The hybrid retrieval pipeline

`retrieval/pipeline.py` and `retrieval/citations.py` over the retrievers. What is cited can
be found in the documents, and the pipeline abstains for want of words and of similarity.
-/

set_option autoImplicit false

namespace DurableAgent.Retrieval

open Library OrderedDict Python SimpleTokenizer BM25Retriever

namespace CitationBuilder

def citationId (idx : Nat) : String := "Doc-" ++ idx.repr

def evidenceBlock (entry : FusedHit × Nat) : String :=
  "[" ++ citationId entry.2 ++ "] (Source Document ID: " ++ entry.1.documentId ++ ")\nContent: " ++
    entry.1.text

def buildCitations (topChunks : List FusedHit) : String × OrderedDict String FusedHit :=
  ("\n\n".intercalate ((topChunks.zipIdx 1).map evidenceBlock),
    .ofPairs ((topChunks.zipIdx 1).map fun entry => (citationId entry.2, entry.1)))

end CitationBuilder

structure HybridRetrievalPipeline (R : Type) where
  bm25 : BM25Retriever R
  vIndex : VectorIndex R
  vectorOnlyMinScore : R

def insufficientEvidence : String × OrderedDict String FusedHit := ("insufficient_evidence", .empty)

namespace HybridRetrievalPipeline

variable {R : Type} [Arithmetic R] [LinearOrder R] [Rounding R]

def executePipeline (data : UnicodeData) (order : SetOrder) (getEmbedding : String → List R)
    (sqrt : R → R) (pipeline : HybridRetrievalPipeline R) (query : String) (topK : Int) :
    Except RetrievalError (String × OrderedDict String FusedHit) := do
  let bm25Hits ← BM25Retriever.search data order pipeline.bm25 query 5
  let vectorHits ← VectorIndex.search getEmbedding sqrt pipeline.vIndex query 5
  if bm25Hits = [] ∧ vectorHits = [] then return insufficientEvidence
  else if bm25Hits = [] ∧ vectorHits.head?.any fun top =>
      decide (top.score < pipeline.vectorOnlyMinScore) then return insufficientEvidence
  else
    let fused ← ReciprocalRankFusion.fuse {} bm25Hits vectorHits
    return CitationBuilder.buildCitations (sliceTo (RuleBasedReranker.rerank fused) topK)

end HybridRetrievalPipeline

/-! ## Citations -/

namespace CitationBuilder

variable (topChunks : List FusedHit)

theorem citationId_injective {first second : Nat} (same : citationId first = citationId second) :
    first = second :=
  repr_injective ((String.append_right_inj _).mp same)

theorem numbered_ids :
    ((topChunks.zipIdx 1).map fun entry => (citationId entry.2, entry.1)).map Prod.fst =
      (List.range' 1 topChunks.length).map citationId := by
  rw [← List.zipIdx_map_snd 1 topChunks, List.map_map, List.map_map]
  rfl

theorem citations_entries :
    (buildCitations topChunks).2.entries =
      (topChunks.zipIdx 1).map fun entry => (citationId entry.2, entry.1) := by
  have distinct : (((topChunks.zipIdx 1).map fun entry => (citationId entry.2, entry.1)).map
      Prod.fst).Nodup := by
    rw [numbered_ids]
    exact List.Nodup.map (fun _ _ same => citationId_injective same) List.nodup_range'
  exact congrArg OrderedDict.entries (ofPairs_entries ⟨_, distinct⟩)

theorem citations_keys :
    (buildCitations topChunks).2.keys = (List.range' 1 topChunks.length).map citationId := by
  rw [keys, citations_entries, numbered_ids]

theorem citations_values : (buildCitations topChunks).2.values = topChunks := by
  rw [values, citations_entries, List.map_map]
  exact List.zipIdx_map_fst 1 topChunks

/-- The evidence text quotes every citation under its identifier. -/
theorem evidence_text :
    (buildCitations topChunks).1 =
      "\n\n".intercalate ((buildCitations topChunks).2.entries.map fun entry =>
        "[" ++ entry.1 ++ "] (Source Document ID: " ++ entry.2.documentId ++ ")\nContent: " ++
          entry.2.text) := by
  rw [citations_entries, List.map_map]
  rfl

end CitationBuilder

/-! ## Hits of a corpus -/

/-- The identifier, document and text are those of one of the chunks. -/
def FromCorpus (corpus : List Chunk) (source : Source) : Prop :=
  ∃ chunk ∈ corpus, source = ⟨chunk.chunkId, chunk.documentId, chunk.text⟩

section Hits

variable {R : Type} [Field R] [LinearOrder R] [FloorRing R] {corpus : List Chunk}

omit [FloorRing R] in
theorem VectorIndex.chunks_addChunks (getEmbedding : String → List R) (sqrt : R → R)
    (index : VectorIndex R) (chunks : List Chunk) :
    (addChunks getEmbedding sqrt index chunks).chunks = index.chunks.insertAll (byId chunks) := by
  induction chunks generalizing index with
  | nil => rfl
  | cons chunk rest ih => exact ih (addChunk getEmbedding sqrt index chunk)

theorem hitFor_fromCorpus {data : UnicodeData} {token : String} {entry : (String × R) × Nat}
    (held : entry.1.1 ∈ holders data token corpus) :
    FromCorpus corpus (ReciprocalRankFusion.sourceOf (hitFor corpus entry)) := by
  obtain ⟨within, _⟩ := chunk_of_latest (latest_of_mem_holders held)
  exact ⟨_, within, rfl⟩

theorem hitAt_fromCorpus (getEmbedding : String → List R) (sqrt : R → R)
    {entry : (String × R) × Nat}
    (known : entry.1.1 ∈ (VectorIndex.addChunks getEmbedding sqrt .init corpus).storage.keys) :
    FromCorpus corpus (ReciprocalRankFusion.sourceOf
      ((VectorIndex.addChunks getEmbedding sqrt .init corpus).hitAt entry)) := by
  have stored : entry.1.1 ∈ (VectorIndex.addChunks getEmbedding sqrt .init corpus).chunks.keys := by
    rwa [VectorIndex.aligned]
  obtain ⟨chunk, found⟩ := Option.isSome_iff_exists.mp (get?_isSome_iff.mpr stored)
  have last : lastValue entry.1.1 (byId corpus) = some chunk := by
    have inserted := found
    rw [VectorIndex.chunks_addChunks, get?_insertAll] at inserted
    simpa [VectorIndex.init] using inserted
  obtain ⟨within, named⟩ := chunk_of_latest last
  refine ⟨chunk, within, ?_⟩
  simp [ReciprocalRankFusion.sourceOf, VectorIndex.hitAt, found, named]

omit [Field R] [LinearOrder R] [FloorRing R] in
/-- A fused hit is one of the hits of either list. -/
theorem fusedAt_fromCorpus {k : Nat} {left right : List (RetrievalHit R)}
    (from_left : ∀ hit ∈ left, FromCorpus corpus (ReciprocalRankFusion.sourceOf hit))
    (from_right : ∀ hit ∈ right, FromCorpus corpus (ReciprocalRankFusion.sourceOf hit))
    {entry : String × Nat} (ranked : entry.1 ∈ ReciprocalRankFusion.fusedIds k left right) :
    FromCorpus corpus (ReciprocalRankFusion.fusedAt k left right entry).toSource := by
  have known : ∃ hit ∈ left ++ right, hit.chunkId = entry.1 := by
    simpa [or_and_right, exists_or] using ReciprocalRankFusion.mem_fusedIds.mp ranked
  have each : ∀ hit ∈ left ++ right, FromCorpus corpus (ReciprocalRankFusion.sourceOf hit) := by
    intro hit member
    exact (List.mem_append.mp member).elim (from_left hit) (from_right hit)
  obtain ⟨hit, among, same⟩ := known
  cases found : (left ++ right).find? fun hit => decide (hit.chunkId = entry.1) with
  | none => exact absurd (decide_eq_true same) (List.find?_eq_none.mp found hit among)
  | some first =>
      have source : (ReciprocalRankFusion.fusedAt k left right entry).toSource =
          ReciprocalRankFusion.sourceOf first := by
        simp [ReciprocalRankFusion.fusedAt, ReciprocalRankFusion.sourceFor, found]
      rw [source]
      exact each first (List.mem_of_find?_eq_some found)

end Hits

namespace RuleBasedReranker

theorem boost_toSource (hit : FusedHit) : (boost hit).toSource = hit.toSource := by
  unfold boost
  split
  · rfl
  · rfl

theorem rerank_toSource_perm (fusedHits : List FusedHit) :
    ((rerank fusedHits).map FusedHit.toSource).Perm (fusedHits.map FusedHit.toSource) := by
  have boosted : (fusedHits.map boost).map FusedHit.toSource = fusedHits.map FusedHit.toSource := by
    rw [List.map_map]
    exact List.map_congr_left fun hit _ => boost_toSource hit
  rw [← boosted]
  exact (rankBy_perm _ _).map _

end RuleBasedReranker

/-- The evidence of a list of candidates, each of them a passage of a document. -/
structure Grounded (docs : List Document) (candidates : List FusedHit) (text : String)
    (citations : OrderedDict String FusedHit) : Prop where
  cited : citations.values = candidates
  numbered : citations.keys = (List.range' 1 candidates.length).map CitationBuilder.citationId
  quoted : text = "\n\n".intercalate (citations.entries.map fun entry =>
    "[" ++ entry.1 ++ "] (Source Document ID: " ++ entry.2.documentId ++ ")\nContent: " ++
      entry.2.text)
  distinct : (candidates.map fun hit => hit.chunkId).Nodup
  passages : ∀ hit ∈ candidates, ∃ doc ∈ docs,
    hit.documentId = doc.documentId ∧ hit.text.toList <:+: doc.content.toList

/-- Evidence is never the notice that there is none. -/
theorem Grounded.text_ne {docs : List Document} {candidates : List FusedHit} {text : String}
    {citations : OrderedDict String FusedHit} (grounded : Grounded docs candidates text citations) :
    text ≠ "insufficient_evidence" := by
  intro same
  have chars := congrArg (fun written => written.toList.head?) (grounded.quoted.symm.trans same)
  cases entries : citations.entries with
  | nil => simp [entries] at chars
  | cons entry rest =>
      cases rest with
      | nil => simp [entries] at chars
      | cons second rest => simp [entries] at chars

section Chosen

open ReciprocalRankFusion RuleBasedReranker

variable {R : Type}

/-- The candidates that are cited. -/
def chosen (bm25Hits vectorHits : List (RetrievalHit R)) (topK : Int) : List FusedHit :=
  sliceTo (rerank (((fusedIds 60 bm25Hits vectorHits).zipIdx 1).map
    (fusedAt 60 bm25Hits vectorHits))) topK

theorem chosen_fromCorpus {corpus : List Chunk} {bm25Hits vectorHits : List (RetrievalHit R)}
    (fromBm25 : ∀ hit ∈ bm25Hits, FromCorpus corpus (sourceOf hit))
    (fromVectors : ∀ hit ∈ vectorHits, FromCorpus corpus (sourceOf hit)) (topK : Int) :
    ∀ hit ∈ chosen bm25Hits vectorHits topK, FromCorpus corpus hit.toSource := by
  intro hit member
  have among := (rerank_toSource_perm _).subset
    (List.mem_map_of_mem (f := FusedHit.toSource) (mem_of_mem_sliceTo member))
  rw [List.map_map] at among
  obtain ⟨entry, ranked, same⟩ := List.mem_map.mp among
  rw [← same]
  exact fusedAt_fromCorpus fromBm25 fromVectors (List.fst_mem_of_mem_zipIdx ranked)

theorem chosen_distinct (bm25Hits vectorHits : List (RetrievalHit R)) (topK : Int) :
    ((chosen bm25Hits vectorHits topK).map fun hit => hit.chunkId).Nodup := by
  have ids := (rerank_toSource_perm (((fusedIds 60 bm25Hits vectorHits).zipIdx 1).map
    (fusedAt 60 bm25Hits vectorHits))).map Source.chunkId
  rw [List.map_map, List.map_map] at ids
  have fused : (((fusedIds 60 bm25Hits vectorHits).zipIdx 1).map
      (fusedAt 60 bm25Hits vectorHits)).map (Source.chunkId ∘ FusedHit.toSource) =
      fusedIds 60 bm25Hits vectorHits := map_chunkId_fusedAt 60
  rw [fused] at ids
  have all := ids.nodup_iff.mpr nodup_fusedIds
  exact all.sublist ((List.take_sublist _ _).map _)

theorem map_chunkId_chosen {bm25Hits vectorHits : List (RetrievalHit R)}
    (bm25Distinct : (bm25Hits.map RetrievalHit.chunkId).Nodup)
    (vectorDistinct : (vectorHits.map RetrievalHit.chunkId).Nodup) (topK : Int) :
    (chosen bm25Hits vectorHits topK).map (·.chunkId) =
      sliceTo ((fusedIds 60 bm25Hits vectorHits).filter isBoosted ++
        (fusedIds 60 bm25Hits vectorHits).filter fun chunkId => !isBoosted chunkId) topK := by
  rw [chosen, ← sliceTo_map, map_chunkId_rerank bm25Distinct vectorDistinct]

theorem grounded_chosen {chunker : SimpleChunker} {docs : List Document} {corpus : List Chunk}
    (ingests : chunker.Ingests docs corpus) {bm25Hits vectorHits : List (RetrievalHit R)}
    (fromBm25 : ∀ hit ∈ bm25Hits, FromCorpus corpus (sourceOf hit))
    (fromVectors : ∀ hit ∈ vectorHits, FromCorpus corpus (sourceOf hit)) (topK : Int) :
    Grounded docs (chosen bm25Hits vectorHits topK)
      (CitationBuilder.buildCitations (chosen bm25Hits vectorHits topK)).1
      (CitationBuilder.buildCitations (chosen bm25Hits vectorHits topK)).2 where
  cited := CitationBuilder.citations_values _
  numbered := CitationBuilder.citations_keys _
  quoted := CitationBuilder.evidence_text _
  distinct := chosen_distinct bm25Hits vectorHits topK
  passages := by
    intro hit member
    obtain ⟨chunk, within, source⟩ := chosen_fromCorpus fromBm25 fromVectors topK hit member
    obtain ⟨doc, among, passage, _⟩ := ingests.passage within
    refine ⟨doc, among, ?_, ?_⟩
    · rw [source]
      exact passage.documentId
    · rw [source]
      exact passage.text

theorem length_sliceTo_le {α : Type} {items : List α} (topK : Int) (nonnegative : 0 ≤ topK) :
    ((sliceTo items topK).length : Int) ≤ topK := by
  have bound : (sliceTo items topK).length ≤ sliceBound items.length topK := List.length_take_le _ _
  have same : sliceBound items.length topK = topK.toNat := if_neg (by omega)
  omega

/-- Something is cited of anything that either retriever finds. -/
theorem chosen_ne_nil {bm25Hits vectorHits : List (RetrievalHit R)} {topK : Int}
    (found : ¬ (bm25Hits = [] ∧ vectorHits = [])) (positive : 0 < topK) :
    chosen bm25Hits vectorHits topK ≠ [] := by
  intro nothing
  have bound : sliceBound (rerank (((fusedIds 60 bm25Hits vectorHits).zipIdx 1).map
      (fusedAt 60 bm25Hits vectorHits))).length topK ≠ 0 := by
    rw [sliceBound, if_neg (by omega)]
    omega
  have ranked := (List.take_eq_nil_iff.mp nothing).resolve_left bound
  have sources := (rerank_toSource_perm (((fusedIds 60 bm25Hits vectorHits).zipIdx 1).map
    (fusedAt 60 bm25Hits vectorHits))).length_eq
  rw [ranked] at sources
  have ids : fusedIds 60 bm25Hits vectorHits = [] := by
    rw [← List.length_eq_zero_iff]
    simpa using sources.symm
  have unlisted : ∀ chunkId, ¬ (chunkId ∈ bm25Hits.map RetrievalHit.chunkId ∨
      chunkId ∈ vectorHits.map RetrievalHit.chunkId) := by
    intro chunkId listed
    have fused := (mem_fusedIds (k := 60)).mpr listed
    rw [ids] at fused
    cases fused
  refine found ⟨?_, ?_⟩
  · exact List.eq_nil_iff_forall_not_mem.mpr fun hit member =>
      unlisted hit.chunkId (.inl (List.mem_map_of_mem member))
  · exact List.eq_nil_iff_forall_not_mem.mpr fun hit member =>
      unlisted hit.chunkId (.inr (List.mem_map_of_mem member))

end Chosen

namespace HybridRetrievalPipeline

variable {R : Type} [Arithmetic R] [LinearOrder R] [Rounding R]

/-- What becomes of the hits of both retrievers. -/
theorem executePipeline_eq {data : UnicodeData} {order : SetOrder}
    {getEmbedding : String → List R} {sqrt : R → R} (pipeline : HybridRetrievalPipeline R)
    {query : String} {bm25Hits vectorHits : List (RetrievalHit R)}
    (searched : BM25Retriever.search data order pipeline.bm25 query 5 = .ok bm25Hits)
    (compared : VectorIndex.search getEmbedding sqrt pipeline.vIndex query 5 = .ok vectorHits)
    (topK : Int) :
    pipeline.executePipeline data order getEmbedding sqrt query topK =
      .ok (if bm25Hits = [] ∧ ∀ top ∈ vectorHits.head?, top.score < pipeline.vectorOnlyMinScore
        then insufficientEvidence
        else CitationBuilder.buildCitations (chosen bm25Hits vectorHits topK)) := by
  simp only [executePipeline, searched, compared, bind, Except.bind,
    ReciprocalRankFusion.fuse_eq]
  cases vectorHits with
  | nil =>
      by_cases nothing : bm25Hits = []
      · simp [nothing, pure, Except.pure]
      · simp [nothing, pure, Except.pure, chosen]
  | cons top rest =>
      by_cases nothing : bm25Hits = []
      · by_cases below : top.score < pipeline.vectorOnlyMinScore
        · simp [nothing, below, pure, Except.pure]
        · simp [nothing, below, pure, Except.pure, chosen]
      · simp [nothing, pure, Except.pure, chosen]

end HybridRetrievalPipeline

/-! ## A pipeline over a corpus -/

section Corpus

variable {R : Type} [Field R] [LinearOrder R] [IsStrictOrderedRing R] [FloorRing R]
  (data : UnicodeData) (log : R → R) {k1 b : R} (getEmbedding : String → List R) (sqrt : R → R)
  (minScore : R) (corpus : List Chunk)

variable (k1 b) in
/-- Both retrievers have been given the same chunks. -/
def HybridRetrievalPipeline.over : HybridRetrievalPipeline R where
  bm25 := fit data log (init k1 b) corpus
  vIndex := VectorIndex.addChunks getEmbedding sqrt .init corpus
  vectorOnlyMinScore := minScore

/-- The cosine of two texts, for embeddings of one dimension. -/
def similarity (query text : String) : R :=
  VectorIndex.dotProduct (VectorIndex.l2Normalize sqrt (getEmbedding query))
    (VectorIndex.l2Normalize sqrt (getEmbedding text))

/-- No chunk has a word of the query, and none is similar enough to it. -/
structure Unsupported (query : String) : Prop where
  words : ∀ chunk ∈ corpus, ¬ SharesToken data (tokenize data query) chunk
  similar : query ≠ "" → ∀ chunk ∈ corpus,
    roundTo 4 (similarity getEmbedding sqrt query chunk.text) < minScore

theorem bm25Hits_corpus (weight : 0 < k1) (lower : 0 ≤ b) (upper : b < 1) (order : SetOrder)
    (query : String) :
    ∃ hits, BM25Retriever.search data order (fit data log (init k1 b) corpus) query 5 = .ok hits ∧
      (∀ hit ∈ hits, FromCorpus corpus (ReciprocalRankFusion.sourceOf hit)) ∧
      (hits = [] ↔ ∀ chunk ∈ corpus, ¬ SharesToken data (tokenize data query) chunk) := by
  refine ⟨_, search_fresh (divisible_of_pos data corpus weight lower upper (tokenize data query))
    order (5 : Nat), ?_, ?_⟩
  · intro hit member
    obtain ⟨entry, among, rfl⟩ := List.mem_map.mp member
    have ranked := mem_of_mem_sliceTo (List.fst_mem_of_mem_zipIdx among)
    obtain ⟨token, _, held⟩ := mem_rankedIds.mp ranked
    exact hitFor_fromCorpus held
  · rw [sliceTo_natCast, List.map_eq_nil_iff, List.zipIdx_eq_nil_iff, List.take_eq_nil_iff,
      or_iff_right (by decide), rankedIds_eq_nil_iff]
    constructor
    · rintro unmatched chunk member ⟨token, among, contains⟩
      have held := mem_holders.mpr ⟨chunk, member, contains, rfl⟩
      rw [unmatched token among] at held
      cases FilledSet.notMem_empty _ held
    · intro unmatched token among
      refine FilledSet.eq_empty_iff.mpr fun chunkId held => ?_
      obtain ⟨chunk, member, contains, _⟩ := mem_holders.mp held
      exact unmatched chunk member ⟨token, among, contains⟩

omit [IsStrictOrderedRing R] in
theorem vectorHits_corpus (query : String) :
    ∃ hits, VectorIndex.search getEmbedding sqrt
        (VectorIndex.addChunks getEmbedding sqrt .init corpus) query 5 = .ok hits ∧
      ∀ hit ∈ hits, FromCorpus corpus (ReciprocalRankFusion.sourceOf hit) := by
  refine ⟨_, VectorIndex.search_eq getEmbedding sqrt _ query 5, ?_⟩
  split
  · exact fun hit member => by cases member
  · intro hit member
    obtain ⟨entry, among, rfl⟩ := List.mem_map.mp member
    exact hitAt_fromCorpus getEmbedding sqrt
      (VectorIndex.mem_rankedHits (mem_of_mem_sliceTo (List.fst_mem_of_mem_zipIdx among)))

/-- Whatever is retrieved is cited from the documents, or nothing is. -/
theorem executePipeline_grounded {chunker : SimpleChunker} {docs : List Document}
    {corpus : List Chunk} (ingests : chunker.Ingests docs corpus) (weight : 0 < k1)
    (lower : 0 ≤ b) (upper : b < 1) (order : SetOrder) (query : String) (topK : Int) :
    ∃ text citations,
      (HybridRetrievalPipeline.over data log k1 b getEmbedding sqrt minScore
        corpus).executePipeline data order getEmbedding sqrt query topK = .ok (text, citations) ∧
      ((text, citations) = insufficientEvidence ∨
        ∃ candidates, Grounded docs candidates text citations ∧
          (0 ≤ topK → candidates.length ≤ topK)) := by
  obtain ⟨bm25Hits, searched, fromBm25, _⟩ :=
    bm25Hits_corpus data log corpus weight lower upper order query
  obtain ⟨vectorHits, compared, fromVectors⟩ :=
    vectorHits_corpus getEmbedding sqrt corpus query
  rw [HybridRetrievalPipeline.executePipeline_eq _ searched compared]
  split
  · exact ⟨_, _, rfl, .inl rfl⟩
  · exact ⟨_, _, rfl, .inr ⟨_, grounded_chosen ingests fromBm25 fromVectors topK,
      length_sliceTo_le _⟩⟩

omit [IsStrictOrderedRing R] [FloorRing R] in
theorem storage_corpus (distinct : (corpus.map Chunk.chunkId).Nodup) :
    (VectorIndex.addChunks getEmbedding sqrt .init corpus).storage.entries =
      corpus.map fun chunk =>
        (chunk.chunkId, VectorIndex.l2Normalize sqrt (getEmbedding chunk.text)) := by
  have ids : ((corpus.map fun chunk => (chunk.chunkId,
      VectorIndex.l2Normalize sqrt (getEmbedding chunk.text))).map Prod.fst).Nodup := by
    rwa [List.map_map]
  rw [VectorIndex.storage_addChunks]
  exact congrArg OrderedDict.entries (ofPairs_entries ⟨_, ids⟩)

/-- The first hit is the most similar one, so it stands for all of them. -/
theorem vectorHits_below (distinct : (corpus.map Chunk.chunkId).Nodup) {query : String}
    {hits : List (RetrievalHit R)}
    (compared : VectorIndex.search getEmbedding sqrt
      (VectorIndex.addChunks getEmbedding sqrt .init corpus) query 5 = .ok hits) :
    (∀ top ∈ hits.head?, top.score < minScore) ↔
      (query ≠ "" → ∀ chunk ∈ corpus,
        roundTo 4 (similarity getEmbedding sqrt query chunk.text) < minScore) := by
  rw [VectorIndex.search_eq, Except.ok.injEq] at compared
  subst compared
  have stored := storage_corpus getEmbedding sqrt corpus distinct
  by_cases empty : query = ""
  · simp [empty]
  · cases corpus with
    | nil => simp [VectorIndex.addChunks, VectorIndex.init, OrderedDict.empty]
    | cons first rest =>
        rw [if_neg (by simp [stored, empty])]
        have among : ∀ hit, hit ∈ VectorIndex.rankedHits getEmbedding sqrt
            (VectorIndex.addChunks getEmbedding sqrt .init (first :: rest)) query ↔
            ∃ chunk ∈ first :: rest,
              hit = (chunk.chunkId, similarity getEmbedding sqrt query chunk.text) := by
          intro hit
          rw [VectorIndex.rankedHits, mem_rankBy, stored, List.map_map, List.mem_map]
          exact exists_congr fun chunk => and_congr_right fun _ => eq_comm
        have sorted := rankBy_sorted Prod.snd
          ((VectorIndex.addChunks getEmbedding sqrt .init (first :: rest)).storage.entries.map
            fun entry => (entry.1, VectorIndex.dotProduct
              (VectorIndex.l2Normalize sqrt (getEmbedding query)) entry.2))
        change (VectorIndex.rankedHits _ _ _ _).Pairwise _ at sorted
        cases ranked : VectorIndex.rankedHits getEmbedding sqrt
            (VectorIndex.addChunks getEmbedding sqrt .init (first :: rest)) query with
        | nil =>
            have present := (among _).mpr ⟨first, List.mem_cons_self, rfl⟩
            rw [ranked] at present
            cases present
        | cons top others =>
            rw [ranked] at among sorted
            have taken : sliceTo (top :: others) 5 = top :: others.take 4 :=
              sliceTo_natCast (top :: others) 5
            rw [taken, List.zipIdx_cons, List.map_cons, List.head?_cons]
            simp only [Option.mem_some_iff, forall_eq', VectorIndex.hitAt]
            constructor
            · intro below _ chunk member
              have listed := (among _).mpr ⟨chunk, member, rfl⟩
              refine lt_of_le_of_lt (roundTo_mono 4 ?_) below
              rcases List.mem_cons.mp listed with same | later
              · rw [← same]
              · exact (List.pairwise_cons.mp sorted).1 _ later
            · intro below
              obtain ⟨chunk, member, same⟩ := (among top).mp List.mem_cons_self
              rw [same]
              exact below empty chunk member

/-- Everything that the pipeline can return. -/
theorem executePipeline_outcome {chunker : SimpleChunker} {docs : List Document}
    {corpus : List Chunk} (ingests : chunker.Ingests docs corpus)
    (named : (docs.map Document.documentId).Nodup) (weight : 0 < k1) (lower : 0 ≤ b)
    (upper : b < 1) (order : SetOrder) (query : String) (topK : Int) :
    ∃ text citations,
      (HybridRetrievalPipeline.over data log k1 b getEmbedding sqrt minScore
        corpus).executePipeline data order getEmbedding sqrt query topK = .ok (text, citations) ∧
      (Unsupported data getEmbedding sqrt minScore corpus query ∧
          (text, citations) = insufficientEvidence ∨
        ¬ Unsupported data getEmbedding sqrt minScore corpus query ∧
          ∃ candidates, Grounded docs candidates text citations ∧
            (0 ≤ topK → candidates.length ≤ topK) ∧ (0 < topK → candidates ≠ [])) := by
  obtain ⟨bm25Hits, searched, fromBm25, unmatched⟩ :=
    bm25Hits_corpus data log corpus weight lower upper order query
  obtain ⟨vectorHits, compared, fromVectors⟩ := vectorHits_corpus getEmbedding sqrt corpus query
  have below := vectorHits_below getEmbedding sqrt minScore corpus (ingests.distinct named) compared
  have reached : (bm25Hits = [] ∧ ∀ top ∈ vectorHits.head?, top.score < minScore) ↔
      Unsupported data getEmbedding sqrt minScore corpus query := by
    rw [unmatched, below]
    exact ⟨fun ⟨words, similar⟩ => ⟨words, similar⟩, fun ⟨words, similar⟩ => ⟨words, similar⟩⟩
  rw [HybridRetrievalPipeline.executePipeline_eq _ searched compared, ← reached]
  split
  · next unsupported => exact ⟨_, _, rfl, .inl ⟨unsupported, rfl⟩⟩
  · next supported =>
      refine ⟨_, _, rfl, .inr ⟨supported, _, grounded_chosen ingests fromBm25 fromVectors topK,
        length_sliceTo_le _, chosen_ne_nil ?_⟩⟩
      rintro ⟨nothing, rfl⟩
      exact supported ⟨nothing, by simp⟩

/-- The pipeline abstains exactly if neither words nor similarity speak for any chunk. -/
theorem executePipeline_abstains_iff {chunker : SimpleChunker} {docs : List Document}
    {corpus : List Chunk} (ingests : chunker.Ingests docs corpus)
    (named : (docs.map Document.documentId).Nodup) (weight : 0 < k1) (lower : 0 ≤ b)
    (upper : b < 1) (order : SetOrder) (query : String) (topK : Int) :
    (HybridRetrievalPipeline.over data log k1 b getEmbedding sqrt minScore
        corpus).executePipeline data order getEmbedding sqrt query topK =
        .ok insufficientEvidence ↔
      Unsupported data getEmbedding sqrt minScore corpus query := by
  obtain ⟨text, citations, returned, outcome⟩ := executePipeline_outcome data log getEmbedding
    sqrt minScore ingests named weight lower upper order query topK
  rw [returned, Except.ok.injEq]
  rcases outcome with ⟨unsupported, notice⟩ | ⟨supported, candidates, grounded, _⟩
  · exact iff_of_true notice unsupported
  · refine iff_of_false ?_ supported
    intro same
    exact grounded.text_ne (congrArg Prod.fst same)

end Corpus

def priceNotice : Document :=
  { documentId := "doc_1", title := "Prices", sourcePath := "docs/prices.md",
    content := "Consumer prices rose." }

def priceChunk : Chunk :=
  { chunkId := "doc_1_c0", documentId := "doc_1", text := "Consumer prices rose." }

theorem price_ingests : ({} : SimpleChunker).Ingests [priceNotice] [priceChunk] :=
  ⟨[[priceChunk]], .cons ((SimpleChunker.returns_short (by decide)).mpr rfl) .nil, rfl⟩

/-- A shared word is enough, however dissimilar the vectors. -/
theorem prices_supported :
    ¬ Unsupported .ascii (fun _ => [1, 0]) Real.sqrt 2 [priceChunk] "Which prices rose?" := by
  intro unsupported
  have asked : tokenize .ascii "Which prices rose?" = ["which", "prices", "rose"] := by
    decide +kernel
  have written : tokenize .ascii "Consumer prices rose." = ["consumer", "prices", "rose"] := by
    decide +kernel
  refine unsupported.words priceChunk (List.mem_singleton_self _) ⟨"prices", ?_, ?_⟩
  · simp [asked]
  · change "prices" ∈ tokenize .ascii "Consumer prices rose."
    simp [written]

def wageNotice : Document :=
  { documentId := "doc_2", title := "Wages", sourcePath := "docs/wages.md",
    content := "Wages fell." }

def wageChunk : Chunk :=
  { chunkId := "doc_2_c0", documentId := "doc_2", text := "Wages fell." }

theorem notices_ingest :
    ({} : SimpleChunker).Ingests [wageNotice, priceNotice] [wageChunk, priceChunk] :=
  ⟨[[wageChunk], [priceChunk]], .cons ((SimpleChunker.returns_short (by decide)).mpr rfl)
    (.cons ((SimpleChunker.returns_short (by decide)).mpr rfl) .nil), rfl⟩

/-- Only the second notice shares a word with the question. -/
theorem bm25Hits_prices {hits : List (RetrievalHit ℝ)}
    (searched : BM25Retriever.search .ascii (.leading "doc_1_c0")
      (fit .ascii Real.log (init (3 / 2) (3 / 4)) [wageChunk, priceChunk]) "Which prices rose?" 5 =
      .ok hits) : hits.map RetrievalHit.chunkId = ["doc_1_c0"] := by
  have asked : tokenize .ascii "Which prices rose?" = ["which", "prices", "rose"] := by
    decide +kernel
  have wages : tokensOf .ascii wageChunk = ["wages", "fell"] := by decide +kernel
  have prices : tokensOf .ascii priceChunk = ["consumer", "prices", "rose"] := by decide +kernel
  have weight : (0 : ℝ) < 3 / 2 := by norm_num
  have lower : (0 : ℝ) ≤ 3 / 4 := by norm_num
  have upper : (3 / 4 : ℝ) < 1 := by norm_num
  have divisible := divisible_of_pos .ascii [wageChunk, priceChunk] weight lower upper
    (tokenize .ascii "Which prices rose?")
  have members : ∀ chunkId, chunkId ∈ rankedIds .ascii Real.log (3 / 2) (3 / 4)
      [wageChunk, priceChunk] [wageChunk, priceChunk] (.leading "doc_1_c0")
      (tokenize .ascii "Which prices rose?") ↔ chunkId ∈ ["doc_1_c0"] := by
    intro chunkId
    have named : priceChunk.chunkId = "doc_1_c0" := rfl
    simp [mem_rankedIds, mem_holders, asked, wages, prices, named, eq_comm]
  have ranked := List.perm_singleton.mp
    ((List.perm_ext_iff_of_nodup (nodup_rankedIds _) (List.nodup_singleton _)).mpr members)
  rw [search_fresh divisible, ranked, Except.ok.injEq] at searched
  subst searched
  exact congrArg (· :: []) (chunkAt_chunkId _ _)

/-- All vectors are alike, so the hits stand in the order of the chunks. -/
theorem vectorHits_notices {hits : List (RetrievalHit ℝ)}
    (compared : VectorIndex.search (fun _ => [1, 0]) Real.sqrt
      (VectorIndex.addChunks (fun _ => [1, 0]) Real.sqrt .init [wageChunk, priceChunk])
      "Which prices rose?" 5 = .ok hits) :
    hits.map RetrievalHit.chunkId = ["doc_2_c0", "doc_1_c0"] := by
  have stored := storage_corpus (fun _ => [(1 : ℝ), 0]) Real.sqrt [wageChunk, priceChunk]
    (by decide)
  rw [VectorIndex.search_eq, Except.ok.injEq, VectorIndex.rankedHits, stored] at compared
  subst compared
  simp [rankBy, sliceTo, sliceBound, VectorIndex.hitAt, wageChunk, priceChunk]

open ReciprocalRankFusion in
/-- The notice with the word in it is ranked first, although the other one was indexed first. -/
theorem chosen_notices {bm25Hits vectorHits : List (RetrievalHit ℝ)}
    (matched : bm25Hits.map RetrievalHit.chunkId = ["doc_1_c0"])
    (similar : vectorHits.map RetrievalHit.chunkId = ["doc_2_c0", "doc_1_c0"]) :
    (chosen bm25Hits vectorHits 2).map (·.chunkId) = ["doc_1_c0", "doc_2_c0"] := by
  have bm25Distinct : (bm25Hits.map RetrievalHit.chunkId).Nodup := by simp [matched]
  have vectorDistinct : (vectorHits.map RetrievalHit.chunkId).Nodup := by simp [similar]
  have score := rrfScore_eq (k := 60) bm25Distinct vectorDistinct
  have fused : fusedIds 60 bm25Hits vectorHits = ["doc_1_c0", "doc_2_c0"] := by
    have scores : rrfScore 60 bm25Hits vectorHits = fun chunkId =>
        evidence 60 ["doc_1_c0"] chunkId + evidence 60 ["doc_2_c0", "doc_1_c0"] chunkId := by
      funext chunkId
      rw [score, matched, similar]
    rw [fusedIds, scores, List.map_append, matched, similar]
    decide +kernel
  rw [map_chunkId_chosen bm25Distinct vectorDistinct, fused]
  decide +kernel

/-- Both documents are cited, each once, the better one first. -/
theorem executePipeline_grounded_prices :
    ∃ candidates text citations,
      (HybridRetrievalPipeline.over .ascii Real.log (3 / 2) (3 / 4) (fun _ => [1, 0]) Real.sqrt
        (3 / 4) [wageChunk, priceChunk]).executePipeline .ascii (.leading "doc_1_c0")
        (fun _ => [1, 0]) Real.sqrt "Which prices rose?" 2 = .ok (text, citations) ∧
      Grounded [wageNotice, priceNotice] candidates text citations ∧
      candidates.map (·.chunkId) = ["doc_1_c0", "doc_2_c0"] ∧
      citations.keys = ["Doc-1", "Doc-2"] := by
  have weight : (0 : ℝ) < 3 / 2 := by norm_num
  have lower : (0 : ℝ) ≤ 3 / 4 := by norm_num
  have upper : (3 / 4 : ℝ) < 1 := by norm_num
  obtain ⟨text, citations, returned, outcome⟩ := executePipeline_grounded .ascii Real.log
    (fun _ => [1, 0]) Real.sqrt (3 / 4) notices_ingest weight lower upper
    (.leading "doc_1_c0") "Which prices rose?" 2
  obtain ⟨bm25Hits, searched, _⟩ := bm25Hits_corpus .ascii Real.log [wageChunk, priceChunk]
    weight lower upper (.leading "doc_1_c0") "Which prices rose?"
  obtain ⟨vectorHits, compared, _⟩ := vectorHits_corpus (fun _ => [(1 : ℝ), 0]) Real.sqrt
    [wageChunk, priceChunk] "Which prices rose?"
  have matched := bm25Hits_prices searched
  have cited := chosen_notices matched (vectorHits_notices compared)
  have some : bm25Hits ≠ [] := by
    rintro rfl
    cases matched
  have built := HybridRetrievalPipeline.executePipeline_eq
    (HybridRetrievalPipeline.over .ascii Real.log (3 / 2) (3 / 4) (fun _ => [1, 0]) Real.sqrt
      (3 / 4) [wageChunk, priceChunk]) searched compared 2
  rw [if_neg fun none => some none.1, returned, Except.ok.injEq] at built
  have values : citations.values = chosen bm25Hits vectorHits 2 := by
    rw [← CitationBuilder.citations_values (chosen bm25Hits vectorHits 2), ← built]
  rcases outcome with notice | ⟨candidates, grounded, _⟩
  · rw [(Prod.mk.inj notice).2] at values
    rw [← values] at cited
    exact absurd cited (by simp)
  · have same : candidates.map (·.chunkId) = ["doc_1_c0", "doc_2_c0"] := by
      rw [← grounded.cited, values, cited]
    have two : candidates.length = 2 := by simpa using congrArg List.length same
    refine ⟨candidates, text, citations, returned, grounded, same, ?_⟩
    rw [grounded.numbered, two]
    decide +kernel

theorem executePipeline_answers_prices :
    (HybridRetrievalPipeline.over .ascii Real.log (3 / 2) (3 / 4) (fun _ => [1, 0]) Real.sqrt
        2 [priceChunk]).executePipeline .ascii (.leading "doc_1_c0") (fun _ => [1, 0])
        Real.sqrt "Which prices rose?" 2 ≠ .ok insufficientEvidence := by
  intro abstained
  exact prices_supported ((executePipeline_abstains_iff .ascii Real.log (fun _ => [1, 0])
    Real.sqrt 2 price_ingests (by decide) (by norm_num) (by norm_num) (by norm_num)
    (.leading "doc_1_c0") "Which prices rose?" 2).mp abstained)

end DurableAgent.Retrieval
