import DurableAgent.Library.FallibleSteps
import DurableAgent.Retrieval.Bm25

/-!
# The vector index

`retrieval/vector_index.py`. The provider of the embeddings and the square root are
parameters. Both tables of an index have the same keys.
-/

set_option autoImplicit false

namespace DurableAgent.Retrieval

open Library OrderedDict Python

structure VectorIndex (R : Type) where
  storage : OrderedDict String (List R)
  chunks : OrderedDict String Chunk
  aligned : chunks.keys = storage.keys
  named : ∀ chunkId chunk, chunks.get? chunkId = some chunk → chunk.chunkId = chunkId

namespace VectorIndex

variable {R : Type} [Arithmetic R] [LinearOrder R]

def init : VectorIndex R where
  storage := .empty
  chunks := .empty
  aligned := rfl
  named := by simp

section Add

variable (getEmbedding : String → List R) (sqrt : R → R)

def l2Normalize (vec : List R) : List R :=
  let norm := sqrt (Arithmetic.sum (vec.map fun x => x ^ 2))
  if norm = 0 then vec else vec.map fun x => x / norm

def dotProduct (vecA vecB : List R) : R :=
  Arithmetic.sum (List.zipWith (fun a b => a * b) vecA vecB)

def addChunk (index : VectorIndex R) (chunk : Chunk) : VectorIndex R where
  storage := index.storage.insert chunk.chunkId (l2Normalize sqrt (getEmbedding chunk.text))
  chunks := index.chunks.insert chunk.chunkId chunk
  aligned := by rw [keys_insert, keys_insert, index.aligned]
  named := by
    intro chunkId stored found
    rw [get?_insert] at found
    split at found
    · next same => rw [← Option.some.inj found, same]
    · exact index.named chunkId stored found

def addChunks (index : VectorIndex R) (chunks : List Chunk) : VectorIndex R :=
  chunks.foldl (addChunk getEmbedding sqrt) index

theorem storage_addChunks (index : VectorIndex R) (chunks : List Chunk) :
    (addChunks getEmbedding sqrt index chunks).storage =
      index.storage.insertAll (chunks.map fun chunk =>
        (chunk.chunkId, l2Normalize sqrt (getEmbedding chunk.text))) := by
  induction chunks generalizing index with
  | nil => rfl
  | cons chunk rest ih => exact ih (addChunk getEmbedding sqrt index chunk)

theorem mem_keys_addChunks {chunks : List Chunk} {chunkId : String} :
    chunkId ∈ (addChunks getEmbedding sqrt init chunks).storage.keys ↔
      chunkId ∈ chunks.map Chunk.chunkId := by
  rw [storage_addChunks, keys_insertAll, List.mem_eraseDups, List.map_map]
  exact Iff.of_eq rfl

end Add

variable [Rounding R]

def search (getEmbedding : String → List R) (sqrt : R → R) (index : VectorIndex R)
    (query : String) (topK : Int) : Except RetrievalError (List (RetrievalHit R)) :=
  if index.storage.entries = [] ∨ query = "" then .ok []
  else
    let queryVec := l2Normalize sqrt (getEmbedding query)
    let scoredHits := index.storage.entries.map fun entry =>
      (entry.1, dotProduct queryVec entry.2)
    ((sliceTo (rankBy Prod.snd scoredHits) topK).zipIdx 1).mapM
      (BM25Retriever.storedHit index.chunks)

/-- The hit for a ranked identifier; what stands for a missing chunk is not used. -/
def hitAt (index : VectorIndex R) (entry : (String × R) × Nat) : RetrievalHit R where
  chunkId := entry.1.1
  documentId := ((index.chunks.get? entry.1.1).map Chunk.documentId).getD ""
  text := ((index.chunks.get? entry.1.1).map Chunk.text).getD ""
  score := Rounding.round 4 entry.1.2
  rank := entry.2

omit [Arithmetic R] [LinearOrder R] in
theorem storedHit_eq (index : VectorIndex R) {entry : (String × R) × Nat}
    (known : entry.1.1 ∈ index.storage.keys) :
    BM25Retriever.storedHit index.chunks entry = .ok (index.hitAt entry) := by
  have stored : entry.1.1 ∈ index.chunks.keys := by rwa [index.aligned]
  obtain ⟨chunk, found⟩ := Option.isSome_iff_exists.mp (get?_isSome_iff.mpr stored)
  have looked : BM25Retriever.lookup index.chunks entry.1.1 = .ok chunk := by
    rw [BM25Retriever.lookup, found]
  have named := index.named _ chunk found
  rw [BM25Retriever.storedHit, looked, hitAt, found, ← named]
  rfl

section Hits

variable (getEmbedding : String → List R) (sqrt : R → R) (index : VectorIndex R)
  (query : String) (topK : Int)

/-- The identifiers with their similarities, in the order of the ranks. -/
def rankedHits : List (String × R) :=
  rankBy Prod.snd (index.storage.entries.map fun entry =>
    (entry.1, dotProduct (l2Normalize sqrt (getEmbedding query)) entry.2))

omit [Rounding R] in
theorem mem_rankedHits {getEmbedding sqrt index query} {hit : String × R}
    (ranked : hit ∈ rankedHits getEmbedding sqrt index query) :
    hit.1 ∈ index.storage.keys := by
  obtain ⟨stored, among, rfl⟩ := List.mem_map.mp (mem_rankBy.mp ranked)
  exact List.mem_map_of_mem among

/-- A search finds every chunk that it ranks. -/
theorem search_eq :
    search getEmbedding sqrt index query topK =
      .ok (if index.storage.entries = [] ∨ query = "" then []
        else ((sliceTo (rankedHits getEmbedding sqrt index query) topK).zipIdx 1).map
          index.hitAt) := by
  unfold search
  split
  · rfl
  · refine mapM_ok fun entry member => storedHit_eq index ?_
    exact mem_rankedHits (mem_of_mem_sliceTo (List.fst_mem_of_mem_zipIdx member))

theorem search_total :
    ∃ hits, search getEmbedding sqrt index query topK = .ok hits ∧
      ∀ hit ∈ hits, hit.chunkId ∈ index.storage.keys := by
  refine ⟨_, search_eq getEmbedding sqrt index query topK, ?_⟩
  split
  · exact fun hit member => by cases member
  · intro hit member
    obtain ⟨entry, among, rfl⟩ := List.mem_map.mp member
    exact mem_rankedHits (mem_of_mem_sliceTo (List.fst_mem_of_mem_zipIdx among))

end Hits

end VectorIndex

end DurableAgent.Retrieval
