import DurableAgent.Library.Arithmetic
import DurableAgent.Library.Ranking
import DurableAgent.Library.Rounding
import DurableAgent.Library.Tally
import DurableAgent.Python.FilledSet
import DurableAgent.Python.Slices
import DurableAgent.Retrieval.Models
import DurableAgent.Retrieval.Tokenizer

/-!
# BM25

`retrieval/bm25.py`. Scores are numbers that are totally ordered, with a logarithm; their
operations may round, and stand in the order in which the program applies them. The order in
which Python iterates over a set is not determined by the program; it is a parameter, which
may depend on how the set was filled.
-/

set_option autoImplicit false

namespace DurableAgent.Retrieval

open Library OrderedDict Python SimpleTokenizer

inductive RetrievalError where
  | keyError (key : String)
  | zeroDivisionError
  deriving DecidableEq, Repr

/-- The order in which the set stored for a token is iterated. -/
structure SetOrder where
  items : String → FilledSet String → List String
  perm : ∀ token set, (items token set).Perm set.added

namespace SetOrder

theorem nodup (order : SetOrder) (token : String) (set : FilledSet String) :
    (order.items token set).Nodup :=
  (order.perm token set).nodup_iff.mpr set.nodup

theorem mem_iff (order : SetOrder) (token : String) (set : FilledSet String) (item : String) :
    item ∈ order.items token set ↔ item ∈ set :=
  (order.perm token set).mem_iff

/-- One item ahead of the others. -/
def leading (first : String) : SetOrder where
  items _ set := if first ∈ set then first :: set.added.erase first else set.added
  perm _ set := by
    split
    · next present => exact (List.perm_cons_erase present).symm
    · exact .refl _

theorem leading_pairwise (first token : String) (set : FilledSet String) :
    ((leading first).items token set).Pairwise fun _ second => second ≠ first := by
  unfold leading
  dsimp only
  split
  · refine List.pairwise_cons.mpr ⟨fun second member => ?_, ?_⟩
    · exact (set.nodup.mem_erase_iff.mp member).1
    · exact (set.nodup.erase first).imp_of_mem fun _ member _ =>
        (set.nodup.mem_erase_iff.mp member).1
  · next absent =>
      exact set.nodup.imp_of_mem fun _ member _ same => absent (same ▸ member)

end SetOrder

structure BM25Retriever (R : Type) where
  k1 : R
  b : R
  chunks : OrderedDict String Chunk
  invertedIndex : OrderedDict String (FilledSet String)
  chunkTf : OrderedDict String (OrderedDict String Nat)
  chunkLengths : OrderedDict String Nat
  avgdl : R
  idf : OrderedDict String R

namespace BM25Retriever

variable {R : Type} [Arithmetic R]

def init (k1 b : R) : BM25Retriever R where
  k1 := k1
  b := b
  chunks := .empty
  invertedIndex := .empty
  chunkTf := .empty
  chunkLengths := .empty
  avgdl := 0
  idf := .empty

section Fit

variable (data : UnicodeData) (log : R → R)

def indexToken (chunkId : String) (retriever : BM25Retriever R) (token : String) :
    BM25Retriever R :=
  { retriever with
    chunkTf := retriever.chunkTf.modify chunkId fun counts => counts.add token 1
    invertedIndex := retriever.invertedIndex.insert token
      (((retriever.invertedIndex.get? token).getD ∅).add chunkId) }

def indexChunk (retriever : BM25Retriever R) (chunk : Chunk) : BM25Retriever R :=
  let tokens := tokenize data chunk.text
  tokens.foldl (indexToken chunk.chunkId)
    { retriever with
      chunkLengths := retriever.chunkLengths.insert chunk.chunkId tokens.length
      chunkTf := retriever.chunkTf.insert chunk.chunkId .empty }

/-- The weight of a token that so many of the chunks contain. -/
def idfOf (numDocs nQ : Nat) : R :=
  log ((((numDocs : Int) - nQ : Int) + 0.5) / (nQ + 0.5) + 1)

def indexChunks (retriever : BM25Retriever R) (chunks : List Chunk) : BM25Retriever R :=
  chunks.foldl (indexChunk data)
    { retriever with chunks := .ofPairs (chunks.map fun chunk => (chunk.chunkId, chunk)) }

/-- The weights of the tokens of the index. -/
def weigh (retriever : BM25Retriever R) (numDocs : Nat) : OrderedDict String R :=
  retriever.idf.insertAll (retriever.invertedIndex.entries.map fun entry =>
    (entry.1, idfOf log numDocs entry.2.card))

/-- The mean of the chunks' lengths. -/
def meanLength (chunks : List Chunk) : R :=
  if 0 < chunks.length then
    ((chunks.map fun chunk => (tokenize data chunk.text).length).sum : Nat) / (chunks.length : R)
  else 0

def fit (retriever : BM25Retriever R) (chunks : List Chunk) : BM25Retriever R :=
  let indexed := indexChunks data retriever chunks
  { indexed with avgdl := meanLength data chunks, idf := weigh log indexed chunks.length }

end Fit

section Search

variable [LinearOrder R]

def lookup {Value : Type} (dict : OrderedDict String Value) (key : String) :
    Except RetrievalError Value :=
  match dict.get? key with
  | some value => .ok value
  | none => .error (.keyError key)

def divide (numerator denominator : R) : Except RetrievalError R :=
  if denominator = 0 then .error .zeroDivisionError else .ok (numerator / denominator)

/-- What a query token contributes to the score of a chunk that is stored for it. -/
def termScore (retriever : BM25Retriever R) (idf : R) (token chunkId : String) :
    Except RetrievalError R := do
  let counts ← lookup retriever.chunkTf chunkId
  let tf := (counts.get? token).getD 0
  let docLen ← lookup retriever.chunkLengths chunkId
  let ratio ← divide (docLen : R) retriever.avgdl
  let numerator := tf * (retriever.k1 + 1)
  let factor ← divide numerator (tf + retriever.k1 * (1 - retriever.b + retriever.b * ratio))
  return idf * factor

def scoreToken (order : SetOrder) (retriever : BM25Retriever R) (scores : OrderedDict String R)
    (token : String) : Except RetrievalError (OrderedDict String R) :=
  match retriever.idf.get? token with
  | none => .ok scores
  | some idf =>
      (order.items token ((retriever.invertedIndex.get? token).getD ∅)).foldlM
        (fun scores chunkId => do
          return scores.add chunkId (← retriever.termScore idf token chunkId)) scores

variable [Rounding R]

/-- The hit for an identifier with its score and rank. -/
def storedHit (chunks : OrderedDict String Chunk) (entry : (String × R) × Nat) :
    Except RetrievalError (RetrievalHit R) := do
  let chunk ← lookup chunks entry.1.1
  return { chunkId := chunk.chunkId, documentId := chunk.documentId, text := chunk.text,
           score := Rounding.round 4 entry.1.2, rank := entry.2 }

def hitOf (retriever : BM25Retriever R) (entry : (String × R) × Nat) :
    Except RetrievalError (RetrievalHit R) :=
  storedHit retriever.chunks entry

def search (data : UnicodeData) (order : SetOrder) (retriever : BM25Retriever R) (query : String)
    (topK : Int) : Except RetrievalError (List (RetrievalHit R)) :=
  let tokens := tokenize data query
  if tokens = [] ∨ retriever.chunks.entries = [] then .ok []
  else do
    let scores ← tokens.foldlM (scoreToken order retriever) .empty
    ((sliceTo (rankBy Prod.snd scores.entries) topK).zipIdx 1).mapM retriever.hitOf

end Search

end BM25Retriever

end DurableAgent.Retrieval
