import DurableAgent.Library.DictUpdates
import DurableAgent.Python.Value

/-!
# Documents, chunks and hits

`retrieval/models.py`.
-/

set_option autoImplicit false

namespace DurableAgent.Retrieval

open Library Python

structure Document where
  documentId : String
  title : String
  sourcePath : String
  content : String
  trustLevel : String := "retrieved_untrusted"

structure Chunk where
  chunkId : String
  documentId : String
  text : String
  metadata : OrderedDict String Value := .empty
  trustLevel : String := "retrieved_untrusted"

structure RetrievalHit (Score : Type) where
  chunkId : String
  documentId : String
  text : String
  score : Score
  rank : Nat
  deriving DecidableEq, Repr

/-- The origin of a chunk as its metadata have it. -/
def Chunk.CarriesProvenance (chunk : Chunk) (doc : Document) : Prop :=
  chunk.metadata.get? "source_path" = some (.str doc.sourcePath) ∧
    chunk.metadata.get? "title" = some (.str doc.title)

end DurableAgent.Retrieval
