import DurableAgent.Retrieval.FittedSearch
import DurableAgent.Retrieval.VectorIndex
import DurableAgent.Skills.Models
import Mathlib.Data.List.MinMax

/-!
# The skill selector

`skills/selector.py`. A skill is chosen by its metadata; only then its body is loaded. The
loader, which reads files, is a parameter, and every call of it is recorded.
-/

set_option autoImplicit false

namespace DurableAgent.Skills

open Library OrderedDict Python Retrieval SimpleTokenizer

/-- What the selector rests on besides its own code. -/
structure SkillHost (R : Type) where
  unicode : UnicodeData
  setOrder : SetOrder
  log : R → R
  sqrt : R → R
  getEmbedding : String → List R

inductive SelectionError (LoadError : Type) where
  | retrieval (error : RetrievalError)
  | valueError
  | load (error : LoadError)

structure SkillSelector (R : Type) where
  catalog : List SkillMetadata
  skillByName : OrderedDict String SkillMetadata
  bm25 : BM25Retriever R
  vectorIndex : VectorIndex R

/-- What a call returns, and the skills whose bodies it loads. -/
structure Selection (LoadError : Type) where
  answer : Except (SelectionError LoadError) (Option ActivatedSkill)
  loaded : List SkillMetadata

namespace SkillSelector

def indexText (skill : SkillMetadata) : String :=
  "Skill: " ++ skill.name ++ ". Description: " ++ skill.description ++ ". Keywords: " ++
    joinOn ' ' skill.allowedTools

def skillChunk (skill : SkillMetadata) : Chunk where
  chunkId := "skill_chunk_" ++ skill.name
  documentId := "doc_skill_" ++ skill.name
  text := indexText skill
  metadata := .ofPairs [("skill_name", .str skill.name)]
  trustLevel := "application_trusted"

variable {R : Type} [Arithmetic R] [LinearOrder R] (host : SkillHost R)

def buildSkillIndices (selector : SkillSelector R) : SkillSelector R :=
  let chunks := selector.catalog.map skillChunk
  if chunks.isEmpty then selector
  else
    { selector with
      bm25 := selector.bm25.fit host.unicode host.log chunks
      vectorIndex := selector.vectorIndex.addChunks host.getEmbedding host.sqrt chunks }

/-- The selector of a catalog. -/
def init (catalog : List SkillMetadata) : SkillSelector R :=
  buildSkillIndices host
    { catalog := catalog
      skillByName := .ofPairs (catalog.map fun skill => (skill.name, skill))
      bm25 := .init 1.5 0.75
      vectorIndex := .init }

/-- The first skill of the catalog whose name the query contains. -/
def namedSkill (catalog : List SkillMetadata) (query : String) : Option SkillMetadata :=
  catalog.find? fun skill =>
    occursIn (host.unicode.lower skill.name) (host.unicode.lower query)

def skillNameOf (chunkId : String) : String := removeFirst "skill_chunk_" chunkId

/-- What the ranks of the hits add to the scores of the skills. -/
def votes (hits : List (RetrievalHit R)) : List (String × ℚ) :=
  (hits.zipIdx 1).map fun entry => (skillNameOf entry.1.chunkId, 1 / (60 + entry.2))

def rrfScores (bm25Hits vectorHits : List (RetrievalHit R)) : OrderedDict String ℚ :=
  (OrderedDict.empty.addAll (votes bm25Hits)).addAll (votes vectorHits)

/-- The first of the best keys, unless there are none. -/
def bestSkillName (scores : OrderedDict String ℚ) : Option String :=
  (scores.entries.argmax Prod.snd).map Prod.fst

variable [Rounding R] {LoadError : Type}

/-- The skill that a query selects. -/
def choose (selector : SkillSelector R) (query : String) :
    Except (SelectionError LoadError) (Option SkillMetadata) :=
  if selector.catalog.isEmpty then .ok none
  else
    match namedSkill host selector.catalog query with
    | some skill => .ok (some skill)
    | none =>
        match selector.bm25.search host.unicode host.setOrder query 2 with
        | .error error => .error (.retrieval error)
        | .ok [] => .ok none
        | .ok (first :: rest) =>
            match selector.vectorIndex.search host.getEmbedding host.sqrt query 2 with
            | .error error => .error (.retrieval error)
            | .ok vectorHits =>
                match bestSkillName (rrfScores (first :: rest) vectorHits) with
                | none => .error .valueError
                | some name => .ok (selector.skillByName.get? name)

def selectAndActivate (loadFullSkill : SkillMetadata → Except LoadError ActivatedSkill)
    (selector : SkillSelector R) (query : String) : Selection LoadError :=
  match choose host selector query with
  | .error error => ⟨.error error, []⟩
  | .ok none => ⟨.ok none, []⟩
  | .ok (some skill) => ⟨((loadFullSkill skill).map some).mapError .load, [skill]⟩

end SkillSelector

end DurableAgent.Skills
