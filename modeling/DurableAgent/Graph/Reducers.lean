import DurableAgent.Library.DictUpdates

/-!
# Channel reducers

`graph/reducers.py`. An absent operand counts as the empty list.
-/

set_option autoImplicit false

namespace DurableAgent.Graph

open Library

variable {α : Type}

def reduceAppend (left right : Option (List α)) : List α := left.getD [] ++ right.getD []

def appendUnseen (result : List String) (item : String) : List String :=
  if item ∈ result then result else result ++ [item]

/-- The set of seen items of the source is the set of the result's items. -/
def reduceUniqueStrList (left right : Option (List String)) : List String :=
  (right.getD []).foldl appendUnseen (left.getD [])

/-- Mappings with the two business keys that merging looks at. -/
class Mapping (α : Type) where
  artifactId : α → Option String
  jobId : α → Option String

/-- The keys of the merged dictionary; a position is the default on the left. -/
inductive MergeKey where
  | text (identifier : String)
  | index (position : Nat)
  deriving DecidableEq, Repr

section Merge

variable [Mapping α]

/-- `item.get("artifact_id", item.get("job_id", default))`. -/
def mergeKey (item : α) (default : MergeKey) : MergeKey :=
  match Mapping.artifactId item with
  | some identifier => .text identifier
  | none =>
      match Mapping.jobId item with
      | some identifier => .text identifier
      | none => default

def seedRefs (left : List α) : OrderedDict MergeKey α :=
  left.zipIdx.foldl
    (fun result entry => result.insert (mergeKey entry.1 (.index entry.2)) entry.1) .empty

def upsertRef (result : OrderedDict MergeKey α) (item : α) : OrderedDict MergeKey α :=
  result.insert (mergeKey item (.text ("gen_" ++ result.size.repr))) item

def reduceArtifactRefs (left right : Option (List α)) : List α :=
  ((right.getD []).foldl upsertRef (seedRefs (left.getD []))).values

theorem reduceArtifactRefs_first (item : α) :
    reduceArtifactRefs (some []) (some [item]) = [item] := rfl

theorem mem_reduceArtifactRefs {left right : List α} {item : α}
    (member : item ∈ reduceArtifactRefs (some left) (some right)) : item ∈ left ∨ item ∈ right := by
  have upserted : item ∈ (right.foldl upsertRef (seedRefs left)).values := member
  rcases OrderedDict.mem_values_foldl_insert id upserted with added | seeded
  · exact .inr (by simpa using added)
  · rcases OrderedDict.mem_values_foldl_insert Prod.fst seeded with old | nothing
    · exact .inl (by simpa using old)
    · simp at nothing

end Merge

theorem reduceUniqueStrList_first (item : String) :
    reduceUniqueStrList (some []) (some [item]) = [item] := rfl

theorem mem_appendUnseen {result : List String} {added item : String} :
    item ∈ appendUnseen result added ↔ item ∈ result ∨ item = added := by
  unfold appendUnseen
  split
  · next present =>
      constructor
      · exact .inl
      · intro either
        rcases either with old | rfl
        · exact old
        · exact present
  · simp

theorem mem_reduceUniqueStrList {left right : List String} {item : String} :
    item ∈ reduceUniqueStrList (some left) (some right) ↔ item ∈ left ∨ item ∈ right := by
  unfold reduceUniqueStrList
  simp only [Option.getD_some]
  induction right generalizing left with
  | nil => simp
  | cons added rest ih => rw [List.foldl_cons, ih, mem_appendUnseen, List.mem_cons, or_assoc]

end DurableAgent.Graph
