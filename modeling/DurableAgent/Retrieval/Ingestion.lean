import DurableAgent.Library.Delimited
import DurableAgent.Retrieval.Chunker
import Mathlib.Data.List.Forall2

/-!
# Ingestion

The chunks of several documents. Each is a passage of the document it names, and no two
have an identifier in common.
-/

set_option autoImplicit false

namespace DurableAgent.Retrieval

open Library Python

/-- The text stands in the document, with the trust that the document has. -/
structure Chunk.PassageOf (chunk : Chunk) (doc : Document) : Prop where
  documentId : chunk.documentId = doc.documentId
  trustLevel : chunk.trustLevel = doc.trustLevel
  text : chunk.text.toList <:+: doc.content.toList

theorem slice_infix {α : Type} (items : List α) (start stop : Int) :
    slice items start stop <:+: items :=
  (List.drop_suffix _ _).isInfix.trans (List.take_prefix _ _).isInfix

theorem chunkId_inj {left right : Document} {first second : Nat} :
    chunkId left first = chunkId right second ↔
      left.documentId = right.documentId ∧ first = second := by
  constructor
  · intro same
    have parts (doc : Document) (index : Nat) : (chunkId doc index).toList =
        (doc.documentId ++ "_").toList ++ 'c' :: index.repr.toList := by simp [chunkId]
    have plain : ∀ index : Nat, 'c' ∉ index.repr.toList := fun index member => by
      simpa using isDigit_of_mem_repr member
    have chars := congrArg String.toList same
    rw [parts, parts] at chars
    obtain ⟨front, digits⟩ := last_separator_unique (plain first) (plain second) chars
    exact ⟨(String.append_left_inj _).mp (String.toList_inj.mp front),
      repr_injective (String.toList_inj.mp digits)⟩
  · rintro ⟨same, rfl⟩
    rw [chunkId, chunkId, same]

namespace SimpleChunker

variable {chunker : SimpleChunker} {doc : Document} {chunks : List Chunk}

/-- The windows made so far are passages, numbered from zero. -/
structure Cut (doc : Document) (state : WindowState) : Prop where
  passages : ∀ chunk ∈ state.chunks, chunk.PassageOf doc
  counted : state.chunkIdx = state.chunks.length
  numbered : state.chunks.map Chunk.chunkId = (List.range state.chunks.length).map (chunkId doc)

theorem Cut.turn {state : WindowState} (cut : Cut doc state) : Cut doc (chunker.turn doc state) where
  passages := by
    intro chunk member
    rcases List.mem_append.mp member with earlier | added
    · exact cut.passages chunk earlier
    · rw [List.mem_singleton.mp added]
      refine ⟨rfl, rfl, ?_⟩
      rw [window, String.toList_ofList]
      exact slice_infix _ _ _
  counted := by simp [SimpleChunker.turn, cut.counted]
  numbered := by
    simp [SimpleChunker.turn, cut.numbered, List.range_succ, window, cut.counted]

theorem returned_cut (returned : chunker.Returns doc chunks) :
    (∀ chunk ∈ chunks, chunk.PassageOf doc) ∧
      chunks.map Chunk.chunkId = (List.range chunks.length).map (chunkId doc) := by
  by_cases short : (doc.content.length : Int) ≤ chunker.chunkSize
  · rw [returns_short short] at returned
    subst returned
    refine ⟨fun chunk member => ?_, by simp [wholeChunk_id]⟩
    rw [List.mem_singleton.mp member]
    exact ⟨rfl, rfl, List.infix_refl _⟩
  · obtain ⟨final, exits, rfl⟩ := (returns_long (by omega)).mp returned
    have cut : Cut doc final :=
      exits.invariant (fun _ _ before => before.turn) ⟨by simp, rfl, rfl⟩
    exact ⟨cut.passages, cut.numbered⟩

/-- The chunks of the documents, one document after the other. -/
def Ingests (chunker : SimpleChunker) (docs : List Document) (corpus : List Chunk) : Prop :=
  ∃ parts, List.Forall₂ chunker.Returns docs parts ∧ corpus = parts.flatten

variable {docs : List Document} {corpus : List Chunk}

theorem ingests_total (progress : chunker.overlap < chunker.chunkSize) (docs : List Document) :
    ∃ corpus, chunker.Ingests docs corpus := by
  have each : ∃ parts, List.Forall₂ chunker.Returns docs parts := by
    induction docs with
    | nil => exact ⟨[], .nil⟩
    | cons doc rest ih =>
        obtain ⟨parts, others⟩ := ih
        by_cases short : (doc.content.length : Int) ≤ chunker.chunkSize
        · exact ⟨_ :: parts, .cons ((returns_short short).mpr rfl) others⟩
        · obtain ⟨final, exits⟩ := windows_exits doc progress {}
          have windows : chunker.Windows doc final.chunks := ⟨final, exits, rfl⟩
          exact ⟨_ :: parts, .cons ((returns_long (by omega)).mpr windows) others⟩
  obtain ⟨parts, returned⟩ := each
  exact ⟨_, parts, returned, rfl⟩

theorem Ingests.passage (ingests : chunker.Ingests docs corpus) {chunk : Chunk}
    (member : chunk ∈ corpus) : ∃ doc ∈ docs, chunk.PassageOf doc ∧
      ∃ index, chunk.chunkId = chunkId doc index := by
  obtain ⟨parts, returned, rfl⟩ := ingests
  induction returned with
  | nil => cases member
  | @cons doc chunks docs parts first _ ih =>
      rcases List.mem_append.mp (List.flatten_cons ▸ member) with inside | later
      · obtain ⟨passages, numbered⟩ := returned_cut first
        have named : chunk.chunkId ∈ chunks.map Chunk.chunkId := List.mem_map_of_mem inside
        rw [numbered] at named
        obtain ⟨index, _, same⟩ := List.mem_map.mp named
        exact ⟨doc, List.mem_cons_self, passages chunk inside, index, same.symm⟩
      · obtain ⟨other, among, passage⟩ := ih later
        exact ⟨other, List.mem_cons_of_mem _ among, passage⟩

/-- Documents of different names share no identifier of a chunk, whatever characters the
names have. -/
theorem Ingests.distinct (ingests : chunker.Ingests docs corpus)
    (named : (docs.map Document.documentId).Nodup) : (corpus.map Chunk.chunkId).Nodup := by
  obtain ⟨parts, returned, rfl⟩ := ingests
  induction returned with
  | nil => exact List.nodup_nil
  | @cons doc chunks docs parts first others ih =>
      obtain ⟨fresh, separate⟩ := List.nodup_cons.mp named
      rw [List.flatten_cons, List.map_append]
      refine List.Nodup.append ?_ (ih separate) ?_
      · rw [(returned_cut first).2]
        exact List.nodup_range.map fun _ _ same => (chunkId_inj.mp same).2
      · intro name inside later
        rw [(returned_cut first).2] at inside
        obtain ⟨index, _, rfl⟩ := List.mem_map.mp inside
        obtain ⟨chunk, among, same⟩ := List.mem_map.mp later
        have rest : chunker.Ingests docs parts.flatten := ⟨parts, others, rfl⟩
        obtain ⟨other, known, _, place, numbered⟩ := rest.passage among
        obtain ⟨equal, _⟩ := chunkId_inj.mp (same.symm.trans numbered)
        exact fresh (List.mem_map.mpr ⟨other, known, equal.symm⟩)

end SimpleChunker

end DurableAgent.Retrieval
