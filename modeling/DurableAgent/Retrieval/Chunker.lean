import DurableAgent.Library.WhileLoop
import DurableAgent.Python.Slices
import DurableAgent.Python.Text
import DurableAgent.Retrieval.Models
import Mathlib.Data.List.Chain

/-!
# Chunking

`retrieval/chunker.py`. The constructor checks neither the size nor the overlap, so both
are integers and the windows need not come to an end.
-/

set_option autoImplicit false

namespace DurableAgent.Retrieval

open Library Python

structure SimpleChunker where
  chunkSize : Int := 150
  overlap : Int := 30

/-- The local variables of the loop; `ended` is set by `break`. -/
structure WindowState where
  chunks : List Chunk := []
  start : Int := 0
  chunkIdx : Nat := 0
  ended : Bool := false

def chunkId (doc : Document) (chunkIdx : Nat) : String :=
  doc.documentId ++ "_c" ++ chunkIdx.repr

namespace SimpleChunker

variable (chunker : SimpleChunker) (doc : Document)

def running (state : WindowState) : Bool :=
  !state.ended && decide (state.start < doc.content.length)

def window (state : WindowState) (stop : Int) : Chunk where
  chunkId := chunkId doc state.chunkIdx
  documentId := doc.documentId
  text := String.ofList (slice doc.content.toList state.start stop)
  metadata := .ofPairs [("source_path", .str doc.sourcePath), ("title", .str doc.title)]
  trustLevel := doc.trustLevel

def turn (state : WindowState) : WindowState :=
  let stop := min (state.start + chunker.chunkSize) doc.content.length
  { chunks := state.chunks ++ [window doc state stop]
    chunkIdx := state.chunkIdx + 1
    start := state.start + (chunker.chunkSize - chunker.overlap)
    ended := decide (stop = doc.content.length) }

/-- The chunk of a document that needs no windows. -/
def wholeChunk : Chunk where
  chunkId := doc.documentId ++ "_c0"
  documentId := doc.documentId
  text := doc.content
  trustLevel := doc.trustLevel

/-- The chunks that the loop leaves behind, where it ends. -/
def Windows (chunks : List Chunk) : Prop :=
  ∃ final, Exits (running doc) (chunker.turn doc) {} final ∧ final.chunks = chunks

/-- `chunk_document`, for at most so many turns of its loop. -/
def chunkDocument (turns : Nat) : Option (List Chunk) :=
  if doc.content.length ≤ chunker.chunkSize then some [wholeChunk doc]
  else
    let final := repeatWhile (running doc) (chunker.turn doc) turns {}
    if running doc final then none else some final.chunks

/-- `chunk_document` returns the chunks. -/
def Returns (chunks : List Chunk) : Prop := ∃ turns, chunker.chunkDocument doc turns = some chunks

/-! ## Termination -/

variable {chunker doc}

theorem running_iff {state : WindowState} :
    running doc state = true ↔ state.ended = false ∧ state.start < doc.content.length := by
  simp [running]

theorem returns_short (short : doc.content.length ≤ chunker.chunkSize) {chunks : List Chunk} :
    chunker.Returns doc chunks ↔ chunks = [wholeChunk doc] := by
  simp [Returns, chunkDocument, short, eq_comm]

theorem returns_long (long : chunker.chunkSize < doc.content.length) {chunks : List Chunk} :
    chunker.Returns doc chunks ↔ chunker.Windows doc chunks := by
  have windowed : ¬ (doc.content.length : Int) ≤ chunker.chunkSize := by omega
  constructor
  · rintro ⟨turns, returned⟩
    rw [chunkDocument, if_neg windowed] at returned
    cases further : running doc (repeatWhile (running doc) (chunker.turn doc) turns {}) with
    | true => simp [further] at returned
    | false => exact ⟨_, exits_of_repeatWhile further, by simpa [further] using returned⟩
  · rintro ⟨final, exits, rfl⟩
    obtain ⟨needed, computed⟩ := exits.repeatWhile
    refine ⟨needed, ?_⟩
    simp [chunkDocument, windowed, computed needed (Nat.le_refl _), exits.stopped]

variable (doc) in
/-- Windows that move on reach the end of the text. -/
theorem windows_exits (progress : chunker.overlap < chunker.chunkSize) (state : WindowState) :
    ∃ final, Exits (running doc) (chunker.turn doc) state final := by
  refine ⟨_, repeatWhile_exits (fun state => ((doc.content.length : Int) - state.start).toNat) ?_
    (Nat.lt_succ_self _)⟩
  intro state active further
  have inside := (running_iff.mp active).2
  have still := (running_iff.mp further).2
  simp only [turn] at still ⊢
  omega

/-- The windows have not moved beyond the first one. -/
def Stuck (state : WindowState) : Prop := state.start ≤ 0 ∧ state.ended = false

theorem Stuck.turn {state : WindowState} (stuck : Stuck state)
    (still : chunker.chunkSize ≤ chunker.overlap)
    (long : chunker.chunkSize < doc.content.length) : Stuck (chunker.turn doc state) := by
  have front := stuck.1
  refine ⟨?_, decide_eq_false ?_⟩
  · simp only [SimpleChunker.turn]
    omega
  · omega

/-- Windows that do not move never see the end of a longer text. -/
theorem windows_diverge (still : chunker.chunkSize ≤ chunker.overlap)
    (long : chunker.chunkSize < doc.content.length) (nonempty : doc.content ≠ "")
    (final : WindowState) : ¬ Exits (running doc) (chunker.turn doc) {} final := by
  intro exits
  have stuck : Stuck final :=
    exits.invariant (fun _ _ before => before.turn still long) ⟨le_refl _, rfl⟩
  have positive : doc.content.length ≠ 0 := by simpa using nonempty
  have stopped := exits.stopped
  rw [← Bool.not_eq_true, running_iff] at stopped
  have front := stuck.1
  exact stopped ⟨stuck.2, by omega⟩

/-- `chunk_document` comes to an end exactly if its windows move on or it needs none. -/
theorem returns_iff : (∃ chunks, chunker.Returns doc chunks) ↔
    chunker.overlap < chunker.chunkSize ∨ doc.content.length ≤ chunker.chunkSize ∨
      doc.content = "" := by
  by_cases short : (doc.content.length : Int) ≤ chunker.chunkSize
  · simp [returns_short short, short]
  · have long : chunker.chunkSize < doc.content.length := by omega
    simp only [returns_long long, short, false_or]
    constructor
    · rintro ⟨chunks, final, exits, rfl⟩
      by_contra! stuck
      exact windows_diverge stuck.1 long stuck.2 final exits
    · rintro (progress | empty)
      · obtain ⟨final, exits⟩ := windows_exits doc progress {}
        exact ⟨final.chunks, final, exits, rfl⟩
      · exact ⟨[], {}, .stop (by simp [running, empty]), rfl⟩

/-- A size of ten with an overlap of ten, on more than ten characters. -/
theorem equal_overlap_diverges :
    ¬ ∃ chunks, SimpleChunker.Returns { chunkSize := 10, overlap := 10 }
      { documentId := "d1", title := "Rates", sourcePath := "rates.md",
        content := "The policy rate rose." } chunks := by
  rintro ⟨chunks, returned⟩
  rw [returns_long (by decide)] at returned
  obtain ⟨final, exits, _⟩ := returned
  exact windows_diverge (by decide) (by decide) (by decide) final exits

/-! ## Tiling -/

variable (chunker) in
/-- The text of the first chunk followed by the later ones without their overlap. -/
def joined : List Chunk → List Char
  | [] => []
  | first :: later =>
      first.text.toList ++ later.flatMap fun chunk => chunk.text.toList.drop chunker.overlap.toNat

variable (chunker) in
/-- The next chunk starts with the last characters of the one before it. -/
def Continues (chunk next : Chunk) : Prop :=
  chunker.overlap.toNat ≤ chunk.text.length ∧
    chunk.text.toList.rtake chunker.overlap.toNat <+: next.text.toList

variable (chunker doc) in
/-- The chunks cover the characters, in windows that overlap. -/
structure Tiles (covered : List Char) (chunks : List Chunk) : Prop where
  sized : ∀ chunk ∈ chunks, (chunk.text.length : Int) ≤ chunker.chunkSize
  numbered : chunks.map Chunk.chunkId = (List.range chunks.length).map (chunkId doc)
  joined : chunker.joined chunks = covered
  seams : chunks.IsChain chunker.Continues

theorem joined_concat {chunks : List Chunk} (nonempty : chunks ≠ []) (chunk : Chunk) :
    chunker.joined (chunks ++ [chunk]) =
      chunker.joined chunks ++ chunk.text.toList.drop chunker.overlap.toNat := by
  cases chunks with
  | nil => exact absurd rfl nonempty
  | cons first later => simp [joined, List.flatMap_append]

theorem Tiles.distinct {covered : List Char} {chunks : List Chunk}
    (tiles : Tiles chunker doc covered chunks) : (chunks.map Chunk.chunkId).Nodup := by
  rw [tiles.numbered]
  refine List.Nodup.map ?_ List.nodup_range
  intro first second same
  exact repr_injective ((String.append_right_inj _).mp same)

theorem Tiles.single (chunk : Chunk) (sized : (chunk.text.length : Int) ≤ chunker.chunkSize)
    (first : chunk.chunkId = chunkId doc 0) :
    Tiles chunker doc chunk.text.toList [chunk] where
  sized := by simpa using sized
  numbered := by simp [first]
  joined := by simp [SimpleChunker.joined]
  seams := .singleton chunk

variable (doc) in
theorem wholeChunk_id : (wholeChunk doc).chunkId = chunkId doc 0 := by
  simp only [wholeChunk, chunkId, String.append_assoc]
  rfl

theorem Tiles.concat {covered : List Char} {chunks : List Chunk} {last chunk : Chunk}
    (tiles : Tiles chunker doc covered chunks) (tail : chunks.getLast? = some last)
    (sized : (chunk.text.length : Int) ≤ chunker.chunkSize)
    (next : chunk.chunkId = chunkId doc chunks.length) (seam : chunker.Continues last chunk) :
    Tiles chunker doc (covered ++ chunk.text.toList.drop chunker.overlap.toNat)
      (chunks ++ [chunk]) where
  sized := by
    intro other member
    rcases List.mem_append.mp member with earlier | added
    · exact tiles.sized other earlier
    · rwa [List.mem_singleton.mp added]
  numbered := by
    simp [tiles.numbered, next, List.range_succ]
  joined := by
    have nonempty : chunks ≠ [] := by
      rintro rfl
      cases tail
    rw [joined_concat nonempty, tiles.joined]
  seams := by
    refine tiles.seams.append (.singleton chunk) ?_
    simpa [tail] using seam

variable (chunker doc) in
/-- The text before the window that begins at the position, and the window. -/
def upTo (position : Nat) : List Char :=
  doc.content.toList.take (min (position + chunker.chunkSize.toNat) doc.content.length)

variable (chunker doc) in
/-- Between two windows, inside the text. -/
structure AtSeam (last : Chunk) (position : Nat) (state : WindowState) : Prop where
  start : state.start = position
  inside : position + chunker.overlap.toNat < doc.content.length
  going : state.ended = false
  counted : state.chunkIdx = state.chunks.length
  tail : state.chunks.getLast? = some last
  full : chunker.overlap.toNat ≤ last.text.length
  behind : last.text.toList.rtake chunker.overlap.toNat =
    (doc.content.toList.take (position + chunker.overlap.toNat)).drop position
  tiles : Tiles chunker doc (doc.content.toList.take (position + chunker.overlap.toNat))
    state.chunks

variable (chunker doc) in
inductive Progress : WindowState → Prop
  | start : Progress {}
  | seam {state : WindowState} (last : Chunk) (position : Nat) :
      AtSeam chunker doc last position state → Progress state
  | complete {state : WindowState} :
      state.ended = true → Tiles chunker doc doc.content.toList state.chunks → Progress state

theorem Progress.tiles {state : WindowState} (reached : Progress chunker doc state)
    (nonempty : doc.content ≠ "") (stopped : running doc state = false) :
    Tiles chunker doc doc.content.toList state.chunks := by
  rw [← Bool.not_eq_true, running_iff] at stopped
  cases reached with
  | start =>
      have positive : doc.content.length ≠ 0 := by simpa using nonempty
      exact absurd ⟨rfl, by simp; omega⟩ stopped
  | seam last position seam =>
      have inside := seam.inside
      exact absurd ⟨seam.going, by rw [seam.start]; omega⟩ stopped
  | complete _ tiles => exact tiles

section Windows

variable (nonnegative : 0 ≤ chunker.overlap) (progress : chunker.overlap < chunker.chunkSize)

include nonnegative progress

variable (doc) in
theorem window_text {state : WindowState} {position : Nat} (start : state.start = position) :
    (window doc state (min (state.start + chunker.chunkSize) doc.content.length)).text.toList =
      (chunker.upTo doc position).drop position := by
  have stop : min (state.start + chunker.chunkSize) (doc.content.length : Int) =
      (min (position + chunker.chunkSize.toNat) doc.content.length : Nat) := by omega
  rw [window, String.toList_ofList, stop, start, slice_natCast, upTo]

theorem window_sized {state : WindowState} {position : Nat} (start : state.start = position) :
    ((window doc state (min (state.start + chunker.chunkSize) doc.content.length)).text.length :
      Int) ≤ chunker.chunkSize := by
  have length := congrArg List.length (window_text doc nonnegative progress start)
  simp only [String.length_toList, upTo, List.length_drop, List.length_take] at length
  omega

/-- A window that ends inside the text leads to the next seam, any other one to the end. -/
theorem Progress.advance {state : WindowState} {position : Nat} (start : state.start = position)
    (counted : state.chunkIdx = state.chunks.length)
    (tiles : Tiles chunker doc (chunker.upTo doc position) (chunker.turn doc state).chunks) :
    Progress chunker doc (chunker.turn doc state) := by
  by_cases inside : position + chunker.chunkSize.toNat < doc.content.length
  · have whole : chunker.upTo doc position =
        doc.content.toList.take (position + chunker.chunkSize.toNat) := by
      rw [upTo, Nat.min_eq_left inside.le]
    obtain ⟨next, moved⟩ : ∃ next, next + chunker.overlap.toNat =
        position + chunker.chunkSize.toNat :=
      ⟨position + (chunker.chunkSize.toNat - chunker.overlap.toNat), by omega⟩
    have text := window_text doc nonnegative progress start
    have length := congrArg List.length text
    rw [whole] at text length tiles
    simp only [String.length_toList, List.length_drop, List.length_take] at length
    refine .seam _ next
      { start := ?_, inside := ?_, going := ?_, counted := ?_, tail := List.getLast?_concat
        full := ?_, behind := ?_, tiles := ?_ }
    · simp only [turn, start]
      omega
    · omega
    · exact decide_eq_false (by omega)
    · simp [turn, counted]
    · omega
    · rw [text, moved, List.rtake, List.drop_drop]
      congr 1
      simp only [List.length_drop, List.length_take, String.length_toList]
      omega
    · rwa [moved]
  · refine .complete (decide_eq_true (by omega)) ?_
    have whole : chunker.upTo doc position = doc.content.toList := by
      rw [upTo, Nat.min_eq_right (by omega), ← String.length_toList, List.take_length]
    rwa [whole] at tiles

theorem Progress.turn {state : WindowState} (before : Progress chunker doc state)
    (active : running doc state = true) : Progress chunker doc (chunker.turn doc state) := by
  cases before with
  | start =>
      have start : ({} : WindowState).start = (0 : Nat) := rfl
      have text := window_text doc nonnegative progress start
      refine .advance nonnegative progress start rfl ?_
      rw [List.drop_zero] at text
      rw [← text]
      exact .single _ (window_sized nonnegative progress start) rfl
  | seam last position seam =>
      have text := window_text doc nonnegative progress seam.start
      have inside := seam.inside
      have further : position + chunker.overlap.toNat ≤
          min (position + chunker.chunkSize.toNat) doc.content.length := by omega
      have prior : doc.content.toList.take (position + chunker.overlap.toNat) <+:
          chunker.upTo doc position := List.take_prefix_take_left further
      have covered : chunker.upTo doc position =
          doc.content.toList.take (position + chunker.overlap.toNat) ++
            ((chunker.upTo doc position).drop position).drop chunker.overlap.toNat := by
        have front : (chunker.upTo doc position).take (position + chunker.overlap.toNat) =
            doc.content.toList.take (position + chunker.overlap.toNat) := by
          rw [upTo, List.take_take, Nat.min_eq_left further]
        rw [List.drop_drop, ← front, List.take_append_drop]
      refine .advance nonnegative progress seam.start seam.counted ?_
      rw [covered, ← text]
      refine seam.tiles.concat seam.tail (window_sized nonnegative progress seam.start) ?_
        ⟨seam.full, ?_⟩
      · simp [window, seam.counted]
      · rw [seam.behind, text]
        exact prior.drop position
  | complete ended _ => simp [running, ended] at active

variable (chunker doc) in
/-- What the chunks keep of the document. -/
structure Lossless (chunks : List Chunk) : Prop where
  sized : ∀ chunk ∈ chunks, (chunk.text.length : Int) ≤ chunker.chunkSize
  distinct : (chunks.map Chunk.chunkId).Nodup
  joined : chunker.joined chunks = doc.content.toList
  seams : chunks.IsChain chunker.Continues

omit nonnegative progress in
theorem Tiles.lossless {chunks : List Chunk}
    (tiles : Tiles chunker doc doc.content.toList chunks) : Lossless chunker doc chunks where
  sized := tiles.sized
  distinct := tiles.distinct
  joined := tiles.joined
  seams := tiles.seams

variable (doc) in
theorem windows_tile (long : chunker.chunkSize < doc.content.length) :
    ∃ chunks, (∀ other, chunker.Returns doc other ↔ other = chunks) ∧
      Tiles chunker doc doc.content.toList chunks := by
  obtain ⟨final, exits⟩ := windows_exits doc progress {}
  have reached : Progress chunker doc final :=
    exits.invariant (fun _ active before => before.turn nonnegative progress active) .start
  have nonempty : doc.content ≠ "" := by
    rintro empty
    rw [empty, String.length_empty] at long
    omega
  refine ⟨final.chunks, fun other => ?_, reached.tiles nonempty exits.stopped⟩
  rw [returns_long long]
  constructor
  · rintro ⟨last, exitsToo, rfl⟩
    rw [exits.unique exitsToo]
  · rintro rfl
    exact ⟨final, exits, rfl⟩

/-- Chunking returns, and its chunks lose nothing of the document. -/
theorem chunkDocument_lossless :
    ∃ chunks, (∀ other, chunker.Returns doc other ↔ other = chunks) ∧
      Lossless chunker doc chunks := by
  by_cases short : (doc.content.length : Int) ≤ chunker.chunkSize
  · have tiles := Tiles.single (wholeChunk doc) short (wholeChunk_id doc)
    exact ⟨[wholeChunk doc], fun other => returns_short short, tiles.lossless⟩
  · obtain ⟨chunks, returned, tiles⟩ :=
      windows_tile doc nonnegative progress (by omega)
    exact ⟨chunks, returned, tiles.lossless⟩

end Windows

theorem alphabet_lossless :
    ∃ chunks, (∀ other, SimpleChunker.Returns { chunkSize := 10, overlap := 3 }
      { documentId := "d1", title := "Test", sourcePath := "t.md",
        content := "abcdefghijklmnopqrstuvwxyz" } other ↔ other = chunks) ∧
      Lossless { chunkSize := 10, overlap := 3 }
        { documentId := "d1", title := "Test", sourcePath := "t.md",
          content := "abcdefghijklmnopqrstuvwxyz" } chunks :=
  chunkDocument_lossless (by decide) (by decide)

/-! ## Short documents -/

theorem window_carriesProvenance (state : WindowState) (stop : Int) :
    (window doc state stop).CarriesProvenance doc := ⟨rfl, rfl⟩

variable (doc) in
def Provenanced (state : WindowState) : Prop :=
  ∀ chunk ∈ state.chunks, chunk.CarriesProvenance doc

theorem Provenanced.turn {state : WindowState} (before : Provenanced doc state) :
    Provenanced doc (chunker.turn doc state) := by
  intro chunk member
  rcases List.mem_append.mp member with earlier | added
  · exact before chunk earlier
  · rw [List.mem_singleton.mp added]
    exact window_carriesProvenance state _

theorem windows_carryProvenance {chunks : List Chunk} (windows : chunker.Windows doc chunks) :
    ∀ chunk ∈ chunks, chunk.CarriesProvenance doc := by
  obtain ⟨final, exits, rfl⟩ := windows
  have carried : Provenanced doc final :=
    exits.invariant (fun _ _ before => before.turn) fun _ none => nomatch none
  exact carried

theorem wholeChunk_lacksProvenance : ¬ (wholeChunk doc).CarriesProvenance doc := by
  rintro ⟨path, _⟩
  cases path

variable (chunker doc) in
/-- A document comes out as the loop would have it, each chunk with its origin. -/
def ShortcutAgrees : Prop :=
  ∃ chunks, chunker.Returns doc chunks ∧
    (doc.content ≠ "" → doc.content.length ≤ chunker.chunkSize → chunker.Windows doc chunks) ∧
    ∀ chunk ∈ chunks, chunk.CarriesProvenance doc

/-- The shortcut agrees with the loop on no document for which it is taken. -/
theorem shortcutAgrees_iff (nonnegative : 0 ≤ chunker.overlap)
    (progress : chunker.overlap < chunker.chunkSize) :
    ShortcutAgrees chunker doc ↔ chunker.chunkSize < doc.content.length := by
  constructor
  · rintro ⟨chunks, returned, _, carried⟩
    by_contra! short
    rw [returns_short short] at returned
    subst returned
    exact wholeChunk_lacksProvenance (carried _ (List.mem_singleton_self _))
  · intro long
    obtain ⟨chunks, returned, _⟩ := windows_tile doc nonnegative progress long
    have run := (returned chunks).mpr rfl
    exact ⟨chunks, run, fun _ short => absurd short (by omega),
      windows_carryProvenance ((returns_long long).mp run)⟩

theorem alphabet_shortcutAgrees :
    ShortcutAgrees { chunkSize := 10, overlap := 3 }
      { documentId := "d1", title := "Test", sourcePath := "t.md",
        content := "abcdefghijklmnopqrstuvwxyz" } :=
  (shortcutAgrees_iff (by decide) (by decide)).mpr (by decide)

/-- A sentence within the default size is returned without its origin. -/
theorem short_sentence_without_origin :
    let doc : Document :=
      { documentId := "d1", title := "Rates", sourcePath := "rates.md",
        content := "The policy rate rose." }
    SimpleChunker.Returns {} doc [wholeChunk doc] ∧
      ¬ SimpleChunker.Windows {} doc [wholeChunk doc] ∧ ¬ ShortcutAgrees {} doc := by
  intro doc
  refine ⟨⟨0, if_pos (by decide)⟩, fun windows => ?_, ?_⟩
  · exact wholeChunk_lacksProvenance (windows_carryProvenance windows _ List.mem_cons_self)
  · rintro ⟨chunks, returned, _, carried⟩
    rw [returns_short (by decide)] at returned
    subst returned
    exact wholeChunk_lacksProvenance (carried _ List.mem_cons_self)

end SimpleChunker

end DurableAgent.Retrieval
