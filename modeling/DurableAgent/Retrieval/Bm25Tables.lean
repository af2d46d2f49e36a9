import DurableAgent.Retrieval.Bm25

/-!
# The tables of a fitted index

What the dictionaries hold after a series of fits. The token counts and lengths are those
of the latest chunk with an identifier, the sets collect the identifiers of all chunks.
-/

set_option autoImplicit false

namespace DurableAgent.Retrieval

open Library OrderedDict Python SimpleTokenizer

variable (data : UnicodeData)

def tokensOf (chunk : Chunk) : List String := tokenize data chunk.text

/-- `{c.chunk_id: c for c in chunks}` and the later assignments under its keys. -/
def byId (chunks : List Chunk) : List (String × Chunk) :=
  chunks.map fun chunk => (chunk.chunkId, chunk)

def latest (chunkId : String) (chunks : List Chunk) : Option Chunk :=
  lastValue chunkId (byId chunks)

/-- The identifiers of the chunks with the token, in their order. -/
def holderIds (token : String) (chunks : List Chunk) : List String :=
  (chunks.filter fun chunk => decide (token ∈ tokensOf data chunk)).map Chunk.chunkId

/-- The set of these identifiers. -/
def holders (token : String) (chunks : List Chunk) : FilledSet String :=
  FilledSet.fill ∅ (holderIds data token chunks)

def countsOf (tokens : List String) : OrderedDict String Nat :=
  OrderedDict.empty.addAll (tokens.map fun token => (token, 1))

theorem latest_concat (chunkId : String) (chunks : List Chunk) (chunk : Chunk) :
    latest chunkId (chunks ++ [chunk]) =
      if chunkId = chunk.chunkId then some chunk else latest chunkId chunks := by
  rw [latest, byId, List.map_append, List.map_singleton, lastValue_concat]
  rfl

theorem latest_append {chunkId : String} {last : List Chunk}
    (known : chunkId ∈ last.map Chunk.chunkId) (earlier : List Chunk) :
    latest chunkId (earlier ++ last) = latest chunkId last := by
  induction last using List.reverseRecOn with
  | nil => simp at known
  | append_singleton last chunk ih =>
      rw [← List.append_assoc, latest_concat, latest_concat]
      split
      · rfl
      · next other =>
          refine ih ?_
          simpa [other] using known

theorem latest_isSome_iff {chunkId : String} {chunks : List Chunk} :
    (latest chunkId chunks).isSome = true ↔ chunkId ∈ chunks.map Chunk.chunkId := by
  rw [latest, lastValue_isSome_iff, byId, List.map_map]
  rfl

variable {data} in
theorem mem_holderIds {token chunkId : String} {chunks : List Chunk} :
    chunkId ∈ holderIds data token chunks ↔
      ∃ chunk ∈ chunks, token ∈ tokensOf data chunk ∧ chunk.chunkId = chunkId := by
  simp [holderIds, and_assoc]

variable {data} in
theorem mem_holders {token chunkId : String} {chunks : List Chunk} :
    chunkId ∈ holders data token chunks ↔
      ∃ chunk ∈ chunks, token ∈ tokensOf data chunk ∧ chunk.chunkId = chunkId := by
  rw [holders, FilledSet.mem_fill, or_iff_right (FilledSet.notMem_empty chunkId), mem_holderIds]

theorem holders_append (token : String) (chunks more : List Chunk) :
    holders data token (chunks ++ more) =
      (holders data token chunks).fill (holderIds data token more) := by
  rw [holders, holderIds, List.filter_append, List.map_append]
  exact List.foldl_append

theorem holders_concat (token : String) (chunks : List Chunk) (chunk : Chunk) :
    holders data token (chunks ++ [chunk]) =
      if token ∈ tokensOf data chunk then (holders data token chunks).add chunk.chunkId
      else holders data token chunks := by
  rw [holders_append]
  split
  · next present =>
      have one : holderIds data token [chunk] = [chunk.chunkId] := by simp [holderIds, present]
      rw [one]
      rfl
  · next absent =>
      have none : holderIds data token [chunk] = [] := by simp [holderIds, absent]
      rw [none]
      rfl

namespace BM25Retriever

variable {R : Type}

/-! ## One chunk -/

section Tokens

variable (chunkId : String) (retriever : BM25Retriever R) (tokens : List String)

/-- Indexing the tokens of a chunk leaves everything else as it is. -/
theorem indexTokens_kept :
    (tokens.foldl (indexToken chunkId) retriever).chunks = retriever.chunks ∧
      (tokens.foldl (indexToken chunkId) retriever).chunkLengths = retriever.chunkLengths ∧
      (tokens.foldl (indexToken chunkId) retriever).idf = retriever.idf ∧
      (tokens.foldl (indexToken chunkId) retriever).k1 = retriever.k1 ∧
      (tokens.foldl (indexToken chunkId) retriever).b = retriever.b := by
  induction tokens generalizing retriever with
  | nil => exact ⟨rfl, rfl, rfl, rfl, rfl⟩
  | cons token rest ih => exact ih (indexToken chunkId retriever token)

theorem indexTokens_tf (other : String) :
    (tokens.foldl (indexToken chunkId) retriever).chunkTf.get? other =
      if other = chunkId then
        (retriever.chunkTf.get? other).map fun counts =>
          counts.addAll (tokens.map fun token => (token, 1))
      else retriever.chunkTf.get? other := by
  induction tokens generalizing retriever with
  | nil => simp [addAll]
  | cons token rest ih =>
      rw [List.foldl_cons, ih]
      simp only [indexToken, get?_modify]
      split
      · rw [Option.map_map]
        rfl
      · rfl

theorem indexTokens_index (token : String) :
    (tokens.foldl (indexToken chunkId) retriever).invertedIndex.get? token =
      if token ∈ tokens then
        some (((retriever.invertedIndex.get? token).getD ∅).add chunkId)
      else retriever.invertedIndex.get? token := by
  induction tokens generalizing retriever with
  | nil => simp
  | cons first rest ih =>
      rw [List.foldl_cons, ih]
      simp only [indexToken, get?_insert]
      by_cases same : token = first
      · simp [same, FilledSet.add_add]
      · simp [same]

end Tokens

/-- The tables hold the chunks indexed so far. -/
structure Indexed (seen : List Chunk) (retriever : BM25Retriever R) : Prop where
  tf : ∀ chunkId, retriever.chunkTf.get? chunkId =
    (latest chunkId seen).map fun chunk => countsOf (tokensOf data chunk)
  lengths : ∀ chunkId, retriever.chunkLengths.get? chunkId =
    (latest chunkId seen).map fun chunk => (tokensOf data chunk).length
  index : ∀ token, retriever.invertedIndex.get? token =
    if holders data token seen = ∅ then none else some (holders data token seen)

variable {data}

theorem Indexed.init [Arithmetic R] (k1 b : R) : Indexed data [] (init k1 b) :=
  ⟨fun _ => rfl, fun _ => rfl, fun _ => rfl⟩

theorem Indexed.getD_index {seen : List Chunk} {retriever : BM25Retriever R}
    (indexed : Indexed data seen retriever) (token : String) :
    (retriever.invertedIndex.get? token).getD ∅ = holders data token seen := by
  rw [indexed.index]
  split
  · next empty => rw [empty, Option.getD_none]
  · rfl

theorem Indexed.chunk {seen : List Chunk} {retriever : BM25Retriever R}
    (indexed : Indexed data seen retriever) (chunk : Chunk) :
    Indexed data (seen ++ [chunk]) (indexChunk data retriever chunk) where
  tf := by
    intro chunkId
    simp only [indexChunk, indexTokens_tf, get?_insert, latest_concat]
    split
    · rfl
    · exact indexed.tf chunkId
  lengths := by
    intro chunkId
    simp only [indexChunk, (indexTokens_kept _ _ _).2.1, get?_insert, latest_concat]
    split
    · rfl
    · exact indexed.lengths chunkId
  index := by
    intro token
    simp only [indexChunk, indexTokens_index, holders_concat]
    split
    · next present =>
        have contained : token ∈ tokensOf data chunk := present
        have nonempty : (holders data token seen).add chunk.chunkId ≠ ∅ :=
          FilledSet.ne_empty_of_mem (FilledSet.mem_add.mpr (.inl rfl))
        rw [if_pos contained, if_neg nonempty, indexed.getD_index]
    · next absent =>
        have missing : token ∉ tokensOf data chunk := absent
        rw [if_neg missing]
        exact indexed.index token

theorem Indexed.foldl {seen : List Chunk} {retriever : BM25Retriever R}
    (indexed : Indexed data seen retriever) (chunks : List Chunk) :
    Indexed data (seen ++ chunks) (chunks.foldl (indexChunk data) retriever) := by
  induction chunks generalizing seen retriever with
  | nil => simpa using indexed
  | cons chunk rest ih => simpa using ih (indexed.chunk chunk)

theorem Indexed.chunks {seen : List Chunk} {retriever : BM25Retriever R}
    (indexed : Indexed data seen retriever) (chunks : List Chunk) :
    Indexed data (seen ++ chunks) (indexChunks data retriever chunks) := by
  have start : Indexed data seen { retriever with chunks := .ofPairs (byId chunks) } :=
    ⟨indexed.tf, indexed.lengths, indexed.index⟩
  exact start.foldl chunks

variable (data) in
theorem foldl_indexChunk_kept (retriever : BM25Retriever R) (chunks : List Chunk) :
    (chunks.foldl (indexChunk data) retriever).chunks = retriever.chunks ∧
      (chunks.foldl (indexChunk data) retriever).idf = retriever.idf ∧
      (chunks.foldl (indexChunk data) retriever).k1 = retriever.k1 ∧
      (chunks.foldl (indexChunk data) retriever).b = retriever.b := by
  induction chunks generalizing retriever with
  | nil => exact ⟨rfl, rfl, rfl, rfl⟩
  | cons chunk rest ih =>
      obtain ⟨stored, _, weights, k1, b⟩ := indexTokens_kept chunk.chunkId
        { retriever with
          chunkLengths :=
            retriever.chunkLengths.insert chunk.chunkId (tokenize data chunk.text).length
          chunkTf := retriever.chunkTf.insert chunk.chunkId .empty } (tokenize data chunk.text)
      obtain ⟨restStored, restWeights, restK1, restB⟩ := ih (indexChunk data retriever chunk)
      exact ⟨restStored.trans stored, restWeights.trans weights, restK1.trans k1,
        restB.trans b⟩

variable (data) in
theorem indexChunks_kept (retriever : BM25Retriever R) (chunks : List Chunk) :
    (indexChunks data retriever chunks).chunks = .ofPairs (byId chunks) ∧
      (indexChunks data retriever chunks).idf = retriever.idf ∧
      (indexChunks data retriever chunks).k1 = retriever.k1 ∧
      (indexChunks data retriever chunks).b = retriever.b :=
  foldl_indexChunk_kept data { retriever with chunks := .ofPairs (byId chunks) } chunks

/-! ## A series of fits -/

theorem lastValue_map_entries {Value Other : Type} (dict : OrderedDict String Value)
    (change : Value → Other) (key : String) :
    lastValue key (dict.entries.map fun entry => (entry.1, change entry.2)) =
      (dict.get? key).map change := by
  rw [← lastValue_eq_get?, lastValue, lastValue, List.filter_map, List.getLast?_map,
    Option.map_map, Option.map_map]
  rfl

section Fits

variable [Arithmetic R] (data) (log : R → R)

/-- The tables after a fit with the last chunks, with all the chunks indexed so far. -/
structure Fitted (seen last : List Chunk) (retriever : BM25Retriever R) : Prop
    extends Indexed data seen retriever where
  chunks : retriever.chunks = .ofPairs (byId last)
  avgdl : retriever.avgdl = meanLength data last
  idf : ∀ token, retriever.idf.get? token =
    (retriever.invertedIndex.get? token).map fun members => idfOf log last.length members.card

/-- Every weight belongs to a token of the index. -/
def Weighted (retriever : BM25Retriever R) : Prop :=
  ∀ token, retriever.invertedIndex.get? token = none → retriever.idf.get? token = none

variable {data log}

theorem Fitted.weighted {seen last : List Chunk} {retriever : BM25Retriever R}
    (fitted : Fitted data log seen last retriever) : Weighted retriever := by
  intro token absent
  rw [fitted.idf, absent, Option.map_none]

variable (log) in
theorem get?_weigh (retriever : BM25Retriever R) (numDocs : Nat) (token : String) :
    (weigh log retriever numDocs).get? token =
      ((retriever.invertedIndex.get? token).map fun members =>
        idfOf log numDocs members.card).or (retriever.idf.get? token) := by
  rw [weigh, get?_insertAll,
    lastValue_map_entries _ fun members : FilledSet String => idfOf log numDocs members.card]

variable (log) in
/-- A fit replaces the chunks, the mean length and the weights, and adds to the rest. -/
theorem Indexed.fit {seen : List Chunk} {retriever : BM25Retriever R}
    (indexed : Indexed data seen retriever) (weighted : Weighted retriever)
    (chunks : List Chunk) :
    Fitted data log (seen ++ chunks) chunks (BM25Retriever.fit data log retriever chunks) := by
  have tables := indexed.chunks chunks
  obtain ⟨stored, weights, _, _⟩ := indexChunks_kept data retriever chunks
  refine ⟨⟨tables.tf, tables.lengths, tables.index⟩, stored, rfl, fun token => ?_⟩
  have index : (BM25Retriever.fit data log retriever chunks).invertedIndex =
      (indexChunks data retriever chunks).invertedIndex := rfl
  rw [index]
  refine (get?_weigh log _ _ token).trans ?_
  cases found : (indexChunks data retriever chunks).invertedIndex.get? token with
  | some members => rfl
  | none =>
      have old : retriever.invertedIndex.get? token = none := by
        have empty : holders data token seen = ∅ := by
          refine FilledSet.eq_empty_iff.mpr fun chunkId held => ?_
          have joined : holders data token (seen ++ chunks) ≠ ∅ := by
            rw [holders_append]
            exact FilledSet.ne_empty_of_mem (FilledSet.mem_fill.mpr (.inl held))
          rw [tables.index, if_neg joined] at found
          cases found
        rw [indexed.index, if_pos empty]
      rw [weights, weighted token old]
      rfl

/-- The retriever after a series of fits. -/
def fitAll (data : UnicodeData) (log : R → R) (retriever : BM25Retriever R)
    (corpora : List (List Chunk)) : BM25Retriever R :=
  corpora.foldl (BM25Retriever.fit data log) retriever

variable (data log) in
theorem fit_parameters (retriever : BM25Retriever R) (chunks : List Chunk) :
    (fit data log retriever chunks).k1 = retriever.k1 ∧
      (fit data log retriever chunks).b = retriever.b :=
  (indexChunks_kept data retriever chunks).2.2

variable (data log) in
theorem fitAll_parameters (retriever : BM25Retriever R) (corpora : List (List Chunk)) :
    (fitAll data log retriever corpora).k1 = retriever.k1 ∧
      (fitAll data log retriever corpora).b = retriever.b := by
  induction corpora generalizing retriever with
  | nil => exact ⟨rfl, rfl⟩
  | cons corpus rest ih =>
      obtain ⟨k1, b⟩ := ih (fit data log retriever corpus)
      obtain ⟨fitK1, fitB⟩ := fit_parameters data log retriever corpus
      exact ⟨k1.trans fitK1, b.trans fitB⟩

variable (data log) in
theorem fitAll_indexed (k1 b : R) (corpora : List (List Chunk)) :
    Indexed data corpora.flatten (fitAll data log (init k1 b) corpora) ∧
      Weighted (fitAll data log (init k1 b) corpora) := by
  induction corpora using List.reverseRecOn with
  | nil => exact ⟨.init k1 b, fun _ _ => rfl⟩
  | append_singleton corpora corpus ih =>
      have fitted := ih.1.fit log ih.2 corpus
      rw [fitAll, List.foldl_concat, List.flatten_concat]
      exact ⟨fitted.toIndexed, fitted.weighted⟩

variable (data log) in
/-- The tables after any series of fits. -/
theorem fitAll_fitted (k1 b : R) (corpora : List (List Chunk)) (last : List Chunk) :
    Fitted data log (corpora.flatten ++ last) last
      (fitAll data log (init k1 b) (corpora ++ [last])) := by
  obtain ⟨indexed, weighted⟩ := fitAll_indexed data log k1 b corpora
  rw [fitAll, List.foldl_concat]
  exact indexed.fit log weighted last

end Fits

end BM25Retriever

end DurableAgent.Retrieval
