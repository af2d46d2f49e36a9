import DurableAgent.Retrieval.FittedSearch
import Mathlib.Analysis.SpecialFunctions.Log.Basic

/-!
# Indexed and exhaustive scoring

A retriever that was fitted once with chunks of distinct identifiers returns the best of
the chunks that share a token with the query, by the score computed from the chunks alone.
-/

set_option autoImplicit false

namespace DurableAgent.Retrieval

open Library OrderedDict Python SimpleTokenizer BM25Retriever

variable (data : UnicodeData)

/-- How many of the chunks have the token. -/
def documentFrequency (corpus : List Chunk) (token : String) : Nat :=
  corpus.countP fun chunk => decide (token ∈ tokensOf data chunk)

section Loop

variable {R : Type} [Arithmetic R] (log : R → R) (k1 b : R) (corpus : List Chunk)

/-- What a token of the query is worth in a chunk, by the chunk's own tokens. -/
def worth (chunk : Chunk) (token : String) : R :=
  idfOf log corpus.length (documentFrequency data corpus token) *
    termFactor k1 b (meanLength data corpus) (tokensOf data chunk) token

/-- The score of a chunk as a search adds it up: the query tokens that the chunk has, with
repeated ones counted each time, from the first one to the last. -/
def chunkScore (tokens : List String) (chunk : Chunk) : R :=
  runningSum ((tokens.filter fun token => decide (token ∈ tokensOf data chunk)).map
    (worth data log k1 b corpus chunk))

variable {data log k1 b corpus}

theorem worth_congr {first second : Chunk} {token other : String}
    (frequency : documentFrequency data corpus token = documentFrequency data corpus other)
    (counts : (tokensOf data first).count token = (tokensOf data second).count other)
    (lengths : (tokensOf data first).length = (tokensOf data second).length) :
    worth data log k1 b corpus first token = worth data log k1 b corpus second other := by
  simp only [worth, termFactor, damped, frequency, counts, lengths]

end Loop

section Score

variable {R : Type} [Field R] (log : R → R) (k1 b : R)

/-- The score of a chunk, by its own tokens, with repeated query tokens counted each time. -/
def exhaustiveScore (corpus : List Chunk) (tokens : List String) (chunk : Chunk) : R :=
  (tokens.map fun token =>
    idfOf log corpus.length (documentFrequency data corpus token) *
      termFactor k1 b (meanLength data corpus) (tokensOf data chunk) token).sum

/-- Exactly, a token that the chunk does not have adds nothing. -/
theorem chunkScore_eq (corpus : List Chunk) (tokens : List String) (chunk : Chunk) :
    chunkScore data log k1 b corpus tokens chunk =
      exhaustiveScore data log k1 b corpus tokens chunk := by
  refine runningSum_filter fun token missing => ?_
  rw [worth, termFactor_of_not_mem _ _ _ _ _ (of_decide_eq_false missing), mul_zero]

end Score

def SharesToken (tokens : List String) (chunk : Chunk) : Prop :=
  ∃ token ∈ tokens, token ∈ tokensOf data chunk

instance (tokens : List String) : DecidablePred (SharesToken data tokens) :=
  fun _ => inferInstanceAs (Decidable (∃ _ ∈ _, _))

/-- The best of the chunks that match, as many as wanted, by falling score. -/
structure Best {R : Type} [LinearOrder R] (score : Chunk → R) (corpus : List Chunk)
    (tokens : List String) (wanted : Nat) (ranked : List Chunk) : Prop where
  length : ranked.length =
    min wanted (corpus.countP fun chunk => decide (SharesToken data tokens chunk))
  distinct : ranked.Nodup
  found : ∀ chunk ∈ ranked, chunk ∈ corpus ∧ SharesToken data tokens chunk
  falling : ranked.Pairwise fun first second => score second ≤ score first
  leftOut : ∀ chunk ∈ corpus, chunk ∉ ranked → ∀ hit ∈ ranked, score chunk ≤ score hit

/-! ## Distinct identifiers -/

section Distinct

variable {data} {corpus : List Chunk} (distinct : (corpus.map Chunk.chunkId).Nodup)

include distinct

theorem latest_of_mem {chunk : Chunk} (member : chunk ∈ corpus) :
    latest chunk.chunkId corpus = some chunk := by
  obtain ⟨found, last⟩ := Option.isSome_iff_exists.mp
    (latest_isSome_iff.mpr (List.mem_map_of_mem (f := Chunk.chunkId) member))
  obtain ⟨within, named⟩ := chunk_of_latest last
  rw [last, List.inj_on_of_nodup_map distinct within member named]

theorem chunkAt_of_mem {chunk : Chunk} (member : chunk ∈ corpus) :
    chunkAt corpus chunk.chunkId = chunk := by
  rw [chunkAt, latest_of_mem distinct member, Option.getD_some]

theorem mem_holders_iff {chunk : Chunk} (member : chunk ∈ corpus) {token : String} :
    chunk.chunkId ∈ holders data token corpus ↔ token ∈ tokensOf data chunk := by
  rw [mem_holders]
  constructor
  · rintro ⟨other, within, contains, named⟩
    rwa [← List.inj_on_of_nodup_map distinct within member named]
  · exact fun contains => ⟨chunk, member, contains, rfl⟩

theorem card_holders (token : String) :
    (holders data token corpus).card = documentFrequency data corpus token := by
  have few : (holderIds data token corpus).Nodup :=
    distinct.sublist (List.filter_sublist.map _)
  have added : (holders data token corpus).added = holderIds data token corpus :=
    FilledSet.added_fill few
  rw [FilledSet.card, added, holderIds, List.length_map, documentFrequency,
    List.countP_eq_length_filter]

variable {R : Type} [Arithmetic R] {log : R → R} {k1 b : R} {tokens : List String}

/-- The tables give the score that the chunk's own tokens do. -/
theorem scoreOf_eq {chunk : Chunk} (member : chunk ∈ corpus) :
    scoreOf data log k1 b corpus corpus tokens chunk.chunkId =
      chunkScore data log k1 b corpus tokens chunk := by
  unfold scoreOf chunkScore
  simp only [mem_holders_iff distinct member]
  refine congrArg runningSum (List.map_congr_left fun token _ => ?_)
  rw [amount, card_holders distinct, chunkAt_of_mem distinct member, worth]

variable [LinearOrder R]

variable (data log k1 b) in
omit distinct in
/-- The chunks in the order of their ranks. -/
def rankedChunks (order : SetOrder) (corpus : List Chunk) (tokens : List String) : List Chunk :=
  (rankedIds data log k1 b corpus corpus order tokens).map (chunkAt corpus)

omit distinct in
theorem rankedIds_eq (order : SetOrder) :
    rankedIds data log k1 b corpus corpus order tokens =
      (rankedChunks data log k1 b order corpus tokens).map Chunk.chunkId := by
  rw [rankedChunks, List.map_map]
  conv_lhs => rw [← List.map_id (rankedIds data log k1 b corpus corpus order tokens)]
  exact List.map_congr_left fun chunkId _ => (chunkAt_chunkId corpus chunkId).symm

theorem mem_rankedChunks {order : SetOrder} {chunk : Chunk} :
    chunk ∈ rankedChunks data log k1 b order corpus tokens ↔
      chunk ∈ corpus ∧ SharesToken data tokens chunk := by
  constructor
  · intro member
    obtain ⟨chunkId, ranked, rfl⟩ := List.mem_map.mp member
    obtain ⟨token, among, held⟩ := mem_rankedIds.mp ranked
    obtain ⟨within, _⟩ := chunk_of_latest (latest_of_mem_holders held)
    refine ⟨within, token, among, (mem_holders_iff distinct within).mp ?_⟩
    rwa [chunkAt_chunkId]
  · rintro ⟨within, token, among, contains⟩
    refine List.mem_map.mpr ⟨chunk.chunkId, mem_rankedIds.mpr ⟨token, among, ?_⟩,
      chunkAt_of_mem distinct within⟩
    exact (mem_holders_iff distinct within).mpr contains

omit distinct in
theorem nodup_rankedChunks (order : SetOrder) :
    (rankedChunks data log k1 b order corpus tokens).Nodup := by
  have ids : (rankedIds data log k1 b corpus corpus order tokens).Nodup := nodup_rankedIds order
  rw [rankedIds_eq] at ids
  exact ids.of_map

theorem rankedChunks_perm (order : SetOrder) :
    (rankedChunks data log k1 b order corpus tokens).Perm
      (corpus.filter fun chunk => decide (SharesToken data tokens chunk)) := by
  rw [List.perm_ext_iff_of_nodup (nodup_rankedChunks order) (distinct.of_map.filter _)]
  intro chunk
  rw [mem_rankedChunks distinct, List.mem_filter, decide_eq_true_iff]

theorem length_rankedChunks (order : SetOrder) :
    (rankedChunks data log k1 b order corpus tokens).length =
      corpus.countP fun chunk => decide (SharesToken data tokens chunk) := by
  rw [(rankedChunks_perm distinct order).length_eq, List.countP_eq_length_filter]

theorem falling_rankedChunks (order : SetOrder) :
    (rankedChunks data log k1 b order corpus tokens).Pairwise fun first second =>
      chunkScore data log k1 b corpus tokens second ≤
        chunkScore data log k1 b corpus tokens first := by
  have sorted : (rankedIds data log k1 b corpus corpus order tokens).Pairwise
      fun first second => scoreOf data log k1 b corpus corpus tokens second ≤
        scoreOf data log k1 b corpus corpus tokens first :=
    rankBy_sorted _ _
  rw [rankedIds_eq, List.pairwise_map] at sorted
  refine sorted.imp_of_mem fun firstIn secondIn below => ?_
  obtain ⟨first, _⟩ := (mem_rankedChunks distinct).mp firstIn
  obtain ⟨second, _⟩ := (mem_rankedChunks distinct).mp secondIn
  rwa [scoreOf_eq distinct first, scoreOf_eq distinct second] at below

variable [Rounding R]

omit distinct in
def hitOfChunk (score : Chunk → R) (entry : Chunk × Nat) : RetrievalHit R where
  chunkId := entry.1.chunkId
  documentId := entry.1.documentId
  text := entry.1.text
  score := Rounding.round 4 (score entry.1)
  rank := entry.2

/-- A search in terms of the chunks. -/
theorem search_fit {query : String}
    (divisible : Divisible data k1 b corpus corpus (tokenize data query)) (order : SetOrder)
    (topK : Int) :
    search data order (fit data log (init k1 b) corpus) query topK =
      .ok (((sliceTo (rankedChunks data log k1 b order corpus (tokenize data query))
        topK).zipIdx 1).map
          (hitOfChunk (chunkScore data log k1 b corpus (tokenize data query)))) := by
  rw [search_fresh divisible, rankedIds_eq, sliceTo_map, List.zipIdx_map, List.map_map]
  refine congrArg Except.ok (List.map_congr_left fun entry member => ?_)
  have ranked := mem_of_mem_sliceTo (List.fst_mem_of_mem_zipIdx member)
  obtain ⟨within, _⟩ := (mem_rankedChunks distinct).mp ranked
  simp [hitFor, hitOfChunk, chunkAt_of_mem distinct within, scoreOf_eq distinct within]

end Distinct

/-! ## The best chunks -/

section Exact

variable {data} {corpus : List Chunk} {R : Type} [Field R] [LinearOrder R]
  [IsStrictOrderedRing R] {log : R → R} {k1 b : R} {tokens : List String}
  (log_nonneg : ∀ value : R, 1 ≤ value → 0 ≤ log value) (weight : 0 < k1) (lower : 0 ≤ b)
  (upper : b < 1)

include log_nonneg weight lower upper

theorem exhaustiveScore_nonneg (chunk : Chunk) :
    0 ≤ exhaustiveScore data log k1 b corpus tokens chunk := by
  refine List.sum_nonneg fun term member => ?_
  obtain ⟨token, _, rfl⟩ := List.mem_map.mp member
  have few : (documentFrequency data corpus token : R) ≤ corpus.length :=
    Nat.cast_le.mpr List.countP_le_length
  have half : (0 : R) < 0.5 := by norm_num
  have idf : (0 : R) ≤ idfOf log corpus.length (documentFrequency data corpus token) := by
    refine log_nonneg _ (le_add_of_nonneg_left (div_nonneg ?_ ?_))
    · rw [Int.cast_sub, Int.cast_natCast, Int.cast_natCast]
      exact add_nonneg (sub_nonneg.mpr few) half.le
    · exact add_nonneg (Nat.cast_nonneg _) half.le
  have mean : (0 : R) ≤ meanLength data corpus := meanLength_nonneg corpus
  have damp := damped_pos weight lower upper mean (tokensOf data chunk) token
  refine mul_nonneg idf (div_nonneg (mul_nonneg (Nat.cast_nonneg _) ?_) damp.le)
  exact (add_pos weight one_pos).le

/-- The first of the ranked chunks are the best ones. -/
theorem best_take (distinct : (corpus.map Chunk.chunkId).Nodup) (order : SetOrder)
    (wanted : Nat) :
    Best data (exhaustiveScore data log k1 b corpus tokens) corpus tokens wanted
      ((rankedChunks data log k1 b order corpus tokens).take wanted) where
  length := by rw [List.length_take, length_rankedChunks distinct]
  distinct := (nodup_rankedChunks order).sublist (List.take_sublist _ _)
  found := fun chunk member => (mem_rankedChunks distinct).mp (List.mem_of_mem_take member)
  falling := by
    simp only [← chunkScore_eq]
    exact (falling_rankedChunks distinct order).sublist (List.take_sublist _ _)
  leftOut := by
    intro chunk member absent hit kept
    by_cases shares : SharesToken data tokens chunk
    · have ranked : chunk ∈ rankedChunks data log k1 b order corpus tokens :=
        (mem_rankedChunks distinct).mpr ⟨member, shares⟩
      have split : (rankedChunks data log k1 b order corpus tokens).Pairwise fun first second =>
          chunkScore data log k1 b corpus tokens second ≤
            chunkScore data log k1 b corpus tokens first :=
        falling_rankedChunks distinct order
      rw [← List.take_append_drop wanted (rankedChunks data log k1 b order corpus tokens)]
        at ranked split
      have later := (List.mem_append.mp ranked).resolve_left absent
      rw [← chunkScore_eq, ← chunkScore_eq]
      exact (List.pairwise_append.mp split).2.2 hit kept chunk later
    · have nothing : exhaustiveScore data log k1 b corpus tokens chunk = 0 := by
        refine List.sum_eq_zero fun term within => ?_
        obtain ⟨token, among, rfl⟩ := List.mem_map.mp within
        have missing : token ∉ tokensOf data chunk := fun contains =>
          shares ⟨token, among, contains⟩
        rw [termFactor_of_not_mem _ _ _ _ _ missing, mul_zero]
      rw [nothing]
      exact exhaustiveScore_nonneg log_nonneg weight lower upper hit

end Exact

/-- With exact real scores an index returns what scoring every chunk would. -/
theorem search_exhaustive {corpus : List Chunk} (distinct : (corpus.map Chunk.chunkId).Nodup)
    (order : SetOrder) (query : String) (topK : Nat) :
    ∃ ranked, search data order (fit data Real.log (init 1.5 0.75) corpus) query topK =
        .ok ((ranked.zipIdx 1).map (hitOfChunk
          (exhaustiveScore data Real.log 1.5 0.75 corpus (tokenize data query)))) ∧
      Best data (exhaustiveScore data Real.log 1.5 0.75 corpus (tokenize data query))
        corpus (tokenize data query) topK ranked := by
  have divisible : Divisible data (1.5 : ℝ) 0.75 corpus corpus (tokenize data query) :=
    divisible_of_pos data corpus (by norm_num) (by norm_num) (by norm_num) _
  have exact : chunkScore data Real.log 1.5 0.75 corpus (tokenize data query) =
      exhaustiveScore data Real.log 1.5 0.75 corpus (tokenize data query) :=
    funext fun chunk => chunkScore_eq data Real.log 1.5 0.75 corpus _ chunk
  refine ⟨_, ?_, best_take (fun _ => Real.log_nonneg) (by norm_num) (by norm_num)
    (by norm_num) distinct order topK⟩
  rw [search_fit distinct divisible, sliceTo_natCast, exact]

private def inflationRose : Chunk :=
  { chunkId := "d1_c0", documentId := "d1", text := "Inflation rose." }

private def inflationFell : Chunk :=
  { chunkId := "d1_c1", documentId := "d1", text := "Inflation fell to 2." }

private def ratesRose : Chunk :=
  { chunkId := "d2_c0", documentId := "d2", text := "Rates rose." }

theorem search_inflation :
    ∃ ranked, search .ascii (.leading "d1_c0") (fit .ascii Real.log (init 1.5 0.75)
          [inflationRose, inflationFell, ratesRose]) "Inflation rose" (2 : Nat) =
        .ok ((ranked.zipIdx 1).map (hitOfChunk (exhaustiveScore .ascii Real.log 1.5 0.75
          [inflationRose, inflationFell, ratesRose] (tokenize .ascii "Inflation rose")))) ∧
      Best .ascii (exhaustiveScore .ascii Real.log 1.5 0.75
          [inflationRose, inflationFell, ratesRose] (tokenize .ascii "Inflation rose"))
        [inflationRose, inflationFell, ratesRose] (tokenize .ascii "Inflation rose") 2 ranked :=
  search_exhaustive .ascii (by decide) (.leading "d1_c0") "Inflation rose" 2

end DurableAgent.Retrieval
