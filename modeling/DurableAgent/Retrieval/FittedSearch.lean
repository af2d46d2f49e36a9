import DurableAgent.Retrieval.Bm25Search
import Mathlib.Algebra.Order.BigOperators.Group.List

/-!
# Searching a fitted index

What a search returns in terms of the chunks. The sets and the token counts are those of all
the chunks seen so far, the mean length and the stored chunks those of the last fit.
Identifiers may be repeated: the latest chunk with an identifier stands for it.
-/

set_option autoImplicit false

namespace DurableAgent.Retrieval

open Library OrderedDict Python SimpleTokenizer

variable (data : UnicodeData)

/-- The chunk stored under an identifier; what stands for a missing one is not used. -/
def chunkAt (corpus : List Chunk) (chunkId : String) : Chunk :=
  (latest chunkId corpus).getD { chunkId := chunkId, documentId := "", text := "" }

/-- Where in the query the first token stands that leads to the identifier. -/
def found (seen : List Chunk) (tokens : List String) (chunkId : String) : Nat :=
  tokens.findIdx fun token => decide (chunkId ∈ holders data token seen)

/-- The identifiers that a query reaches, in the order in which it does. -/
def reached (order : SetOrder) (seen : List Chunk) (tokens : List String) : List String :=
  tokens.flatMap fun token => order.items token (holders data token seen)

variable {data} in
theorem latest_of_mem_holders {token chunkId : String} {seen : List Chunk}
    (held : chunkId ∈ holders data token seen) :
    latest chunkId seen = some (chunkAt seen chunkId) := by
  obtain ⟨holder, among, _, named⟩ := mem_holders.mp held
  have known := latest_isSome_iff.mpr (List.mem_map.mpr ⟨holder, among, named⟩)
  obtain ⟨chunk, found⟩ := Option.isSome_iff_exists.mp known
  rw [chunkAt, found, Option.getD_some]

theorem chunk_of_latest {chunkId : String} {corpus : List Chunk} {chunk : Chunk}
    (found : latest chunkId corpus = some chunk) : chunk ∈ corpus ∧ chunk.chunkId = chunkId := by
  obtain ⟨stored, within, same⟩ := List.mem_map.mp (mem_of_lastValue found)
  obtain ⟨names, rfl⟩ := Prod.mk.inj same
  exact ⟨within, names⟩

theorem chunkAt_chunkId (corpus : List Chunk) (chunkId : String) :
    (chunkAt corpus chunkId).chunkId = chunkId := by
  unfold chunkAt
  cases found : latest chunkId corpus with
  | none => rfl
  | some chunk => exact (chunk_of_latest found).2

theorem chunkId_of_mem_holders {data : UnicodeData} {token chunkId : String}
    {corpus : List Chunk} (held : chunkId ∈ holders data token corpus) :
    chunkId ∈ corpus.map Chunk.chunkId := by
  obtain ⟨holder, among, _, named⟩ := mem_holders.mp held
  exact List.mem_map.mpr ⟨holder, among, named⟩

namespace BM25Retriever

variable {R : Type} [Arithmetic R] (log : R → R) (k1 b : R) (seen last : List Chunk)

/-- What a token adds to the score of an identifier. -/
def amount (token chunkId : String) : R :=
  idfOf log last.length (holders data token seen).card *
    termFactor k1 b (meanLength data last) (tokensOf data (chunkAt seen chunkId)) token

def amounts (order : SetOrder) (tokens : List String) : List (String × R) :=
  tokens.flatMap fun token =>
    (order.items token (holders data token seen)).map fun chunkId =>
      (chunkId, amount data log k1 b seen last token chunkId)

/-- What a query adds up to for an identifier, from its first token to the last. -/
def scoreOf (tokens : List String) (chunkId : String) : R :=
  runningSum ((tokens.filter fun token => decide (chunkId ∈ holders data token seen)).map
    fun token => amount data log k1 b seen last token chunkId)

/-- No denominator vanishes. -/
def Divisible (tokens : List String) : Prop :=
  ∀ token ∈ tokens, ∀ chunkId ∈ holders data token seen,
    meanLength (R := R) data last ≠ 0 ∧
      damped k1 b (meanLength data last) (tokensOf data (chunkAt seen chunkId)) token ≠ 0

def hitFor [Rounding R] (entry : (String × R) × Nat) : RetrievalHit R where
  chunkId := (chunkAt last entry.1.1).chunkId
  documentId := (chunkAt last entry.1.1).documentId
  text := (chunkAt last entry.1.1).text
  score := Rounding.round 4 entry.1.2
  rank := entry.2

section Ranks

variable {data log} {k1 b} {seen last} {tokens : List String}

theorem total_amounts (order : SetOrder) (chunkId : String) :
    total chunkId (amounts data log k1 b seen last order tokens) =
      scoreOf data log k1 b seen last tokens chunkId := by
  rw [amounts, total_flatMap chunkId tokens fun token => order.nodup token _, scoreOf]
  simp only [order.mem_iff]

theorem map_fst_amounts (order : SetOrder) :
    (amounts data log k1 b seen last order tokens).map Prod.fst =
      reached data order seen tokens := by
  simp [amounts, reached, List.map_flatMap, Function.comp_def]

theorem mem_reached {order : SetOrder} {chunkId : String} :
    chunkId ∈ reached data order seen tokens ↔
      ∃ token ∈ tokens, chunkId ∈ holders data token seen := by
  simp [reached, order.mem_iff]

variable [LinearOrder R]

variable (data log k1 b seen last) in
/-- The identifiers in the order of their ranks. -/
def rankedIds (order : SetOrder) (tokens : List String) : List String :=
  rankBy (scoreOf data log k1 b seen last tokens) (reached data order seen tokens).eraseDups

theorem mem_rankedIds {order : SetOrder} {chunkId : String} :
    chunkId ∈ rankedIds data log k1 b seen last order tokens ↔
      ∃ token ∈ tokens, chunkId ∈ holders data token seen := by
  rw [rankedIds, mem_rankBy, List.mem_eraseDups, mem_reached]

theorem chunkId_of_ranked {order : SetOrder} {chunkId : String}
    (ranked : chunkId ∈ rankedIds data log k1 b seen last order tokens) :
    chunkId ∈ seen.map Chunk.chunkId := by
  obtain ⟨token, _, held⟩ := mem_rankedIds.mp ranked
  exact chunkId_of_mem_holders held

theorem rankedIds_eq_nil_iff {order : SetOrder} :
    rankedIds data log k1 b seen last order tokens = [] ↔
      ∀ token ∈ tokens, holders data token seen = ∅ := by
  simp only [List.eq_nil_iff_forall_not_mem, FilledSet.eq_empty_iff, mem_rankedIds,
    not_exists, not_and]
  exact ⟨fun none token among chunkId => none chunkId token among,
    fun unmatched chunkId token among => unmatched token among chunkId⟩

theorem nodup_rankedIds (order : SetOrder) :
    (rankedIds data log k1 b seen last order tokens).Nodup :=
  (rankBy_perm _ _).nodup_iff.mpr (nodup_eraseDups _)

variable (data log k1 b seen last tokens) in
/-- The ranking follows the scores, then the query, then the order of the sets. -/
theorem rankedIds_pairwise (order : SetOrder) (within : String → String → String → Prop)
    (each : ∀ token ∈ tokens,
      (order.items token (holders data token seen)).Pairwise (within token)) :
    (rankedIds data log k1 b seen last order tokens).Pairwise fun first second =>
      scoreOf data log k1 b seen last tokens second <
          scoreOf data log k1 b seen last tokens first ∨
        scoreOf data log k1 b seen last tokens second =
            scoreOf data log k1 b seen last tokens first ∧
          (found data seen tokens first < found data seen tokens second ∨
            found data seen tokens first = found data seen tokens second ∧
              ∃ token, tokens[found data seen tokens first]? = some token ∧
                within token first second) := by
  have groups : firstGroup (fun token => order.items token (holders data token seen)) tokens =
      found data seen tokens := by
    funext chunkId
    simp only [firstGroup, found, order.mem_iff]
  have reaches := pairwise_firstGroup each
  rw [groups] at reaches
  exact rankBy_stable reaches

theorem rankBy_amounts (order : SetOrder) :
    rankBy Prod.snd
        (OrderedDict.empty.addAll (amounts data log k1 b seen last order tokens)).entries =
      (rankedIds data log k1 b seen last order tokens).map fun chunkId =>
        (chunkId, scoreOf data log k1 b seen last tokens chunkId) := by
  rw [entries_addAll, map_fst_amounts, rankedIds]
  simp only [total_amounts]
  exact rankBy_map Prod.snd _ _

end Ranks

/-! ## The scores -/

section Scores

variable {data log} {k1 b} {seen last} {retriever : BM25Retriever R}
  (fitted : Fitted data log seen last retriever)

include fitted

theorem targets_fitted (order : SetOrder) (token : String) :
    targets order retriever token = order.items token (holders data token seen) := by
  have stored := fitted.getD_index token
  unfold targets
  split
  · next weightless =>
      rw [fitted.idf, Option.map_eq_none_iff] at weightless
      rw [weightless, Option.getD_none] at stored
      symm
      rw [← stored, List.eq_nil_iff_forall_not_mem]
      intro item member
      simpa using (order.mem_iff _ _ _).mp member
  · rw [stored]

theorem idf_fitted {token chunkId : String} (held : chunkId ∈ holders data token seen) :
    retriever.idf.get? token =
      some (idfOf log last.length (holders data token seen).card) := by
  rw [fitted.idf, fitted.index, if_neg (FilledSet.ne_empty_of_mem held)]
  rfl

theorem mem_steps_fitted {order : SetOrder} {tokens : List String} {step : String × String} :
    step ∈ steps order retriever tokens ↔
      step.1 ∈ tokens ∧ step.2 ∈ holders data step.1 seen := by
  rw [mem_steps, targets_fitted fitted, order.mem_iff]

variable [LinearOrder R] (k1Same : retriever.k1 = k1) (bSame : retriever.b = b)

include k1Same bSame

theorem contribution_fitted {token chunkId : String}
    (held : chunkId ∈ holders data token seen) :
    retriever.contribution (token, chunkId) =
      if meanLength (R := R) data last = 0 ∨
          damped k1 b (meanLength data last) (tokensOf data (chunkAt seen chunkId)) token = 0
      then .error .zeroDivisionError
      else .ok (chunkId, amount data log k1 b seen last token chunkId) := by
  rw [contribution_eq (idf_fitted fitted held),
    fitted.termScore (latest_of_mem_holders held) _ token, fitted.avgdl, k1Same, bSame]
  split
  · rfl
  · rfl

theorem mapM_contribution {tokens : List String}
    (divisible : Divisible data k1 b seen last tokens) (order : SetOrder) :
    (steps order retriever tokens).mapM retriever.contribution =
      .ok (amounts data log k1 b seen last order tokens) := by
  have each : ∀ step ∈ steps order retriever tokens, retriever.contribution step =
      .ok (step.2, amount data log k1 b seen last step.1 step.2) := by
    rintro ⟨token, chunkId⟩ member
    obtain ⟨among, held⟩ := (mem_steps_fitted fitted).mp member
    obtain ⟨mean, damp⟩ := divisible token among chunkId held
    rw [contribution_fitted fitted k1Same bSame held, if_neg (not_or.mpr ⟨mean, damp⟩)]
  rw [mapM_ok each, steps, amounts, List.map_flatMap]
  congr 1
  refine List.flatMap_congr fun token _ => ?_
  rw [targets_fitted fitted, List.map_map]
  rfl

/-- A vanishing denominator ends the scoring whatever the order is. -/
theorem mapM_contribution_error {tokens : List String}
    (vanishing : ¬ Divisible data k1 b seen last tokens) (order : SetOrder) :
    (steps order retriever tokens).mapM retriever.contribution = .error .zeroDivisionError := by
  simp only [Divisible, not_forall] at vanishing
  obtain ⟨token, among, chunkId, held, zero⟩ := vanishing
  have member : (token, chunkId) ∈ steps order retriever tokens :=
    (mem_steps_fitted fitted).mpr ⟨among, held⟩
  refine mapM_error ?_ member ?_
  · rintro ⟨other, otherId⟩ within
    obtain ⟨_, heldToo⟩ := (mem_steps_fitted fitted).mp within
    rw [contribution_fitted fitted k1Same bSame heldToo]
    split
    · exact .inr rfl
    · exact .inl ⟨_, rfl⟩
  · rw [contribution_fitted fitted k1Same bSame held]
    rw [not_and_or, not_not, not_not] at zero
    exact if_pos zero

/-- The scores of a search, in the order in which their dictionary lists them. -/
theorem foldlM_scoreToken_fitted {tokens : List String}
    (divisible : Divisible data k1 b seen last tokens) (order : SetOrder) :
    tokens.foldlM (scoreToken order retriever) .empty =
      .ok (OrderedDict.empty.addAll (amounts data log k1 b seen last order tokens)) := by
  rw [foldlM_scoreToken, mapM_contribution fitted k1Same bSame divisible]
  rfl

end Scores

/-! ## The hits -/

section Hits

variable {data log} {k1 b} {seen last} {retriever : BM25Retriever R}
  (fitted : Fitted data log seen last retriever) [Rounding R]

include fitted

theorem hitOf_fitted {chunkId : String} (known : chunkId ∈ last.map Chunk.chunkId) (score : R)
    (rank : Nat) :
    retriever.hitOf ((chunkId, score), rank) = .ok (hitFor last ((chunkId, score), rank)) := by
  obtain ⟨chunk, found⟩ := Option.isSome_iff_exists.mp (latest_isSome_iff.mpr known)
  have stored : lookup retriever.chunks chunkId = .ok (chunkAt last chunkId) := by
    have chunk : lastValue chunkId (byId last) = some chunk := found
    rw [lookup, fitted.chunks, ofPairs, get?_insertAll, get?_empty, Option.or_none, chunk,
      chunkAt, found, Option.getD_some]
  rw [hitOf, storedHit, stored]
  rfl

theorem hitOf_missing {chunkId : String} (absent : chunkId ∉ last.map Chunk.chunkId) (score : R)
    (rank : Nat) : retriever.hitOf ((chunkId, score), rank) = .error (.keyError chunkId) := by
  have missing : lastValue chunkId (byId last) = none := by
    rw [← Option.not_isSome_iff_eq_none]
    exact fun known => absent (latest_isSome_iff.mp known)
  have lost : lookup retriever.chunks chunkId = .error (.keyError chunkId) := by
    rw [lookup, fitted.chunks, ofPairs, get?_insertAll, missing]
    rfl
  rw [hitOf, storedHit, lost]
  rfl

variable [LinearOrder R] (k1Same : retriever.k1 = k1) (bSame : retriever.b = b) {query : String}

include k1Same bSame

/-- The ranks decide which chunks a search reads. -/
theorem search_ranked (nonempty : last ≠ [])
    (divisible : Divisible data k1 b seen last (tokenize data query)) (order : SetOrder)
    (topK : Int) :
    search data order retriever query topK =
      ((sliceTo (rankedIds data log k1 b seen last order (tokenize data query)) topK).zipIdx
        1).mapM fun entry => retriever.hitOf
          ((entry.1, scoreOf data log k1 b seen last (tokenize data query) entry.1), entry.2) := by
  rw [search_eq, mapM_contribution fitted k1Same bSame divisible]
  split
  · next nothing =>
      have noTokens : tokenize data query = [] :=
        nothing.resolve_right ((chunks_empty_iff fitted).not.mpr nonempty)
      have none : rankedIds data log k1 b seen last order (tokenize data query) = [] :=
        rankedIds_eq_nil_iff.mpr (by simp [noTokens])
      rw [none, sliceTo, List.take_nil]
      rfl
  · simp only [Except.bind, rankBy_amounts, sliceTo_map, List.zipIdx_map, List.mapM_map]
    rfl

/-- A search returns the hits of the first ranks if their chunks are stored. -/
theorem search_fitted (divisible : Divisible data k1 b seen last (tokenize data query))
    {order : SetOrder} (stored : ∀ chunkId ∈ rankedIds data log k1 b seen last order
      (tokenize data query), chunkId ∈ last.map Chunk.chunkId) (topK : Int) :
    search data order retriever query topK =
      .ok (((sliceTo (rankedIds data log k1 b seen last order (tokenize data query))
        topK).zipIdx 1).map fun entry => hitFor last
          ((entry.1, scoreOf data log k1 b seen last (tokenize data query) entry.1),
            entry.2)) := by
  by_cases empty : last = []
  · have none : rankedIds data log k1 b seen last order (tokenize data query) = [] :=
      List.eq_nil_iff_forall_not_mem.mpr fun chunkId ranked => by
        simpa [empty] using stored chunkId ranked
    rw [search_eq, if_pos (.inr ((chunks_empty_iff fitted).mpr empty)), none]
    simp [sliceTo]
  · rw [search_ranked fitted k1Same bSame empty divisible]
    refine mapM_ok fun entry member => ?_
    exact hitOf_fitted fitted
      (stored _ (mem_of_mem_sliceTo (List.fst_mem_of_mem_zipIdx member))) _ _

theorem search_fitted_error (nonempty : last ≠ [])
    (vanishing : ¬ Divisible data k1 b seen last (tokenize data query)) (order : SetOrder)
    (topK : Int) : search data order retriever query topK = .error .zeroDivisionError := by
  have goesOn : ¬ (tokenize data query = [] ∨ retriever.chunks.entries = []) := by
    rintro (noTokens | noChunks)
    · exact vanishing fun token among => absurd among (by simp [noTokens])
    · exact nonempty ((chunks_empty_iff fitted).mp noChunks)
  rw [search_eq, if_neg goesOn, mapM_contribution_error fitted k1Same bSame vanishing]
  rfl

end Hits

/-! ## A retriever fitted once -/

section Fit

variable (corpus : List Chunk)

theorem fit_init : (fit data log (init k1 b) corpus).k1 = k1 ∧
    (fit data log (init k1 b) corpus).b = b :=
  fit_parameters data log (init k1 b) corpus

theorem fit_fitted : Fitted data log corpus corpus (fit data log (init k1 b) corpus) :=
  fitAll_fitted data log k1 b [] corpus

variable {data log} {k1 b} {corpus} [LinearOrder R] [Rounding R] {query : String}

theorem search_fresh (divisible : Divisible data k1 b corpus corpus (tokenize data query))
    (order : SetOrder) (topK : Int) :
    search data order (fit data log (init k1 b) corpus) query topK =
      .ok (((sliceTo (rankedIds data log k1 b corpus corpus order (tokenize data query))
        topK).zipIdx 1).map fun entry => hitFor corpus
          ((entry.1, scoreOf data log k1 b corpus corpus (tokenize data query) entry.1),
            entry.2)) := by
  obtain ⟨k1Same, bSame⟩ := fit_init data log k1 b corpus
  exact search_fitted (fit_fitted data log k1 b corpus) k1Same bSame divisible
    (fun _ => chunkId_of_ranked) topK

theorem search_fresh_error (vanishing : ¬ Divisible data k1 b corpus corpus (tokenize data query))
    (order : SetOrder) (topK : Int) :
    search data order (fit data log (init k1 b) corpus) query topK =
      .error .zeroDivisionError := by
  obtain ⟨k1Same, bSame⟩ := fit_init data log k1 b corpus
  refine search_fitted_error (fit_fitted data log k1 b corpus) k1Same bSame ?_ vanishing order
    topK
  rintro rfl
  exact vanishing fun token _ chunkId held => absurd held (FilledSet.notMem_empty chunkId)

/-- A query without a token of the chunks has no hits. -/
theorem search_unmatched
    (unmatched : ∀ token ∈ tokenize data query, holders data token corpus = ∅)
    (order : SetOrder) (topK : Int) :
    search data order (fit data log (init k1 b) corpus) query topK = .ok [] := by
  have divisible : Divisible data k1 b corpus corpus (tokenize data query) := by
    intro token among chunkId held
    rw [unmatched token among] at held
    cases FilledSet.notMem_empty chunkId held
  rw [search_fresh divisible, rankedIds_eq_nil_iff.mpr unmatched]
  simp [sliceTo]

end Fit

end BM25Retriever

/-! ## Exact scores -/

namespace BM25Retriever

section Exact

variable {R : Type} [Field R] (k1 b avgdl : R) (tokens : List String) (token : String)

theorem termFactor_of_not_mem (absent : token ∉ tokens) :
    termFactor k1 b avgdl tokens token = 0 := by
  simp [termFactor, List.count_eq_zero_of_not_mem absent]

variable [LinearOrder R] [IsStrictOrderedRing R] {data}

theorem meanLength_nonneg (corpus : List Chunk) : (0 : R) ≤ meanLength data corpus := by
  unfold meanLength
  split
  · exact div_nonneg (Nat.cast_nonneg _) (Nat.cast_nonneg _)
  · exact le_refl _

theorem meanLength_ne_zero {corpus : List Chunk} {token chunkId : String}
    (held : chunkId ∈ holders data token corpus) : meanLength (R := R) data corpus ≠ 0 := by
  obtain ⟨chunk, among, contains, _⟩ := mem_holders.mp held
  have chunks : 0 < corpus.length := List.length_pos_of_mem among
  have tokens : (tokensOf data chunk).length ≤
      (corpus.map fun chunk => (tokenize data chunk.text).length).sum :=
    List.le_sum_of_mem (List.mem_map.mpr ⟨chunk, among, rfl⟩)
  have some : 0 < (tokensOf data chunk).length := List.length_pos_of_mem contains
  rw [meanLength, if_pos chunks]
  refine div_ne_zero ?_ ?_
  · exact Nat.cast_ne_zero.mpr (by omega)
  · exact Nat.cast_ne_zero.mpr (by omega)

variable {k1 b}

theorem damped_pos (weight : 0 < k1) (lower : 0 ≤ b) (upper : b < 1) {avgdl : R}
    (mean : 0 ≤ avgdl) (tokens : List String) (token : String) :
    0 < damped k1 b avgdl tokens token := by
  have ratio : 0 ≤ b * (tokens.length / avgdl) :=
    mul_nonneg lower (div_nonneg (Nat.cast_nonneg _) mean)
  have inner : 0 < 1 - b + b * (tokens.length / avgdl) :=
    add_pos_of_pos_of_nonneg (sub_pos.mpr upper) ratio
  exact add_pos_of_nonneg_of_pos (Nat.cast_nonneg _) (mul_pos weight inner)

variable (data) in
theorem divisible_of_pos (corpus : List Chunk) (weight : 0 < k1) (lower : 0 ≤ b) (upper : b < 1)
    (tokens : List String) : Divisible data k1 b corpus corpus tokens :=
  fun token _ _ held => ⟨meanLength_ne_zero held,
    (damped_pos weight lower upper (meanLength_nonneg corpus) _ token).ne'⟩

variable (data) in
/-- With parameters in their range a search ends with hits of the corpus, and has some if
any token of the query is found. -/
theorem search_total [FloorRing R] (log : R → R) (corpus : List Chunk) (weight : 0 < k1)
    (lower : 0 ≤ b) (upper : b < 1) (order : SetOrder) (query : String) {topK : Nat}
    (wanted : 0 < topK) :
    ∃ hits, search data order (fit data log (init k1 b) corpus) query topK = .ok hits ∧
      (∀ hit ∈ hits, hit.chunkId ∈ corpus.map Chunk.chunkId) ∧
      (hits = [] ↔ ∀ token ∈ tokenize data query, holders data token corpus = ∅) := by
  refine ⟨_, search_fresh (divisible_of_pos data corpus weight lower upper _) order topK, ?_, ?_⟩
  · intro hit member
    obtain ⟨entry, among, rfl⟩ := List.mem_map.mp member
    have ranked := mem_of_mem_sliceTo (List.fst_mem_of_mem_zipIdx among)
    obtain ⟨token, _, held⟩ := mem_rankedIds.mp ranked
    obtain ⟨within, _⟩ := chunk_of_latest (latest_of_mem_holders held)
    exact List.mem_map_of_mem within
  · rw [sliceTo_natCast, List.map_eq_nil_iff, List.zipIdx_eq_nil_iff, List.take_eq_nil_iff,
      or_iff_right wanted.ne', rankedIds_eq_nil_iff]

end Exact

end BM25Retriever

end DurableAgent.Retrieval
