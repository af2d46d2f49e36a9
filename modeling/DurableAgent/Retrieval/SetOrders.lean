import DurableAgent.Retrieval.ExhaustiveBm25

/-!
# Iteration orders

The order of the sets in the index decides between chunks of one score that the same query
token finds first. The hits depend on it exactly where such chunks reach into them.
-/

set_option autoImplicit false

namespace DurableAgent.Retrieval

open Library OrderedDict Python SimpleTokenizer BM25Retriever

namespace SetOrder

/-- Sets that are iterated by rising ranks. -/
def byRank (rank : String → Nat) : SetOrder where
  items _ set := set.added.insertionSort fun first second => rank first ≤ rank second
  perm _ _ := List.perm_insertionSort _ _

theorem byRank_pairwise (rank : String → Nat) (token : String) (set : FilledSet String) :
    ((byRank rank).items token set).Pairwise fun first second => rank first ≤ rank second := by
  have sorted : (set.added.insertionSort fun first second => rank first ≤ rank second).map
      rank = (set.added.map rank).insertionSort (· ≤ ·) :=
    List.map_insertionSort _ _ rank _ fun _ _ _ _ => Iff.rfl
  have rising := List.pairwise_insertionSort (· ≤ ·) (set.added.map rank)
  rw [← sorted, List.pairwise_map] at rising
  exact rising

end SetOrder

variable (data : UnicodeData)

/-- Where in the query the first token of the chunk stands. -/
def firstToken (tokens : List String) (chunk : Chunk) : Nat :=
  tokens.findIdx fun token => decide (token ∈ tokensOf data chunk)

section Places

variable {R : Type} [Arithmetic R] [LinearOrder R] (log : R → R) (k1 b : R)

/-- The place of a chunk in the ranking, up to the order of the sets. -/
def place (corpus : List Chunk) (tokens : List String) (chunk : Chunk) : Lex (Rᵒᵈ × Nat) :=
  toLex (OrderDual.toDual (chunkScore data log k1 b corpus tokens chunk),
    firstToken data tokens chunk)

/-- How many of the matching chunks come earlier, whatever the order of the sets. -/
def ahead (corpus : List Chunk) (tokens : List String) (chunk : Chunk) : Nat :=
  corpus.countP fun other => decide (SharesToken data tokens other ∧
    (chunkScore data log k1 b corpus tokens chunk <
        chunkScore data log k1 b corpus tokens other ∨
      chunkScore data log k1 b corpus tokens other =
          chunkScore data log k1 b corpus tokens chunk ∧
        firstToken data tokens other < firstToken data tokens chunk))

variable {data log k1 b} {corpus : List Chunk} {tokens : List String}

theorem place_lt_iff {first second : Chunk} :
    place data log k1 b corpus tokens first < place data log k1 b corpus tokens second ↔
      chunkScore data log k1 b corpus tokens second <
          chunkScore data log k1 b corpus tokens first ∨
        chunkScore data log k1 b corpus tokens first =
            chunkScore data log k1 b corpus tokens second ∧
          firstToken data tokens first < firstToken data tokens second := by
  simp [place, Prod.Lex.toLex_lt_toLex]

omit [LinearOrder R] in
theorem place_eq_iff {first second : Chunk} :
    place data log k1 b corpus tokens first = place data log k1 b corpus tokens second ↔
      chunkScore data log k1 b corpus tokens first =
          chunkScore data log k1 b corpus tokens second ∧
        firstToken data tokens first = firstToken data tokens second := by
  simp [place]

omit [LinearOrder R] in
theorem place_congr {first second : Chunk} (same : tokensOf data first = tokensOf data second) :
    place data log k1 b corpus tokens first = place data log k1 b corpus tokens second := by
  have worths : worth data log k1 b corpus first = worth data log k1 b corpus second :=
    funext fun token => worth_congr rfl (by rw [same]) (by rw [same])
  simp only [place, chunkScore, firstToken, same, worths]

omit [LinearOrder R] in
theorem meanLength_perm {reordered : List Chunk} (perm : reordered.Perm corpus) :
    meanLength (R := R) data reordered = meanLength data corpus := by
  rw [meanLength, meanLength, perm.length_eq, (perm.map _).sum_eq]

omit [LinearOrder R] in
/-- Neither the scores nor the places depend on the order of the chunks. -/
theorem place_perm {reordered : List Chunk} (perm : reordered.Perm corpus) (chunk : Chunk) :
    place data log k1 b reordered tokens chunk = place data log k1 b corpus tokens chunk := by
  have frequency (token : String) :
      documentFrequency data reordered token = documentFrequency data corpus token :=
    perm.countP_eq _
  have worths : worth data log k1 b reordered chunk = worth data log k1 b corpus chunk := by
    funext token
    rw [worth, worth, perm.length_eq, meanLength_perm perm, frequency]
  simp only [place, chunkScore, worths]

theorem ahead_eq (chunk : Chunk) :
    ahead data log k1 b corpus tokens chunk =
      (corpus.filter fun other => decide (SharesToken data tokens other)).countP fun other =>
        decide (place data log k1 b corpus tokens other <
          place data log k1 b corpus tokens chunk) := by
  rw [ahead, List.countP_filter]
  refine List.countP_congr fun other _ => ?_
  simp only [← Bool.decide_and, decide_eq_true_iff, place_lt_iff]
  exact and_comm

theorem ahead_of_tied {chunk : Chunk}
    (tied : ∀ other ∈ corpus, place data log k1 b corpus tokens other =
      place data log k1 b corpus tokens chunk) : ahead data log k1 b corpus tokens chunk = 0 := by
  rw [ahead_eq, List.countP_eq_zero]
  intro other among
  simp [tied other (List.mem_of_mem_filter among)]

variable (distinct : (corpus.map Chunk.chunkId).Nodup)

include distinct

omit [LinearOrder R] in
theorem divisible_of_perm {reordered : List Chunk} (perm : reordered.Perm corpus)
    (divisible : Divisible data k1 b corpus corpus tokens) :
    Divisible data k1 b reordered reordered tokens := by
  have ids : (reordered.map Chunk.chunkId).Nodup := (perm.map _).nodup_iff.mpr distinct
  intro token among chunkId held
  obtain ⟨chunk, member, contains, rfl⟩ := mem_holders.mp held
  have within := perm.mem_iff.mp member
  have term := divisible token among chunk.chunkId
    ((mem_holders_iff distinct within).mpr contains)
  rwa [chunkAt_of_mem distinct within, ← meanLength_perm perm, ← chunkAt_of_mem ids member]
    at term

omit [LinearOrder R] in
theorem divisible_perm {reordered : List Chunk} (perm : reordered.Perm corpus) :
    Divisible data k1 b reordered reordered tokens ↔
      Divisible data k1 b corpus corpus tokens :=
  ⟨divisible_of_perm ((perm.map _).nodup_iff.mpr distinct) perm.symm,
    divisible_of_perm distinct perm⟩

theorem found_eq {chunk : Chunk} (member : chunk ∈ corpus) :
    found data corpus tokens chunk.chunkId = firstToken data tokens chunk := by
  simp only [found, firstToken, mem_holders_iff distinct member]

/-- The ranking follows the places, and inside one the order of the sets. -/
theorem rankedChunks_pairwise {within : String → String → Prop} (order : SetOrder)
    (each : ∀ token ∈ tokens,
      (order.items token (holders data token corpus)).Pairwise within) :
    (rankedChunks data log k1 b order corpus tokens).Pairwise fun first second =>
      place data log k1 b corpus tokens first < place data log k1 b corpus tokens second ∨
        place data log k1 b corpus tokens first = place data log k1 b corpus tokens second ∧
          within first.chunkId second.chunkId := by
  have ids := rankedIds_pairwise data log k1 b corpus corpus tokens order (fun _ => within) each
  rw [rankedIds_eq, List.pairwise_map] at ids
  refine ids.imp_of_mem fun {first second} firstIn secondIn order => ?_
  obtain ⟨firstWithin, _⟩ := (mem_rankedChunks distinct).mp firstIn
  obtain ⟨secondWithin, _⟩ := (mem_rankedChunks distinct).mp secondIn
  rw [scoreOf_eq distinct firstWithin, scoreOf_eq distinct secondWithin,
    found_eq distinct firstWithin, found_eq distinct secondWithin] at order
  rw [place_lt_iff, place_eq_iff]
  grind

theorem rankedChunks_sorted (order : SetOrder) :
    (rankedChunks data log k1 b order corpus tokens).Pairwise fun first second =>
      place data log k1 b corpus tokens first ≤ place data log k1 b corpus tokens second := by
  have each : ∀ token ∈ tokens,
      (order.items token (holders data token corpus)).Pairwise fun _ _ => True :=
    fun _ _ => List.pairwise_of_forall fun _ _ => trivial
  refine (rankedChunks_pairwise distinct order each).imp fun either => ?_
  exact either.elim le_of_lt fun same => same.1.le

/-- Whatever leads the sets leads the chunks of its place. -/
theorem rankedChunks_leading {chunk : Chunk} (member : chunk ∈ corpus)
    (shares : SharesToken data tokens chunk) :
    (rankedChunks data log k1 b (.leading chunk.chunkId) corpus tokens)[
      ahead data log k1 b corpus tokens chunk]? = some chunk := by
  have ranked : chunk ∈ rankedChunks data log k1 b (.leading chunk.chunkId) corpus tokens :=
    (mem_rankedChunks distinct).mpr ⟨member, shares⟩
  have places : (rankedChunks data log k1 b (.leading chunk.chunkId) corpus tokens).Pairwise
      fun first second =>
        place data log k1 b corpus tokens first < place data log k1 b corpus tokens second ∨
          place data log k1 b corpus tokens first = place data log k1 b corpus tokens second ∧
            second ≠ chunk := by
    refine (rankedChunks_pairwise distinct _ fun token _ =>
      SetOrder.leading_pairwise chunk.chunkId token _).imp fun either => ?_
    exact either.imp_right fun same => ⟨same.1, fun equal => same.2 (congrArg Chunk.chunkId equal)⟩
  have perm : (rankedChunks data log k1 b (.leading chunk.chunkId) corpus tokens).Perm
      (corpus.filter fun other => decide (SharesToken data tokens other)) :=
    rankedChunks_perm distinct _
  rw [ahead_eq, ← perm.countP_eq]
  obtain ⟨before, behind, split⟩ := List.append_of_mem ranked
  rw [split] at places ⊢
  rw [countP_place_of_first places]
  simp

end Places

/-! ## The hits -/

section Hits

variable {R : Type} [Arithmetic R] [LinearOrder R] (log : R → R) (k1 b : R)

/-- Chunks of one score that the same query token finds first are beyond the hits. -/
def TiesSettled (corpus : List Chunk) (tokens : List String) (kept : Nat) : Prop :=
  ∀ first ∈ corpus, SharesToken data tokens first →
    ∀ second ∈ corpus, SharesToken data tokens second → first ≠ second →
      chunkScore data log k1 b corpus tokens first =
        chunkScore data log k1 b corpus tokens second →
      firstToken data tokens first = firstToken data tokens second →
      kept ≤ ahead data log k1 b corpus tokens first

variable {data log k1 b} {corpus : List Chunk} (distinct : (corpus.map Chunk.chunkId).Nodup)

include distinct

theorem take_rankedChunks {tokens : List String} {kept : Nat}
    (settled : TiesSettled data log k1 b corpus tokens kept) (order other : SetOrder) :
    (rankedChunks data log k1 b order corpus tokens).take kept =
      (rankedChunks data log k1 b other corpus tokens).take kept := by
  have sorted (order : SetOrder) :
      (rankedChunks data log k1 b order corpus tokens).Pairwise fun first second =>
        place data log k1 b corpus tokens first ≤ place data log k1 b corpus tokens second :=
    rankedChunks_sorted distinct order
  refine take_eq_of_places (rankedChunks_perm distinct order) (rankedChunks_perm distinct other)
    (sorted order) (sorted other) ?_
  intro first firstIn second secondIn differ same
  obtain ⟨firstWithin, firstShares⟩ := List.mem_filter.mp firstIn
  obtain ⟨secondWithin, secondShares⟩ := List.mem_filter.mp secondIn
  obtain ⟨scores, finds⟩ := place_eq_iff.mp same
  rw [← ahead_eq]
  exact settled first firstWithin (of_decide_eq_true firstShares) second secondWithin
    (of_decide_eq_true secondShares) differ scores finds

/-- Of two chunks of one place, an order can let in the one or the other. -/
theorem tiesSettled_of_take {tokens : List String} {kept : Nat}
    (same : ∀ order other,
      (rankedChunks data log k1 b order corpus tokens).take kept =
        (rankedChunks data log k1 b other corpus tokens).take kept) :
    TiesSettled data log k1 b corpus tokens kept := by
  intro first firstIn firstShares second secondIn secondShares differ scores finds
  by_contra reached
  rw [not_le] at reached
  have places : place data log k1 b corpus tokens first =
      place data log k1 b corpus tokens second := place_eq_iff.mpr ⟨scores, finds⟩
  have leads : (rankedChunks data log k1 b (.leading first.chunkId) corpus tokens)[
      ahead data log k1 b corpus tokens first]? = some first :=
    rankedChunks_leading distinct firstIn firstShares
  have follows : (rankedChunks data log k1 b (.leading second.chunkId) corpus tokens)[
      ahead data log k1 b corpus tokens first]? = some second := by
    rw [ahead_eq, places, ← ahead_eq]
    exact rankedChunks_leading distinct secondIn secondShares
  rw [← List.getElem?_take_of_lt reached] at leads follows
  rw [same _ (.leading second.chunkId), follows] at leads
  exact differ (Option.some.inj leads).symm

theorem sliceTo_rankedChunks (order : SetOrder) (tokens : List String) (topK : Int) :
    sliceTo (rankedChunks data log k1 b order corpus tokens) topK =
      (rankedChunks data log k1 b order corpus tokens).take
        (sliceBound (corpus.countP fun chunk => decide (SharesToken data tokens chunk)) topK) := by
  rw [sliceTo, length_rankedChunks distinct]

variable [Rounding R]

omit [Arithmetic R] [LinearOrder R] distinct in
theorem map_chunkId_hits (score : Chunk → R) (ranked : List Chunk) :
    ((ranked.zipIdx 1).map (hitOfChunk score)).map RetrievalHit.chunkId =
      ranked.map Chunk.chunkId := by
  rw [List.map_map]
  exact map_numbered Chunk.chunkId 1 ranked

omit [Rounding R] [LinearOrder R] [Arithmetic R] in
theorem map_chunkAt {chunks : List Chunk} (within : ∀ chunk ∈ chunks, chunk ∈ corpus) :
    (chunks.map Chunk.chunkId).map (chunkAt corpus) = chunks := by
  rw [List.map_map]
  conv_rhs => rw [← List.map_id chunks]
  exact List.map_congr_left fun chunk member => chunkAt_of_mem distinct (within chunk member)

omit [Arithmetic R] [LinearOrder R] in
/-- Hits tell their chunks. -/
theorem ranked_of_hits {score : Chunk → R} {left right : List Chunk}
    (leftWithin : ∀ chunk ∈ left, chunk ∈ corpus) (rightWithin : ∀ chunk ∈ right, chunk ∈ corpus)
    (same : (left.zipIdx 1).map (hitOfChunk score) = (right.zipIdx 1).map (hitOfChunk score)) :
    left = right := by
  have ids : left.map Chunk.chunkId = right.map Chunk.chunkId := by
    rw [← map_chunkId_hits score left, same, map_chunkId_hits]
  rw [← map_chunkAt distinct leftWithin, ids, map_chunkAt distinct rightWithin]

/-- With all chunks at one place, the hit is the one that the order of the sets puts first. -/
theorem search_leading {query : String} {chunk : Chunk} (member : chunk ∈ corpus)
    (shares : SharesToken data (tokenize data query) chunk)
    (divisible : Divisible data k1 b corpus corpus (tokenize data query))
    (tied : ∀ other ∈ corpus, place data log k1 b corpus (tokenize data query) other =
      place data log k1 b corpus (tokenize data query) chunk) :
    search data (.leading chunk.chunkId) (fit data log (init k1 b) corpus) query (1 : Nat) =
      .ok [hitOfChunk (chunkScore data log k1 b corpus (tokenize data query))
        (chunk, 1)] := by
  have first : (rankedChunks data log k1 b (.leading chunk.chunkId) corpus
      (tokenize data query))[0]? = some chunk := by
    rw [← ahead_of_tied tied]
    exact rankedChunks_leading distinct member shares
  have one : (rankedChunks data log k1 b (.leading chunk.chunkId) corpus
      (tokenize data query)).take 1 = [chunk] := by
    rw [List.take_one, List.head?_eq_getElem?, first, Option.toList_some]
  rw [search_fit distinct divisible, sliceTo_natCast, one]
  rfl

/-- The hits are the same for any two orders of the sets if and only if the chunks that an
order could swap are not among them; a vanishing denominator raises for all orders. -/
theorem search_order_independent_iff (k1 b : R) (query : String) (topK : Int) :
    (∀ order other,
      search data order (fit data log (init k1 b) corpus) query topK =
        search data other (fit data log (init k1 b) corpus) query topK) ↔
      (Divisible data k1 b corpus corpus (tokenize data query) →
        TiesSettled data log k1 b corpus (tokenize data query)
          (sliceBound (corpus.countP fun chunk =>
            decide (SharesToken data (tokenize data query) chunk)) topK)) := by
  constructor
  · intro same divisible
    refine tiesSettled_of_take distinct fun order other => ?_
    have hits := same order other
    rw [search_fit distinct divisible, search_fit distinct divisible, sliceTo_rankedChunks distinct,
      sliceTo_rankedChunks distinct] at hits
    refine ranked_of_hits distinct ?_ ?_ (Except.ok.inj hits)
    · exact fun chunk member => ((mem_rankedChunks distinct).mp (List.mem_of_mem_take member)).1
    · exact fun chunk member => ((mem_rankedChunks distinct).mp (List.mem_of_mem_take member)).1
  · intro settled order other
    by_cases divisible : Divisible data k1 b corpus corpus (tokenize data query)
    · rw [search_fit distinct divisible, search_fit distinct divisible,
        sliceTo_rankedChunks distinct, sliceTo_rankedChunks distinct,
        take_rankedChunks distinct (settled divisible) order other]
    · rw [search_fresh_error divisible, search_fresh_error divisible]

end Hits

private def may : Chunk :=
  { chunkId := "may_c0", documentId := "may", text := "Inflation rose." }

private def june : Chunk :=
  { chunkId := "june_c0", documentId := "june", text := "Inflation rose." }

private def july : Chunk :=
  { chunkId := "july_c0", documentId := "july", text := "Rates fell." }

theorem may_and_july :
    search .ascii (.leading "may_c0") (fit .ascii Real.log (init 1.5 0.75) [may, july])
        "inflation rates" 1 =
      search .ascii (.leading "july_c0") (fit .ascii Real.log (init 1.5 0.75) [may, july])
        "inflation rates" 1 := by
  have distinct : ([may, july].map Chunk.chunkId).Nodup := by decide
  have apart : firstToken .ascii (tokenize .ascii "inflation rates") may ≠
      firstToken .ascii (tokenize .ascii "inflation rates") july := by decide +kernel
  refine (search_order_independent_iff distinct 1.5 0.75 "inflation rates" 1).mpr
    (fun _ => ?_) _ _
  intro first firstIn _ second secondIn _ differ _ finds
  simp only [List.mem_cons, List.not_mem_nil, or_false] at firstIn secondIn
  rcases firstIn with rfl | rfl <;> rcases secondIn with rfl | rfl
  · exact absurd rfl differ
  · exact absurd finds apart
  · exact absurd finds.symm apart
  · exact absurd rfl differ

/-- Of two chunks with the same text, the order of a set decides which one is the hit. -/
theorem may_or_june :
    (search .ascii (.leading "may_c0") (fit .ascii Real.log (init 1.5 0.75) [may, june])
        "inflation" (1 : Nat)).map (List.map RetrievalHit.chunkId) = .ok ["may_c0"] ∧
      (search .ascii (.leading "june_c0") (fit .ascii Real.log (init 1.5 0.75) [may, june])
        "inflation" (1 : Nat)).map (List.map RetrievalHit.chunkId) = .ok ["june_c0"] := by
  have distinct : ([may, june].map Chunk.chunkId).Nodup := by decide
  have divisible : Divisible .ascii (1.5 : ℝ) 0.75 [may, june] [may, june]
      (tokenize .ascii "inflation") :=
    divisible_of_pos .ascii [may, june] (by norm_num) (by norm_num) (by norm_num) _
  have tied : place .ascii Real.log 1.5 0.75 [may, june] (tokenize .ascii "inflation") may =
      place .ascii Real.log 1.5 0.75 [may, june] (tokenize .ascii "inflation") june :=
    place_congr rfl
  have leads (chunk : Chunk) (member : chunk ∈ [may, june])
      (shares : SharesToken .ascii (tokenize .ascii "inflation") chunk) :
      (search .ascii (.leading chunk.chunkId)
        (fit .ascii Real.log (init 1.5 0.75) [may, june]) "inflation"
        (1 : Nat)).map (List.map RetrievalHit.chunkId) = .ok [chunk.chunkId] := by
    rw [search_leading distinct member shares divisible]
    · rfl
    · rcases List.mem_pair.mp member with rfl | rfl
      · simp [tied]
      · simp [tied]
  exact ⟨leads may (by simp) (by decide +kernel), leads june (by simp) (by decide +kernel)⟩

end DurableAgent.Retrieval
