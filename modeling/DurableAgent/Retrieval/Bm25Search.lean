import DurableAgent.Library.FallibleSteps
import DurableAgent.Retrieval.Bm25Tables

/-!
# Searching a fitted index

The loops of a search as one series of contributions.
-/

set_option autoImplicit false

namespace DurableAgent.Retrieval

open Library OrderedDict Python SimpleTokenizer

namespace BM25Retriever

variable {R : Type}

/-- The identifiers that a query token leads to. -/
def targets (order : SetOrder) (retriever : BM25Retriever R) (token : String) : List String :=
  if retriever.idf.get? token = none then []
  else order.items token ((retriever.invertedIndex.get? token).getD ∅)

/-- The tokens of the query with the identifiers they lead to. -/
def steps (order : SetOrder) (retriever : BM25Retriever R) (tokens : List String) :
    List (String × String) :=
  tokens.flatMap fun token => (targets order retriever token).map fun chunkId => (token, chunkId)

theorem mem_steps {order : SetOrder} {retriever : BM25Retriever R} {tokens : List String}
    {step : String × String} :
    step ∈ steps order retriever tokens ↔
      step.1 ∈ tokens ∧ step.2 ∈ targets order retriever step.1 := by
  obtain ⟨token, chunkId⟩ := step
  simp [steps]

variable [Arithmetic R] [LinearOrder R]

def contribution (retriever : BM25Retriever R) (step : String × String) :
    Except RetrievalError (String × R) :=
  (retriever.termScore ((retriever.idf.get? step.1).getD 0) step.1 step.2).map fun amount =>
    (step.2, amount)

theorem contribution_eq {retriever : BM25Retriever R} {token : String} {idf : R}
    (weight : retriever.idf.get? token = some idf) (chunkId : String) :
    retriever.contribution (token, chunkId) =
      (retriever.termScore idf token chunkId).map fun amount => (chunkId, amount) := by
  rw [contribution, weight, Option.getD_some]

theorem scoreToken_eq (order : SetOrder) (retriever : BM25Retriever R)
    (scores : OrderedDict String R) (token : String) :
    scoreToken order retriever scores token =
      ((steps order retriever [token]).mapM retriever.contribution).map scores.addAll := by
  unfold scoreToken
  split
  · next weightless =>
      have nothing : targets order retriever token = [] := if_pos weightless
      simp [steps, nothing, Except.map, pure, Except.pure, addAll]
  · next idf weight =>
      have reached : steps order retriever [token] =
          (order.items token ((retriever.invertedIndex.get? token).getD ∅)).map
            fun chunkId => (token, chunkId) := by
        simp [steps, targets, weight]
      have body : (fun (scores : OrderedDict String R) (chunkId : String) => show
            Except RetrievalError (OrderedDict String R) from do
            return scores.add chunkId (← retriever.termScore idf token chunkId)) =
          fun (scores : OrderedDict String R) (chunkId : String) => show
            Except RetrievalError (OrderedDict String R) from do
            let pair ← retriever.contribution (token, chunkId)
            return scores.add pair.1 pair.2 := by
        funext scores chunkId
        rw [contribution_eq weight]
        cases retriever.termScore idf token chunkId with
        | error error => rfl
        | ok amount => rfl
      rw [reached, List.mapM_map, body]
      exact foldlM_eq_mapM _ (fun scores (pair : String × R) => scores.add pair.1 pair.2)
        scores _

theorem foldlM_scoreToken (order : SetOrder) (retriever : BM25Retriever R)
    (scores : OrderedDict String R) (tokens : List String) :
    tokens.foldlM (scoreToken order retriever) scores =
      ((steps order retriever tokens).mapM retriever.contribution).map scores.addAll := by
  induction tokens generalizing scores with
  | nil => rfl
  | cons token rest ih =>
      have parts : steps order retriever (token :: rest) =
          steps order retriever [token] ++ steps order retriever rest := by
        simp [steps]
      rw [List.foldlM_cons, scoreToken_eq, parts, List.mapM_append]
      cases (steps order retriever [token]).mapM retriever.contribution with
      | error error => rfl
      | ok first =>
          refine (ih (scores.addAll first)).trans ?_
          cases (steps order retriever rest).mapM retriever.contribution with
          | error error => rfl
          | ok others => exact congrArg Except.ok (List.foldl_append ..).symm

/-! ## One contribution -/

section Terms

variable (k1 b avgdl : R) (tokens : List String) (token : String)

/-- How often a token occurs, damped by the length of the chunk. -/
def damped : R := tokens.count token + k1 * (1 - b + b * (tokens.length / avgdl))

/-- The term-frequency factor of a token in a chunk with these tokens. -/
def termFactor : R := tokens.count token * (k1 + 1) / damped k1 b avgdl tokens token

theorem countsOf_get? : ((countsOf tokens).get? token).getD 0 = tokens.count token := by
  have counted : ∀ tokens : List String,
      total token (tokens.map fun token => (token, 1)) = tokens.count token := by
    intro tokens
    induction tokens using List.reverseRecOn with
    | nil => rfl
    | append_singleton tokens last ih =>
        rw [List.map_append, List.map_singleton, total_concat, ih, List.count_append]
        by_cases same : last = token
        · simp [same]
        · simp [same]
  rw [countsOf, getD_addAll, counted]

end Terms

variable {data : UnicodeData} {seen : List Chunk} {retriever : BM25Retriever R}

theorem Indexed.termScore (indexed : Indexed data seen retriever) {chunkId : String}
    {chunk : Chunk} (found : latest chunkId seen = some chunk) (idf : R) (token : String) :
    retriever.termScore idf token chunkId =
      if retriever.avgdl = 0 ∨
          damped retriever.k1 retriever.b retriever.avgdl (tokensOf data chunk) token = 0 then
        .error .zeroDivisionError
      else
        .ok (idf * termFactor retriever.k1 retriever.b retriever.avgdl (tokensOf data chunk)
          token) := by
  have counts : lookup retriever.chunkTf chunkId = .ok (countsOf (tokensOf data chunk)) := by
    rw [lookup, indexed.tf, found]
    rfl
  have length : lookup retriever.chunkLengths chunkId = .ok (tokensOf data chunk).length := by
    rw [lookup, indexed.lengths, found]
    rfl
  simp only [BM25Retriever.termScore, counts, length, countsOf_get?, bind, Except.bind]
  by_cases flat : retriever.avgdl = 0
  · simp [divide, flat]
  · by_cases vanishing :
        damped retriever.k1 retriever.b retriever.avgdl (tokensOf data chunk) token = 0
    · have ends := vanishing
      unfold damped at ends
      simp [divide, flat, vanishing, ends]
    · have goesOn := vanishing
      unfold damped at goesOn
      simp [divide, flat, goesOn, termFactor, damped, pure, Except.pure]

omit [LinearOrder R] in
theorem chunks_empty_iff {log : R → R} {last : List Chunk}
    (fitted : Fitted data log seen last retriever) :
    retriever.chunks.entries = [] ↔ last = [] := by
  rw [fitted.chunks]
  cases last with
  | nil => simp [byId, ofPairs, insertAll]
  | cons chunk rest =>
      have present : chunk.chunkId ∈ (ofPairs (byId (chunk :: rest))).keys := by
        simp [ofPairs, keys_insertAll, byId]
      refine iff_of_false (fun none => ?_) (List.cons_ne_nil _ _)
      rw [keys, none] at present
      cases present

variable [Rounding R]

theorem search_eq (data : UnicodeData) (order : SetOrder) (retriever : BM25Retriever R)
    (query : String) (topK : Int) :
    search data order retriever query topK =
      if tokenize data query = [] ∨ retriever.chunks.entries = [] then .ok []
      else ((steps order retriever (tokenize data query)).mapM retriever.contribution).bind
        fun pairs => ((sliceTo (rankBy Prod.snd (OrderedDict.empty.addAll pairs).entries)
          topK).zipIdx 1).mapM retriever.hitOf := by
  simp only [search, foldlM_scoreToken]
  split
  · rfl
  · cases (steps order retriever (tokenize data query)).mapM retriever.contribution with
    | error error => rfl
    | ok pairs => rfl

end BM25Retriever

end DurableAgent.Retrieval
