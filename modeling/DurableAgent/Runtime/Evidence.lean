import DurableAgent.Retrieval.Pipeline
import DurableAgent.Runtime.ModelMessages

/-!
# Evidence in a run

Evidence is retrieved once, before the main loop, and every request is given the same. It is
the only part of a context that is not trusted, and the trace tells what it cites.
-/

set_option autoImplicit false

namespace DurableAgent.Runtime

open Library Python Context Retrieval

/-- The event is recorded before the main loop. -/
def Event.prepares : Event → Bool
  | .runStarted _ | .skillActivated _ | .retrievalMelt | .retrievalSuccess _ => true
  | _ => false

def Event.retrieval? : Event → Option Event
  | .retrievalMelt => some .retrievalMelt
  | .retrievalSuccess citations => some (.retrievalSuccess citations)
  | _ => none

def Entry.prepares : Entry → Bool
  | .traced event => event.event.prepares
  | _ => false

def AgentState.retrievals (state : AgentState) : List Event :=
  state.traceEvents.filterMap fun event => event.event.retrieval?

/-- What is added belongs to the main loop. -/
def Looped (before after : Session) : Prop :=
  ∃ added, after.journal = before.journal ++ added ∧ ∀ entry ∈ added, entry.prepares = false

namespace Looped

variable {before middle after : Session}

theorem refl (session : Session) : Looped session session := ⟨[], by simp, by simp⟩

theorem trans (first : Looped before middle) (second : Looped middle after) :
    Looped before after := by
  obtain ⟨added, grown, plain⟩ := first
  obtain ⟨further, extended, quiet⟩ := second
  exact ⟨added ++ further, by rw [extended, grown, List.append_assoc],
    List.forall_mem_append.mpr ⟨plain, quiet⟩⟩

theorem note (session : Session) {entry : Entry} (plain : entry.prepares = false) :
    Looped session (session.note entry) := ⟨[entry], rfl, by simpa using plain⟩

theorem record (session : Session) {event : Event} (plain : event.prepares = false) :
    Looped session (session.record event) := by
  refine ⟨[.traced ⟨session.state.runId, session.state.stepCount, event⟩], rfl, ?_⟩
  intro entry member
  rw [List.mem_singleton.mp member]
  exact plain

end Looped

section Turns

variable (runtime : AgentRuntime)

theorem exceedMaxSteps_looped (session : Session) :
    Looped session (runtime.exceedMaxSteps session) :=
  (Looped.record _ rfl).trans (Looped.record _ rfl)

theorem failProvider_looped (session : Session) (exception : Raised) :
    Looped session (session.failProvider exception) :=
  (Looped.record _ rfl).trans (Looped.record _ rfl)

theorem answerDirectly_looped (session : Session) (message : AgentMessage) :
    Looped session (session.answerDirectly message) :=
  (Looped.record _ rfl).trans (Looped.record _ rfl)

theorem receive_looped (session : Session) (message : AgentMessage) :
    Looped session (session.receive message) := by
  unfold Session.receive
  cases rationale : message.rationale with
  | none =>
      exact ⟨_, rfl, by simp [Entry.prepares, Event.prepares]⟩
  | some given =>
      exact ⟨_, List.append_assoc _ _ _, by simp [Entry.prepares, Event.prepares]⟩

theorem assembleContext_looped (preContextItems : List ContextItem) (session : Session) :
    Looped session (runtime.assembleContext preContextItems session).1 := by
  unfold AgentRuntime.assembleContext
  dsimp only
  split
  · exact (Looped.record _ rfl).trans (Looped.record _ rfl)
  · exact Looped.record _ rfl

theorem Attempted.closing_loops (attempted : Attempted) (call : ToolCall) :
    ∀ event ∈ attempted.closing call, event.prepares = false := by
  intro event member
  cases attempted with
  | succeeded output =>
      simp only [closing, observed, List.mem_append, List.mem_cons, List.not_mem_nil,
        or_false] at member
      rcases member with rfl | rfl | rfl <;> rfl
  | exhausted attempt lastExceptionMsg =>
      simp only [closing, observed, List.mem_append, List.mem_cons, List.not_mem_nil,
        or_false] at member
      rcases member with rfl | rfl | rfl <;> rfl
  | raised exception =>
      simp only [closing, observed, List.nil_append, List.mem_cons, List.not_mem_nil,
        or_false] at member
      rcases member with rfl | rfl
      · cases kind : exception.cls <;> simp [outcomeEvent, kind, Event.prepares]
      · rfl

theorem answerCall_looped (rationale : Option PlannerRationale) (call : ToolCall)
    (session : Session) : Looped session (runtime.answerCall rationale call session) := by
  obtain ⟨tries, attempted, answered, tried, _⟩ :=
    answerCall_answered runtime rationale call session
  rw [answered]
  refine ⟨_, session.answered_grown rationale call tries attempted, ?_⟩
  intro entry member
  rcases List.mem_append.mp member with earlier | closing
  · rcases List.mem_append.mp earlier with opening | trying
    · obtain ⟨event, listed, rfl⟩ := List.mem_map.mp opening
      simp only [ToolCall.opening, List.mem_cons, List.not_mem_nil, or_false] at listed
      rcases listed with rfl | rfl | rfl <;> rfl
    · cases tried entry trying with
      | executed outcome => rfl
      | transient attempt error => rfl
  · obtain ⟨event, listed, rfl⟩ := List.mem_map.mp closing
    exact attempted.closing_loops call event listed

theorem processCalls_looped (rationale : Option PlannerRationale) (calls : List ToolCall)
    (session : Session) : Looped session (runtime.processCalls rationale calls session) := by
  induction calls generalizing session with
  | nil => exact .refl session
  | cons call rest ih =>
      have answered := answerCall_looped runtime rationale call session
      rw [AgentRuntime.processCalls]
      split
      · exact answered.trans (Looped.record _ rfl)
      · exact answered.trans (ih _)

theorem turn_looped (preContextItems : List ContextItem) (session : Session) :
    Looped session (runtime.turn preContextItems session) := by
  have assembled := assembleContext_looped runtime preContextItems session
  have taken := turn_taken runtime preContextItems session
  generalize runtime.turn preContextItems session = next at taken ⊢
  cases taken with
  | exceeds exceeded => exact exceedMaxSteps_looped runtime session
  | provider messages exception =>
      exact (assembled.trans (Looped.note _ rfl)).trans (failProvider_looped _ exception)
  | answers messages message within =>
      exact ((assembled.trans (Looped.note _ rfl)).trans (receive_looped _ message)).trans
        (answerDirectly_looped _ message)
  | calls messages message calls within =>
      exact ((assembled.trans (Looped.note _ rfl)).trans (receive_looped _ message)).trans
        (processCalls_looped runtime message.rationale calls _)

/-- The main loop records nothing of what is recorded before it. -/
theorem runSession_looped (runId userInput : String) :
    Looped (runtime.prepare runId userInput).1 (runtime.runSession runId userInput) :=
  (runSession_exits runtime runId userInput).invariant
    (fun before _ looped => looped.trans (turn_looped runtime _ before)) (.refl _)

end Turns

/-! ## What is retrieved -/

def systemNotice : String :=
  "[System Notice] No reliable external evidence found for this query."

/-- The text that stands in every context of the run for what has been retrieved. -/
def evidenceText (retrieved : String × List String) : String :=
  if retrieved.1 = "insufficient_evidence" then systemNotice else retrieved.1

def retrievalEvent (retrieved : String × List String) : Event :=
  if retrieved.1 = "insufficient_evidence" then .retrievalMelt else .retrievalSuccess retrieved.2

def Session.retrievals (session : Session) : List Event :=
  session.events.filterMap fun event => event.event.retrieval?

section Retrieval

variable {runtime : AgentRuntime} {retrieve : String → String × List String}

theorem retrievals_record (session : Session) (event : Event) :
    (session.record event).retrievals = session.retrievals ++ event.retrieval?.toList := by
  cases event <;> simp [Session.retrievals, Session.events, Session.record, Entry.event?,
    Event.retrieval?]

theorem Event.retrieval?_of_looped {event : Event} (plain : event.prepares = false) :
    event.retrieval? = none := by
  cases event <;> simp_all [Event.prepares, Event.retrieval?]

theorem Looped.retrievals {before after : Session} (looped : Looped before after) :
    after.retrievals = before.retrievals := by
  obtain ⟨added, grown, plain⟩ := looped
  have silent : (added.filterMap Entry.event?).filterMap
      (fun event => event.event.retrieval?) = [] := by
    rw [List.filterMap_filterMap, List.filterMap_eq_nil_iff]
    intro entry member
    cases entry with
    | traced event => simp [Entry.event?, Event.retrieval?_of_looped (plain _ member)]
    | generated messages outcome => rfl
    | executed toolName arguments outcome => rfl
  rw [Session.retrievals, Session.events, grown, List.filterMap_append, List.filterMap_append,
    silent, List.append_nil]
  rfl

theorem retrieveEvidence_eq (pipeline : runtime.retrievalPipeline = some retrieve)
    (userInput : String) (session : Session) :
    runtime.retrieveEvidence userInput session =
      (session.record (retrievalEvent (retrieve userInput)),
        [AgentRuntime.evidenceItem (evidenceText (retrieve userInput))]) := by
  unfold AgentRuntime.retrieveEvidence evidenceText retrievalEvent
  rw [pipeline]
  by_cases nothing : (retrieve userInput).1 = "insufficient_evidence"
  · simp only [nothing, if_true]
    rfl
  · simp only [nothing, if_false]

theorem prepare_retrievals (pipeline : runtime.retrievalPipeline = some retrieve)
    (runId userInput : String) :
    (runtime.prepare runId userInput).1.retrievals = [retrievalEvent (retrieve userInput)] := by
  have activated : (runtime.activateSkill userInput
      (AgentRuntime.start runId userInput)).1.retrievals = [] := by
    unfold AgentRuntime.activateSkill
    split
    · rw [retrievals_record]
      rfl
    · rfl
  have event : (retrievalEvent (retrieve userInput)).retrieval? =
      some (retrievalEvent (retrieve userInput)) := by
    unfold retrievalEvent
    split
    · rfl
    · rfl
  rw [AgentRuntime.prepare]
  simp only [retrieveEvidence_eq pipeline, retrievals_record, activated, event]
  rfl

/-- Nothing else that is given to the assembler counts as untrusted evidence. -/
theorem dynamicItems_untrusted (pipeline : runtime.retrievalPipeline = some retrieve)
    (runId userInput : String) (history : List AgentMessage) {item : ContextItem}
    (given : item ∈ runtime.dynamicItems (runtime.prepare runId userInput).2 history)
    (untrusted : item.trustLevel = "retrieved_untrusted") :
    item = AgentRuntime.evidenceItem (evidenceText (retrieve userInput)) := by
  have skill : ∀ session, ∀ item ∈ (runtime.activateSkill userInput session).2,
      item.trustLevel = "application_trusted" := by
    intro session item member
    unfold AgentRuntime.activateSkill at member
    split at member
    · rw [List.mem_singleton.mp member]
      rfl
    · cases member
  have memory : ∀ item ∈ runtime.recallMemories, item.trustLevel = "system_trusted" := by
    intro item member
    unfold AgentRuntime.recallMemories at member
    split at member
    · split at member
      · cases member
      · rw [List.mem_singleton.mp member]
        rfl
    · cases member
  have message : ∀ index message, (runtime.messageItem index message).trustLevel ≠
      "retrieved_untrusted" := by
    intro index message
    unfold AgentRuntime.messageItem
    by_cases user : message.role = "user"
    · simp [user]
    · simp [user]
  rcases List.mem_append.mp given with front | back
  · rcases List.mem_append.mp front with earlier | core
    · rw [AgentRuntime.prepare] at earlier
      simp only [retrieveEvidence_eq pipeline] at earlier
      rcases List.mem_append.mp earlier with prepared | recalled
      · rcases List.mem_append.mp prepared with activated | evidence
        · rw [skill _ item activated] at untrusted
          exact absurd untrusted (by decide)
        · exact List.mem_singleton.mp evidence
      · rw [memory item recalled] at untrusted
        exact absurd untrusted (by decide)
    · rw [List.mem_singleton.mp core] at untrusted
      exact absurd untrusted (by decide)
  · obtain ⟨index, bound, rfl⟩ := List.mem_mapIdx.mp back
    exact absurd untrusted (message index _)

theorem assembled_subset {assembler : ContextAssembler} {rawItems : List ContextItem}
    {item : ContextItem} (member : item ∈ (assembler.assemble rawItems).1.items) :
    item ∈ rawItems := by
  have kept := (ContextAssembler.selected_partition assembler rawItems).subset
    (ContextAssembler.mem_assemble_items.mp member)
  exact (ContextDeduplicator.deduplicateFrom_spec [] rawItems).1.subset kept

end Retrieval

/-- One event of the run tells of the retrieval, and the only untrusted part of any request
is the text retrieved. -/
structure TellsEvidence (runtime : AgentRuntime) (runId userInput text : String)
    (outcome : Event) : Prop where
  traced : (runtime.run runId userInput).retrievals = [outcome]
  requests : ∀ messages ∈ (runtime.runSession runId userInput).requests,
    messages = runtime.modelMessages (runtime.prepare runId userInput).2 messages.tail
  untrusted : ∀ history,
    ∀ item ∈ (runtime.contextOf (runtime.prepare runId userInput).2 history).items,
      item.trustLevel = "retrieved_untrusted" → item = AgentRuntime.evidenceItem text

theorem run_tellsEvidence {runtime : AgentRuntime} {retrieve : String → String × List String}
    (assembler : ContextAssembler) (pipeline : runtime.retrievalPipeline = some retrieve)
    (runId userInput : String) :
    TellsEvidence (runtime.assembling assembler) runId userInput
      (evidenceText (retrieve userInput)) (retrievalEvent (retrieve userInput)) where
  traced := by
    have looped := runSession_looped (runtime.assembling assembler) runId userInput
    exact looped.retrievals.trans (prepare_retrievals pipeline runId userInput)
  requests := runSession_requests (runtime.assembling assembler) runId userInput
  untrusted := by
    intro history item member untrusted
    exact dynamicItems_untrusted pipeline runId userInput history
      (assembled_subset member) untrusted

/-! ## Over a corpus -/

/-- The runtime asks the pipeline for two passages at most. -/
def AgentRuntime.RetrievesBy (runtime : AgentRuntime)
    (executePipeline : String → Int →
      Except RetrievalError (String × OrderedDict String FusedHit)) : Prop :=
  ∃ retrieve, runtime.retrievalPipeline = some retrieve ∧
    ∀ query, ∃ citations,
      executePipeline query 2 = .ok ((retrieve query).1, citations) ∧
        (retrieve query).2 = citations.keys

section Corpus

variable {R : Type} [Field R] [LinearOrder R] [IsStrictOrderedRing R] [FloorRing R]
  (data : UnicodeData) (log : R → R) {k1 b : R} (getEmbedding : String → List R) (sqrt : R → R)
  (minScore : R) {chunker : SimpleChunker} {docs : List Document} {corpus : List Chunk}

/-- What a run makes of evidence, or of its absence. -/
inductive ReportsEvidence (docs : List Document) (supported : Prop) : String → Event → Prop where
  | melts : ¬ supported → ReportsEvidence docs supported systemNotice .retrievalMelt
  | cites (candidates : List FusedHit) (text : String) (citations : OrderedDict String FusedHit) :
      supported → Grounded docs candidates text citations → candidates ≠ [] →
      candidates.length ≤ 2 →
      ReportsEvidence docs supported text (.retrievalSuccess citations.keys)

/-- All the untrusted text of a run is quoted from the documents, and the notice stands for
it exactly if no document supports the input. -/
theorem run_evidence_grounded (ingests : chunker.Ingests docs corpus)
    (named : (docs.map Document.documentId).Nodup) (weight : 0 < k1) (lower : 0 ≤ b)
    (upper : b < 1) (order : SetOrder) {runtime : AgentRuntime}
    (retrieves : runtime.RetrievesBy
      ((HybridRetrievalPipeline.over data log k1 b getEmbedding sqrt minScore
        corpus).executePipeline data order getEmbedding sqrt))
    (assembler : ContextAssembler) (runId userInput : String) :
    ∃ text outcome,
      ReportsEvidence docs (¬ Unsupported data getEmbedding sqrt minScore corpus userInput) text
        outcome ∧
      TellsEvidence (runtime.assembling assembler) runId userInput text outcome := by
  obtain ⟨retrieve, pipeline, answers⟩ := retrieves
  refine ⟨_, _, ?_, run_tellsEvidence assembler pipeline runId userInput⟩
  obtain ⟨citations, answered, keys⟩ := answers userInput
  obtain ⟨text, cited, returned, outcome⟩ := executePipeline_outcome data log getEmbedding sqrt
    minScore ingests named weight lower upper order userInput 2
  rw [answered, Except.ok.injEq] at returned
  obtain ⟨sameText, rfl⟩ := Prod.mk.inj returned
  subst sameText
  rcases outcome with ⟨unsupported, notice⟩ | ⟨supported, candidates, grounded, few, some⟩
  · have insufficient : (retrieve userInput).1 = "insufficient_evidence" :=
      congrArg Prod.fst notice
    rw [evidenceText, retrievalEvent, if_pos insufficient, if_pos insufficient]
    exact .melts (not_not_intro unsupported)
  · rw [evidenceText, retrievalEvent, if_neg grounded.text_ne, if_neg grounded.text_ne, keys]
    have bound := few (by decide)
    exact .cites candidates _ citations supported grounded (some (by decide)) (by omega)

end Corpus

theorem run_evidence_grounded_prices :
    ∃ (runtime : AgentRuntime) (candidates : List FusedHit) (text : String)
      (citations : OrderedDict String FusedHit),
      Grounded [priceNotice] candidates text citations ∧ candidates ≠ [] ∧
      TellsEvidence runtime "r1" "Which prices rose?" text
        (.retrievalSuccess citations.keys) := by
  have each : ∀ query, ∃ text citations,
      (HybridRetrievalPipeline.over .ascii Real.log (3 / 2) (3 / 4) (fun _ => [1, 0]) Real.sqrt
        2 [priceChunk]).executePipeline .ascii (.leading "doc_1_c0") (fun _ => [1, 0])
        Real.sqrt query 2 = .ok (text, citations) ∧ _ :=
    fun query => executePipeline_outcome .ascii Real.log (fun _ => [1, 0]) Real.sqrt 2
      price_ingests (by decide) (by norm_num) (by norm_num) (by norm_num)
      (.leading "doc_1_c0") query 2
  choose retrieved cited returned _ using each
  let runtime : AgentRuntime :=
    { scripted ⟨.empty⟩ [] with
      retrievalPipeline := some fun query => (retrieved query, (cited query).keys) }
  have retrieves : runtime.RetrievesBy
      ((HybridRetrievalPipeline.over .ascii Real.log (3 / 2) (3 / 4) (fun _ => [1, 0]) Real.sqrt
        2 [priceChunk]).executePipeline .ascii (.leading "doc_1_c0") (fun _ => [1, 0])
        Real.sqrt) :=
    ⟨_, rfl, fun query => ⟨cited query, returned query, rfl⟩⟩
  obtain ⟨told, outcome, reports, tells⟩ := run_evidence_grounded .ascii Real.log (fun _ => [1, 0])
    Real.sqrt 2 price_ingests (by decide) (by norm_num) (by norm_num) (by norm_num)
    (.leading "doc_1_c0") retrieves { utilization := fun _ _ => ⟨"0.0", false⟩ } "r1"
    "Which prices rose?"
  cases reports with
  | melts unsupported => exact absurd prices_supported unsupported
  | cites candidates _ citations _ grounded nonempty _ =>
      exact ⟨_, candidates, told, citations, grounded, nonempty, tells⟩

end DurableAgent.Runtime
