import DurableAgent.Context.Positions
import DurableAgent.Context.Pruning
import DurableAgent.Runtime.Rendering
import DurableAgent.Runtime.Trajectory

/-!
# The messages of a request

Every request of a run is the context, rendered as one message, and behind it the whole
history of messages. The safety instruction leads the context; but what the context
assembler removes from the history is still part of the history.
-/

set_option autoImplicit false

namespace DurableAgent.Runtime

open Library Python Context
open Context.ContextAssembler (isSystem)
open Context.ContextDeduplicator (deduplicate)

def Entry.request? : Entry → Option (List AgentMessage)
  | .generated messages _ => some messages
  | _ => none

/-- The message lists that the provider has been given. -/
def Session.requests (session : Session) : List (List AgentMessage) :=
  session.journal.filterMap Entry.request?

namespace AgentRuntime

variable (runtime : AgentRuntime)

def contextOf (preContextItems : List ContextItem) (history : List AgentMessage) : ContextBundle :=
  (runtime.assemble (runtime.dynamicItems preContextItems history)).1

def modelMessages (preContextItems : List ContextItem) (history : List AgentMessage) :
    List AgentMessage :=
  contextBundleToMessage (runtime.contextOf preContextItems history) :: history

/-- The runtime with this context assembler. -/
def assembling (assembler : ContextAssembler) : AgentRuntime :=
  { runtime with assemble := assembler.assemble }

end AgentRuntime

section Requests

variable (runtime : AgentRuntime)

@[simp] theorem requests_record (session : Session) (event : Event) :
    (session.record event).requests = session.requests := by
  simp [Session.requests, Session.record, Entry.request?]

theorem requests_failProvider (session : Session) (exception : Raised) :
    (session.failProvider exception).requests = session.requests :=
  (requests_record _ _).trans (requests_record _ _)

theorem requests_exceedMaxSteps (session : Session) :
    (runtime.exceedMaxSteps session).requests = session.requests :=
  (requests_record _ _).trans (requests_record _ _)

theorem requests_answerDirectly (session : Session) (message : AgentMessage) :
    (session.answerDirectly message).requests = session.requests :=
  (requests_record _ _).trans (requests_record _ _)

theorem requests_receive (session : Session) (message : AgentMessage) :
    (session.receive message).requests = session.requests := by
  unfold Session.receive
  cases message.rationale with
  | none => exact requests_record _ _
  | some rationale => exact (requests_record _ _).trans (requests_record _ _)

theorem requests_answerCall (rationale : Option PlannerRationale) (call : ToolCall)
    (session : Session) :
    (runtime.answerCall rationale call session).requests = session.requests := by
  obtain ⟨tries, attempted, answered, tried, _⟩ :=
    answerCall_answered runtime rationale call session
  rw [answered]
  exact answered_filterMap (fun _ => rfl) (fun _ _ _ => rfl) rationale attempted tried

theorem requests_processCalls (rationale : Option PlannerRationale) (calls : List ToolCall)
    (session : Session) :
    (runtime.processCalls rationale calls session).requests = session.requests := by
  induction calls generalizing session with
  | nil => rfl
  | cons call rest ih =>
      have answered := requests_answerCall runtime rationale call session
      rw [AgentRuntime.processCalls]
      split
      · exact (requests_record _ _).trans answered
      · exact (ih _).trans answered

theorem assembleContext_requests (preContextItems : List ContextItem) (session : Session) :
    (runtime.assembleContext preContextItems session).1.requests = session.requests ∧
      (runtime.assembleContext preContextItems session).1.state = session.state ∧
      (runtime.assembleContext preContextItems session).2 =
        runtime.contextOf preContextItems session.state.messages := by
  unfold AgentRuntime.assembleContext
  dsimp only
  split
  · exact ⟨(requests_record _ _).trans (requests_record _ _), rfl, rfl⟩
  · exact ⟨requests_record _ _, rfl, rfl⟩

/-- A turn within the bound makes a request, of the context and the messages so far. -/
theorem requests_turn_within (preContextItems : List ContextItem) (session : Session)
    (within : ¬ runtime.maxSteps ≤ session.state.stepCount) :
    (runtime.turn preContextItems session).requests =
      session.requests ++ [runtime.modelMessages preContextItems session.state.messages] := by
  have assembles := assembleContext_requests runtime preContextItems session
  unfold AgentRuntime.turn
  rw [if_neg within]
  rcases assembled : runtime.assembleContext preContextItems session with ⟨requested, bundle⟩
  rw [assembled] at assembles
  obtain ⟨before, state, rfl⟩ := assembles
  have given : contextBundleToMessage (runtime.contextOf preContextItems session.state.messages) ::
      requested.state.messages =
        runtime.modelMessages preContextItems session.state.messages := by
    rw [state]
    rfl
  dsimp only
  rw [given]
  have asked : ∀ outcome, (requested.note (.generated
        (runtime.modelMessages preContextItems session.state.messages) outcome)).requests =
      session.requests ++ [runtime.modelMessages preContextItems session.state.messages] := by
    intro outcome
    rw [← before]
    simp [Session.requests, Session.note, Entry.request?]
  cases answer : runtime.provider requested.journal
      (runtime.modelMessages preContextItems session.state.messages) with
  | error exception => exact (requests_failProvider _ exception).trans (asked _)
  | ok message =>
      have received := (requests_receive _ message).trans (asked (.ok message))
      dsimp only
      split
      · exact (requests_processCalls runtime _ _ _).trans received
      · exact (requests_answerDirectly _ message).trans received

theorem requests_turn (preContextItems : List ContextItem) (session : Session) :
    (runtime.turn preContextItems session).requests = session.requests ∨
      (runtime.turn preContextItems session).requests =
        session.requests ++ [runtime.modelMessages preContextItems session.state.messages] := by
  by_cases exceeded : runtime.maxSteps ≤ session.state.stepCount
  · left
    unfold AgentRuntime.turn
    rw [if_pos exceeded]
    exact requests_exceedMaxSteps runtime session
  · exact .inr (requests_turn_within runtime preContextItems session exceeded)

theorem prepare_requests (runId userInput : String) :
    (runtime.prepare runId userInput).1.requests = [] := by
  have activated : ∀ session, (runtime.activateSkill userInput session).1.requests =
      session.requests := by
    intro session
    unfold AgentRuntime.activateSkill
    split
    · exact requests_record _ _
    · rfl
  have retrieved : ∀ session, (runtime.retrieveEvidence userInput session).1.requests =
      session.requests := by
    intro session
    unfold AgentRuntime.retrieveEvidence
    split
    · dsimp only
      split
      · exact requests_record _ _
      · exact requests_record _ _
    · rfl
  exact (retrieved _).trans (activated _)

/-- Every request of a run is made of the context for its history and the history. -/
theorem runSession_requests (runId userInput : String) :
    ∀ messages ∈ (runtime.runSession runId userInput).requests,
      messages = runtime.modelMessages (runtime.prepare runId userInput).2 messages.tail := by
  have exits := runSession_exits runtime runId userInput
  let holds := fun session : Session => ∀ messages ∈ session.requests,
    messages = runtime.modelMessages (runtime.prepare runId userInput).2 messages.tail
  have kept : ∀ session, AgentRuntime.Running session = true → holds session →
      holds (runtime.turn (runtime.prepare runId userInput).2 session) := by
    intro session _ held messages member
    rcases requests_turn runtime (runtime.prepare runId userInput).2 session with same | grown
    · exact held messages (same ▸ member)
    · rw [grown] at member
      rcases List.mem_append.mp member with earlier | last
      · exact held messages earlier
      · rw [List.mem_singleton.mp last]
        rfl
  have base : holds (runtime.prepare runId userInput).1 := by
    simp [holds, prepare_requests]
  exact exits.invariant kept base

/-- A run that may take a step asks with the user's input as the history. -/
theorem first_request_made (positive : 0 < runtime.maxSteps) (runId userInput : String) :
    runtime.modelMessages (runtime.prepare runId userInput).2
        [{ role := "user", content := some userInput }] ∈
      (runtime.runSession runId userInput).requests := by
  have exits := runSession_exits runtime runId userInput
  have started := (prepare_beside runtime runId userInput).1
  generalize runtime.runSession runId userInput = final at exits ⊢
  cases exits with
  | stop ended => simp [AgentRuntime.Running, started, AgentRuntime.start, Session.record] at ended
  | turn _ exits =>
      let made := fun session : Session =>
        runtime.modelMessages (runtime.prepare runId userInput).2
          [{ role := "user", content := some userInput }] ∈ session.requests
      have kept : ∀ session, AgentRuntime.Running session = true → made session →
          made (runtime.turn (runtime.prepare runId userInput).2 session) := by
        intro session _ earlier
        rcases requests_turn runtime (runtime.prepare runId userInput).2 session with same | grown
        · exact (congrArg _ same).mpr earlier
        · exact (congrArg _ grown).mpr (List.mem_append_left _ earlier)
      have base : made (runtime.turn (runtime.prepare runId userInput).2
          (runtime.prepare runId userInput).1) := by
        have within : ¬ runtime.maxSteps ≤
            (runtime.prepare runId userInput).1.state.stepCount := by
          rw [started]
          exact not_le.mpr positive
        have asked := requests_turn_within runtime (runtime.prepare runId userInput).2
          (runtime.prepare runId userInput).1 within
        simp only [made, asked, started]
        exact List.mem_append_right _ List.mem_cons_self
      exact exits.invariant kept base

end Requests

/-- An item that gives way to the safety instruction. -/
structure Secondary (item : ContextItem) : Prop where
  priority : item.priority < 100
  kind : item.kind ≠ "system_instruction"
  ageInSteps : item.ageInSteps = 0

section Items

variable (runtime : AgentRuntime)

theorem head?_append_of_some {start : String} {char : Char}
    (starts : start.toList.head? = some char) (rest : String) :
    (start ++ rest).toList.head? = some char := by
  simp [String.toList_append, List.head?_append, starts]

/-- The items of the pre-loop context, which all begin with a bracket. -/
theorem prepare_items (runId userInput : String) :
    ∀ item ∈ (runtime.prepare runId userInput).2,
      Secondary item ∧ item.content.toList.head? = some '[' := by
  have skill : ∀ session, ∀ item ∈ (runtime.activateSkill userInput session).2,
      Secondary item ∧ item.content.toList.head? = some '[' := by
    intro session item member
    unfold AgentRuntime.activateSkill at member
    split at member
    · rw [List.mem_singleton.mp member]
      refine ⟨⟨show (80 : Int) < 100 by decide,
        show "skill_instruction" ≠ "system_instruction" by decide, rfl⟩, ?_⟩
      exact head?_append_of_some (head?_append_of_some (head?_append_of_some rfl _) _) _
    · cases member
  have evidence : ∀ session, ∀ item ∈ (runtime.retrieveEvidence userInput session).2,
      Secondary item ∧ item.content.toList.head? = some '[' := by
    have each : ∀ evidenceText, Secondary (AgentRuntime.evidenceItem evidenceText) ∧
        (AgentRuntime.evidenceItem evidenceText).content.toList.head? = some '[' :=
      fun evidenceText =>
        ⟨⟨show (70 : Int) < 100 by decide,
          show "retrieved_evidence" ≠ "system_instruction" by decide, rfl⟩,
          head?_append_of_some rfl _⟩
    intro session item member
    unfold AgentRuntime.retrieveEvidence at member
    split at member
    · dsimp only at member
      split at member
      · rw [List.mem_singleton.mp member]
        exact each _
      · rw [List.mem_singleton.mp member]
        exact each _
    · cases member
  have memory : ∀ item ∈ runtime.recallMemories,
      Secondary item ∧ item.content.toList.head? = some '[' := by
    intro item member
    unfold AgentRuntime.recallMemories at member
    split at member
    · split at member
      · cases member
      · rw [List.mem_singleton.mp member]
        refine ⟨⟨show (60 : Int) < 100 by decide,
          show "long_term_memory" ≠ "system_instruction" by decide, rfl⟩, ?_⟩
        exact head?_append_of_some (head?_append_of_some (head?_append_of_some rfl _) _) _
    · cases member
  intro item member
  rcases List.mem_append.mp member with earlier | recalled
  · rcases List.mem_append.mp earlier with activated | retrieved
    · exact skill _ item activated
    · exact evidence _ item retrieved
  · exact memory item recalled

theorem messageItem_secondary (index : Nat) (message : AgentMessage) :
    Secondary (runtime.messageItem index message) := by
  unfold AgentRuntime.messageItem
  by_cases user : message.role = "user"
  · exact ⟨by simp [user], by simp [user], rfl⟩
  · exact ⟨by simp [user], by simp [user], rfl⟩

variable {preContextItems : List ContextItem}

theorem dynamicItems_cases (secondary : ∀ item ∈ preContextItems, Secondary item)
    (history : List AgentMessage) :
    ∀ item ∈ runtime.dynamicItems preContextItems history,
      item = AgentRuntime.coreSystemInstruction ∨ Secondary item := by
  intro item member
  rcases List.mem_append.mp member with front | back
  · rcases List.mem_append.mp front with earlier | core
    · exact .inr (secondary item earlier)
    · exact .inl (List.mem_singleton.mp core)
  · obtain ⟨index, bound, rfl⟩ := List.mem_mapIdx.mp back
    exact .inr (messageItem_secondary runtime index _)

theorem core_starts :
    (strip AgentRuntime.coreSystemInstruction.content).toList.head? = some 'Y' :=
  strip_head?
    (head?_append_of_some (head?_append_of_some (head?_append_of_some (head?_append_of_some
      (head?_append_of_some rfl _) _) _) _) _)
    (by decide)

/-- No item before the safety instruction has its text. -/
theorem core_deduplicated (brackets : ∀ item ∈ preContextItems,
    item.content.toList.head? = some '[') (history : List AgentMessage) :
    AgentRuntime.coreSystemInstruction ∈
      deduplicate (runtime.dynamicItems preContextItems history) := by
  rw [ContextDeduplicator.mem_deduplicate_iff]
  have before : preContextItems.find?
      (ContextDeduplicator.sameText AgentRuntime.coreSystemInstruction.content) = none := by
    rw [List.find?_eq_none]
    intro item member same
    have bracket := strip_head? (brackets item member) (by decide)
    rw [of_decide_eq_true same, core_starts] at bracket
    cases bracket
  have self : ContextDeduplicator.sameText AgentRuntime.coreSystemInstruction.content
      AgentRuntime.coreSystemInstruction = true := decide_eq_true rfl
  simp [AgentRuntime.dynamicItems, List.find?_append, before, self]

theorem core_alone (secondary : ∀ item ∈ preContextItems, Secondary item)
    (history : List AgentMessage) :
    ∀ item ∈ runtime.dynamicItems preContextItems history, 100 ≤ item.priority →
      item = AgentRuntime.coreSystemInstruction := by
  intro item member high
  rcases dynamicItems_cases runtime secondary history item member with core | other
  · exact core
  · exact absurd other.priority (by omega)

end Items

/-- The safety instruction is the first section, and no other section is a system
instruction. -/
def LeadsContext (bundle : ContextBundle) : Prop :=
  ∃ rest, bundle.items = AgentRuntime.coreSystemInstruction :: rest ∧
    ∀ item ∈ rest, item.kind ≠ "system_instruction"

/-- The message of a context of which the first section is the safety instruction. -/
def LeadsMessage (message : AgentMessage) : Prop :=
  ∃ sections, message = {
    role := "system"
    content := some (preamble ++
      "\n\n".intercalate (sectionText AgentRuntime.coreSystemInstruction :: sections)) }

theorem LeadsContext.message {bundle : ContextBundle} (leads : LeadsContext bundle) :
    LeadsMessage (contextBundleToMessage bundle) := by
  obtain ⟨rest, items, _⟩ := leads
  refine ⟨rest.map sectionText, ?_⟩
  rw [contextBundleToMessage_eq, items, List.map_cons]

/-- Every request is the rendered context, led by the safety instruction, and the history
behind it. -/
def LeadsRequests (runtime : AgentRuntime) (preContextItems : List ContextItem)
    (session : Session) : Prop :=
  ∀ messages ∈ session.requests,
    messages = runtime.modelMessages preContextItems messages.tail ∧
      LeadsContext (runtime.contextOf preContextItems messages.tail) ∧
      ∃ message ∈ messages.head?, LeadsMessage message

theorem instruction_leads_requests (runtime : AgentRuntime) (assembler : ContextAssembler)
    (runId userInput : String) :
    LeadsRequests (runtime.assembling assembler)
      ((runtime.assembling assembler).prepare runId userInput).2
      ((runtime.assembling assembler).runSession runId userInput) := by
  intro messages member
  have request := runSession_requests (runtime.assembling assembler) runId userInput messages member
  have items := prepare_items (runtime.assembling assembler) runId userInput
  generalize ((runtime.assembling assembler).prepare runId userInput).2 = preContextItems
    at request items ⊢
  have secondary : ∀ item ∈ preContextItems, Secondary item := fun item within =>
    (items item within).1
  obtain ⟨rest, leads, absent, raw⟩ := ContextAssembler.assemble_leads assembler
    (core_deduplicated (runtime.assembling assembler) (fun item within => (items item within).2)
      messages.tail)
    (by decide) (core_alone (runtime.assembling assembler) secondary messages.tail) (by decide)
  have context : LeadsContext
      ((runtime.assembling assembler).contextOf preContextItems messages.tail) := by
    refine ⟨rest, leads, fun item within => ?_⟩
    rcases dynamicItems_cases _ secondary messages.tail item (raw item within) with rfl | other
    · exact absurd within absent
    · exact other.kind
  refine ⟨request, context, _, ?_, context.message⟩
  rw [request]
  rfl

section Removals

variable (runtime : AgentRuntime) (assembler : ContextAssembler)

/-- The assembler prunes the item or drops it for the budget. -/
def Removes (rawItems : List ContextItem) (item : ContextItem) : Prop :=
  (item ∈ deduplicate rawItems ∧ item ∉ (ContextPruner.prune (deduplicate rawItems)).1) ∨
    item ∈ (assembler.assemble rawItems).1.droppedItems

/-- The text is that of a section of the context or of a message of the history. -/
def Passes (bundle : ContextBundle) (history : List AgentMessage) (content : String) : Prop :=
  (∃ item ∈ bundle.items, item.content = content) ∨
    ∃ message ∈ history, runtime.contentStr message = content

/-- What is removed from the context does not reach the provider, unless an item with
the same text is retained. -/
def Withholds (preContextItems : List ContextItem) (history : List AgentMessage) : Prop :=
  ∀ item, Removes assembler (runtime.dynamicItems preContextItems history) item →
    Passes runtime ((runtime.assembling assembler).contextOf preContextItems history) history
      item.content →
    ∃ kept ∈ ((runtime.assembling assembler).contextOf preContextItems history).items,
      kept.content = item.content

/-- In the order of priority, every item with the text of a message is among the first
twenty and fits the budget beside those before it. -/
def HistoryFits (preContextItems : List ContextItem) (history : List AgentMessage) : Prop :=
  ∀ before item behind,
    sortByPriority (deduplicate (runtime.dynamicItems preContextItems history)) =
      before ++ item :: behind →
    (∃ message ∈ history, runtime.contentStr message = item.content) →
    before.length < 20 ∧
      (100 ≤ item.priority ∨
        ((ContextAssembler.truncate assembler.maxTokens before).currentTokens : Int) +
          estimateTokens item.content ≤ assembler.maxTokens)

variable {assembler} {rawItems : List ContextItem}

theorem removes_iff {item : ContextItem} :
    Removes assembler rawItems item ↔
      item ∈ deduplicate rawItems ∧ item ∉ (assembler.assemble rawItems).1.items := by
  have perm := (ContextAssembler.truncate_truncates assembler.maxTokens
    (sortByPriority (ContextPruner.prune (deduplicate rawItems)).1)).perm.trans
      (sortByPriority_perm _)
  have pruned := ContextPruner.prune_partition (deduplicate rawItems) 10 60 20 (by decide)
  have distinct := pruned.nodup (ContextDeduplicator.deduplicate_nodup rawItems)
  have dropped : (assembler.assemble rawItems).1.droppedItems =
      (assembler.selected rawItems).droppedItems := rfl
  rw [Removes, dropped, ContextAssembler.mem_assemble_items]
  have either := fun item => perm.mem_iff (a := item)
  simp only [List.mem_append] at either
  constructor
  · rintro (⟨unique, cut⟩ | beyond)
    · exact ⟨unique, fun retained => cut ((either item).mp (.inl retained))⟩
    · have kept := (either item).mp (.inr beyond)
      refine ⟨pruned.subset kept, fun retained => ?_⟩
      exact (List.nodup_append.mp (perm.nodup_iff.mpr distinct)).2.2 item retained item beyond rfl
  · rintro ⟨unique, lost⟩
    by_cases kept : item ∈ (ContextPruner.prune (deduplicate rawItems)).1
    · exact .inr (((either item).mpr kept).resolve_left lost)
    · exact .inl ⟨unique, kept⟩

/-- Where only few items are protected and none is stale, the context holds what fits of
the first twenty. -/
theorem mem_items_iff (fresh : ∀ item ∈ rawItems, item.ageInSteps = 0)
    (room : ContextPruner.protectedCount (deduplicate rawItems) < 20)
    {before behind : List ContextItem} {item : ContextItem}
    (split : sortByPriority (deduplicate rawItems) = before ++ item :: behind) :
    item ∈ (assembler.assemble rawItems).1.items ↔
      before.length < 20 ∧
        (100 ≤ item.priority ∨
          ((ContextAssembler.truncate assembler.maxTokens before).currentTokens : Int) +
            estimateTokens item.content ≤ assembler.maxTokens) := by
  have young : ∀ item ∈ deduplicate rawItems, ContextPruner.stale 10 60 item = false := by
    intro item member
    have age := fresh item
      ((ContextDeduplicator.deduplicateFrom_spec [] rawItems).1.subset member)
    simp [ContextPruner.stale, age]
  have selected : assembler.selected rawItems = ContextAssembler.truncate assembler.maxTokens
      ((before ++ item :: behind).take 20) := by
    rw [← split]
    exact congrArg _ (ContextPruner.sort_prune young room)
  have distinct : (before ++ item :: behind).Nodup := by
    rw [← split, (sortByPriority_perm _).nodup_iff]
    exact ContextDeduplicator.deduplicate_nodup rawItems
  rw [ContextAssembler.mem_assemble_items, selected]
  by_cases first : before.length < 20
  · have taken : (before ++ item :: behind).take 20 =
        before ++ item :: behind.take (19 - before.length) := by
      rw [List.take_append, List.take_of_length_le (by omega),
        show 20 - before.length = (19 - before.length) + 1 by omega, List.take_succ_cons]
    rw [taken, ContextAssembler.mem_truncate_iff]
    · simp [first]
    · rw [← taken]
      exact distinct.sublist (List.take_sublist _ _)
  · refine iff_of_false (fun retained => ?_) (fun fits => first fits.1)
    have early := (ContextAssembler.retained_sublist _ _).subset retained
    have taken : (before ++ item :: behind).take 20 = before.take 20 := by
      rw [List.take_append_of_le_length (by omega)]
    rw [taken] at early
    exact (List.nodup_append.mp distinct).2.2 item (List.mem_of_mem_take early) item
      List.mem_cons_self rfl

theorem protectedCount_le_one {items : List ContextItem} {leader : ContextItem}
    (distinct : items.Nodup) (only : ∀ item ∈ items, isSystem item = true → item = leader) :
    ContextPruner.protectedCount items ≤ 1 := by
  unfold ContextPruner.protectedCount
  refine le_trans (List.countP_mono_left fun item member system => ?_)
    (List.nodup_iff_count_le_one.mp distinct leader)
  simp [only item member system]

theorem withholds_iff {preContextItems : List ContextItem}
    (secondary : ∀ item ∈ preContextItems, Secondary item) (history : List AgentMessage) :
    Withholds runtime assembler preContextItems history ↔
      HistoryFits runtime assembler preContextItems history := by
  let rawItems := runtime.dynamicItems preContextItems history
  have cases := dynamicItems_cases runtime secondary history
  have raw := (ContextDeduplicator.deduplicateFrom_spec [] rawItems).1
  have fresh : ∀ item ∈ rawItems, item.ageInSteps = 0 := by
    intro item member
    rcases cases item member with rfl | other
    · rfl
    · exact other.ageInSteps
  have room : ContextPruner.protectedCount (deduplicate rawItems) < 20 := by
    have only : ∀ item ∈ deduplicate rawItems, isSystem item = true →
        item = AgentRuntime.coreSystemInstruction := by
      intro item member system
      exact core_alone runtime secondary history item (raw.subset member)
        (of_decide_eq_true system)
    have one := protectedCount_le_one (ContextDeduplicator.deduplicate_nodup rawItems) only
    omega
  have unique : ∀ item ∈ deduplicate rawItems, ∀ other ∈ deduplicate rawItems,
      other.content = item.content → other = item := by
    intro item member other also same
    rw [ContextDeduplicator.mem_deduplicate_iff] at member also
    rw [same, member] at also
    exact (Option.some.inj also).symm
  have bundle : ((runtime.assembling assembler).contextOf preContextItems history).items =
      (assembler.assemble rawItems).1.items := rfl
  have within : ∀ item ∈ (assembler.assemble rawItems).1.items, item ∈ deduplicate rawItems := by
    intro item member
    exact (ContextAssembler.selected_partition assembler rawItems).subset
      (ContextAssembler.mem_assemble_items.mp member)
  constructor
  · intro withholds before item behind split message
    have member : item ∈ deduplicate rawItems := by
      rw [← (sortByPriority_perm _).mem_iff, split]
      exact List.mem_append_right _ List.mem_cons_self
    rw [← mem_items_iff fresh room split]
    by_contra lost
    obtain ⟨kept, retained, same⟩ := withholds item (removes_iff.mpr ⟨member, lost⟩) (.inr message)
    rw [bundle] at retained
    rw [unique item member kept (within kept retained) same] at retained
    exact lost retained
  · intro fits item removed passes
    obtain ⟨member, lost⟩ := removes_iff.mp removed
    rcases passes with retained | message
    · exact retained
    · obtain ⟨before, behind, split⟩ := List.append_of_mem
        ((sortByPriority_perm _).mem_iff.mpr member)
      exact absurd ((mem_items_iff fresh room split).mpr (fits before item behind split message)) lost

end Removals

/-- In a run nothing that is removed from a context reaches the provider exactly if all
the messages of every request fit their context. -/
theorem removals_withheld_iff (runtime : AgentRuntime) (assembler : ContextAssembler)
    (runId userInput : String) :
    (∀ messages ∈ ((runtime.assembling assembler).runSession runId userInput).requests,
        Withholds runtime assembler
          ((runtime.assembling assembler).prepare runId userInput).2 messages.tail) ↔
      ∀ messages ∈ ((runtime.assembling assembler).runSession runId userInput).requests,
        HistoryFits runtime assembler
          ((runtime.assembling assembler).prepare runId userInput).2 messages.tail := by
  have secondary : ∀ item ∈ ((runtime.assembling assembler).prepare runId userInput).2,
      Secondary item := fun item member =>
    (prepare_items (runtime.assembling assembler) runId userInput item member).1
  exact forall₂_congr fun messages _ => withholds_iff runtime secondary messages.tail

/-- A user message for which the budget has no room is passed on all the same. -/
theorem dropped_message_passed :
    ¬ ∀ (runtime : AgentRuntime) (assembler : ContextAssembler) (runId userInput : String),
      ∀ messages ∈ ((runtime.assembling assembler).runSession runId userInput).requests,
        Withholds runtime assembler
          ((runtime.assembling assembler).prepare runId userInput).2 messages.tail := by
  intro always
  let runtime := scripted ⟨.empty⟩ []
  let assembler : ContextAssembler := { maxTokens := 10, utilization := fun _ _ => ⟨"8.8", true⟩ }
  let question := "Which of the twelve regions had the highest inflation?"
  let message : AgentMessage := { role := "user", content := some question }
  have withholds := always runtime assembler "r1" question
    ((runtime.assembling assembler).modelMessages [] [message])
    (first_request_made (runtime.assembling assembler) (by decide) "r1" question)
  have fits := (withholds_iff runtime (List.forall_mem_nil _) [message]).mp withholds
  have apart : strip (runtime.messageItem 0 message).content ≠
      strip AgentRuntime.coreSystemInstruction.content := by
    intro same
    have asks : (strip (runtime.messageItem 0 message).content).toList.head? = some 'W' := by
      decide +kernel
    rw [same, core_starts] at asks
    cases asks
  have both : deduplicate (runtime.dynamicItems [] [message]) =
      [AgentRuntime.coreSystemInstruction, runtime.messageItem 0 message] := by
    simp [AgentRuntime.dynamicItems, deduplicate, ContextDeduplicator.deduplicateFrom, apart]
  have order : sortByPriority (deduplicate (runtime.dynamicItems [] [message])) =
      [AgentRuntime.coreSystemInstruction] ++ runtime.messageItem 0 message :: [] := by
    rw [both]
    exact List.Pairwise.insertionSort_eq (by decide)
  have tokens : estimateTokens (runtime.messageItem 0 message).content = 13 := by decide +kernel
  have budget : assembler.maxTokens = 10 := rfl
  obtain ⟨_, high | small⟩ := fits _ _ _ order ⟨message, by simp, rfl⟩
  · exact absurd high (by decide)
  · omega

end DurableAgent.Runtime
