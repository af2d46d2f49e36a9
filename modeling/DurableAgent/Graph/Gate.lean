import DurableAgent.Graph.Recovery

/-!
# The call that is checked and the call that is executed

`submit_mcp_job` asks the policy gate about one argument, `horizon`, and hands
the whole plan to the job. The two agree where the tool's schema makes no
difference between them.
-/

set_option autoImplicit false

namespace DurableAgent.Graph

open Capability Jobs Library Python

/-- `plan.get("task", "mcp_arima_forecast")`, as a key of the registry. -/
def planTool (entries : Dict) : Except Exception Key :=
  ((Dict.get? entries "task").getD (.str "mcp_arima_forecast")).toKey

/-- The arguments of the executed call: the plan without the name of its tool. -/
def planArguments (entries : Dict) : Dict :=
  entries.filter fun entry => decide (entry.1 ≠ "task")

def askedArguments (entries : Dict) : Dict :=
  [("horizon", (Dict.get? entries "horizon").getD .none)]

/-- The gate denies the plan's tool for the full set of the plan's arguments. -/
def planDenied (registry : McpCapabilityRegistry) (plan : Value) : Bool :=
  match plan with
  | .dict entries =>
      match planTool entries with
      | .ok toolName =>
          match evaluateToolCall registry toolName (planArguments entries) "researcher" with
          | .ok (.deny, _) => true
          | _ => false
      | .error _ => false
  | _ => false

/-- The message of a security denial, when the transition reports one. -/
def denial (host : Host) (transition : ThreadTransition) : Option String :=
  match transition.source.position, transition.label with
  | .executing .submitMcpJob _, .node _ _ =>
      match assess host.registry transition.source.values.plan with
      | .denied message => some message
      | _ => none
  | _, _ => none

/-- The gate's answer for the executed call decides the submission. -/
structure ChecksExecutedCall (host : Host) (transition : ThreadTransition) : Prop where
  enqueued : ∀ payload decision, Enqueues host transition payload decision →
    planDenied host.registry (.dict payload) = false
  denied : ∀ message, denial host transition = some message →
    planDenied host.registry transition.source.values.plan = true

/-- The schema that is consulted for a plan: that of its registered tool, if a
researcher may use the tool and the schema is not empty. -/
def Consulted (registry : McpCapabilityRegistry) (entries schema : Dict) : Prop :=
  ∃ toolName capability, planTool entries = .ok toolName ∧
    registry.getCapability toolName = some capability ∧
    "researcher" ∈ capability.allowedRoles ∧ capability.inputSchema = some schema ∧ schema ≠ []

/-- A schema that is consulted knows `horizon` exactly if it knows every key of
the plan other than `task`. -/
def SchemaAgrees (registry : McpCapabilityRegistry) (plan : Value) : Prop :=
  ∀ entries schema known, plan = .dict entries → Consulted registry entries schema →
    (schemaProperties schema).contains "horizon" = .ok known →
    (known = true ↔ ∀ key ∈ (planArguments entries).keys,
      (schemaProperties schema).contains key = .ok true)

section Agreement

variable {registry : McpCapabilityRegistry} {entries : Dict} {toolName : Key}

private theorem assess_cases (named : planTool entries = .ok toolName) :
    (∃ raised, assess registry (.dict entries) = .raised raised ∧
      ¬ Denies registry toolName (askedArguments entries) "researcher" ∧
      ¬ Passes registry toolName (askedArguments entries) "researcher") ∨
    (∃ message, assess registry (.dict entries) = .denied message ∧
      Denies registry toolName (askedArguments entries) "researcher") ∨
    ∃ jobType decision,
      assess registry (.dict entries) = .admitted jobType entries decision ∧
      Passes registry toolName (askedArguments entries) "researcher" := by
  unfold planTool at named
  simp only [assess, named]
  cases answer : evaluateToolCall registry toolName (askedArguments entries) "researcher" with
  | error raised =>
      refine .inl ⟨raised, ?_, by simp [Denies, answer], by simp [Passes, answer]⟩
      unfold askedArguments at answer
      simp [answer]
  | ok verdict =>
      obtain ⟨decision, message⟩ := verdict
      have asked := answer
      unfold askedArguments at asked
      by_cases denied : decision = .deny
      · subst denied
        exact .inr (.inl ⟨message, by simp [asked], message, answer⟩)
      · obtain ⟨jobType, _, rfl, _, _⟩ := evaluateToolCall_admits answer denied
        refine .inr (.inr ⟨jobType, decision, ?_, decision, message, answer, denied⟩)
        cases decision with
        | deny => exact absurd rfl denied
        | allow | routeToHitl => simp [asked]

private theorem violation_cases {capability : RegisteredCapability}
    (named : planTool entries = .ok toolName)
    (found : registry.getCapability toolName = some capability)
    (privileged : "researcher" ∈ capability.allowedRoles) :
    (∀ arguments, schemaViolation capability.inputSchema arguments = .ok none) ∨
      ∃ schema, Consulted registry entries schema ∧
        ∀ arguments, schemaViolation capability.inputSchema arguments =
          firstUnknownKey (schemaProperties schema) arguments.keys := by
  cases declared : capability.inputSchema with
  | none => exact .inl fun _ => rfl
  | some schema =>
      by_cases constrains : schema = []
      · subst constrains
        exact .inl fun _ => rfl
      · exact .inr ⟨schema, ⟨toolName, capability, named, found, privileged, declared,
          constrains⟩, schemaViolation_of_schema constrains⟩

private theorem scan_asked (properties : Value) (entries : Dict) :
    firstUnknownKey properties (askedArguments entries).keys =
      match properties.contains "horizon" with
      | .error raised => .error raised
      | .ok true => .ok none
      | .ok false => .ok (some "horizon") := rfl

private theorem denied_of_asked (named : planTool entries = .ok toolName)
    (agrees : SchemaAgrees registry (.dict entries))
    (asked : Denies registry toolName (askedArguments entries) "researcher") :
    Denies registry toolName (planArguments entries) "researcher" := by
  rw [denies_iff] at asked ⊢
  intro capability found privileged
  obtain ⟨key, violated⟩ := asked capability found privileged
  rcases violation_cases named found privileged with unconstrained | ⟨schema, consulted, scans⟩
  · rw [unconstrained] at violated
    cases violated
  · rw [scans, scan_asked] at violated
    rw [scans]
    cases searched : (schemaProperties schema).contains "horizon" with
    | error raised => simp [searched] at violated
    | ok known =>
        cases known with
        | true => simp [searched] at violated
        | false =>
            have unknown := (agrees entries schema false rfl consulted searched).not.mp (by simp)
            rcases firstUnknownKey_cases (Value.contains_total searched)
                (planArguments entries).keys with ⟨_, all⟩ | ⟨other, _, scanned, _⟩
            · exact absurd all unknown
            · exact ⟨other, scanned⟩

private theorem passes_of_asked (named : planTool entries = .ok toolName)
    (agrees : SchemaAgrees registry (.dict entries))
    (asked : Passes registry toolName (askedArguments entries) "researcher") :
    ¬ Denies registry toolName (planArguments entries) "researcher" := by
  rw [denies_iff]
  intro refused
  obtain ⟨capability, found, privileged, conforms⟩ := asked.cases
  obtain ⟨key, violated⟩ := refused capability found privileged
  rcases violation_cases named found privileged with unconstrained | ⟨schema, consulted, scans⟩
  · rw [unconstrained] at violated
    cases violated
  · rw [scans, scan_asked] at conforms
    rw [scans] at violated
    cases searched : (schemaProperties schema).contains "horizon" with
    | error raised => simp [searched] at conforms
    | ok known =>
        cases known with
        | false => simp [searched] at conforms
        | true =>
            have all := (agrees entries schema true rfl consulted searched).mp rfl
            rcases firstUnknownKey_cases (Value.contains_total searched)
                (planArguments entries).keys with ⟨scanned, _⟩ | ⟨other, member, _, absent⟩
            · cases violated.symm.trans scanned
            · cases (all other member).symm.trans absent

private theorem schemaAgrees_of_gate (named : planTool entries = .ok toolName)
    (denied : Denies registry toolName (askedArguments entries) "researcher" →
      Denies registry toolName (planArguments entries) "researcher")
    (passed : Passes registry toolName (askedArguments entries) "researcher" →
      ¬ Denies registry toolName (planArguments entries) "researcher") :
    SchemaAgrees registry (.dict entries) := by
  intro others schema known same consulted searched
  cases same
  obtain ⟨tool, capability, alsoNamed, found, privileged, declared, constrains⟩ := consulted
  cases named.symm.trans alsoNamed
  have scans : ∀ arguments, schemaViolation capability.inputSchema arguments =
      firstUnknownKey (schemaProperties schema) arguments.keys := by
    intro arguments
    rw [declared, schemaViolation_of_schema constrains]
  have scanned := firstUnknownKey_cases (Value.contains_total searched)
    (planArguments entries).keys
  cases known with
  | true =>
      refine iff_of_true rfl ?_
      rcases scanned with ⟨_, all⟩ | ⟨unknown, member, violated, _⟩
      · exact all
      · have passes : Passes registry toolName (askedArguments entries) "researcher" := by
          refine passes_of_schema found privileged ?_
          rw [scans, scan_asked, searched]
        refine absurd (denies_iff.mpr ?_) (passed passes)
        intro other alsoFound _
        cases found.symm.trans alsoFound
        exact ⟨unknown, (scans _).trans violated⟩
  | false =>
      refine iff_of_false (by simp) ?_
      intro all
      have asked : Denies registry toolName (askedArguments entries) "researcher" := by
        rw [denies_iff]
        intro other alsoFound _
        cases found.symm.trans alsoFound
        exact ⟨"horizon", by rw [scans, scan_asked, searched]⟩
      obtain ⟨key, violated⟩ := denies_iff.mp (denied asked) capability found privileged
      rw [scans] at violated
      rcases scanned with ⟨conforms, _⟩ | ⟨unknown, member, _, absent⟩
      · cases conforms.symm.trans violated
      · cases (all unknown member).symm.trans absent

private theorem assess_raises {plan : Value}
    (unnamed : ∀ entries toolName, plan = .dict entries → planTool entries ≠ .ok toolName) :
    ∃ raised, assess registry plan = .raised raised := by
  cases plan with
  | dict entries =>
      cases named : planTool entries with
      | ok toolName => exact absurd named (unnamed entries toolName rfl)
      | error raised =>
          unfold planTool at named
          exact ⟨raised, by simp [assess, named]⟩
  | none | bool | int | float | str | list => exact ⟨_, rfl⟩

end Agreement

section Submissions

variable {host : Host} {threadId : String} {history : List ThreadTransition}
  {thread : Thread} {transition : ThreadTransition} {review : Option Dict}
  {store : SQLiteJobStore} {clock : Nat}

theorem denial_eq_some_iff (executing : transition.source.position =
      .executing .submitMcpJob review) (label : transition.label = .node store clock)
    {message : String} :
    denial host transition = some message ↔
      assess host.registry transition.source.values.plan = .denied message := by
  simp only [denial, executing, label]
  cases assess host.registry transition.source.values.plan <;> simp

theorem planDenied_iff {registry : McpCapabilityRegistry} {entries : Dict} {toolName : Key}
    (named : planTool entries = .ok toolName) :
    planDenied registry (.dict entries) = true ↔
      Denies registry toolName (planArguments entries) "researcher" := by
  simp only [planDenied, named, Denies]
  split
  · next message denied => simp [denied]
  · next other =>
      refine iff_of_false (by simp) ?_
      intro ⟨message, denied⟩
      exact other message denied

/-- A submission under a fresh key obeys the gate's answer for the executed call
exactly if the schema that is consulted agrees with it. -/
private theorem checksExecutedCall_of_fresh
    (executing : transition.source.position = .executing .submitMcpJob review)
    (label : transition.label = .node store clock)
    (fresh : store.findByKey transition.source.values.idempotencyKey = none) :
    ChecksExecutedCall host transition ↔
      SchemaAgrees host.registry transition.source.values.plan := by
  by_cases planned : ∃ entries toolName, transition.source.values.plan = .dict entries ∧
      planTool entries = .ok toolName
  · obtain ⟨entries, toolName, plan, named⟩ := planned
    have outcome := @assess_cases host.registry entries toolName named
    rw [plan]
    constructor
    · intro checks
      refine schemaAgrees_of_gate named ?_ ?_
      · intro asked
        rcases outcome with ⟨_, _, silent, _⟩ | ⟨message, denied, _⟩ | ⟨_, _, _, passes⟩
        · exact absurd asked silent
        · rw [← plan] at denied
          have reported := (denial_eq_some_iff executing label).mpr denied
          have refused := checks.denied message reported
          rw [plan] at refused
          exact (planDenied_iff named).mp refused
        · exact absurd asked (not_denies_of_passes passes)
      · intro asked refused
        rcases outcome with ⟨_, _, _, silent⟩ | ⟨_, _, denies⟩ | ⟨jobType, decision, admitted, _⟩
        · exact silent asked
        · exact not_denies_of_passes asked denies
        · rw [← plan] at admitted
          have enqueues : Enqueues host transition entries decision :=
            enqueues_iff.mpr ⟨review, store, clock, jobType, executing, label, admitted, fresh⟩
          have passed := checks.enqueued entries decision enqueues
          rw [(planDenied_iff named).mpr refused] at passed
          cases passed
    · intro agrees
      refine ⟨?_, ?_⟩
      · intro payload decision enqueues
        obtain ⟨_, _, _, _, _, _, admitted, _⟩ := enqueues_iff.mp enqueues
        rw [plan] at admitted
        cases assess_admitted admitted
        rw [← Bool.not_eq_true, planDenied_iff named]
        rcases outcome with ⟨_, raised, _⟩ | ⟨_, denied, _⟩ | ⟨_, _, _, passes⟩
        · cases admitted.symm.trans raised
        · cases admitted.symm.trans denied
        · exact passes_of_asked named agrees passes
      · intro message reported
        have denied := (denial_eq_some_iff executing label).mp reported
        rw [plan] at denied ⊢
        rcases outcome with ⟨_, raised, _⟩ | ⟨_, _, denies⟩ | ⟨_, _, admitted, _⟩
        · cases denied.symm.trans raised
        · exact (planDenied_iff named).mpr (denied_of_asked named agrees denies)
        · cases denied.symm.trans admitted
  · have unnamed : ∀ entries toolName, transition.source.values.plan = .dict entries →
        planTool entries ≠ .ok toolName :=
      fun entries toolName plan named => planned ⟨entries, toolName, plan, named⟩
    obtain ⟨raised, raises⟩ := @assess_raises host.registry _ unnamed
    refine iff_of_true ⟨?_, ?_⟩ ?_
    · intro payload decision enqueues
      obtain ⟨_, _, _, _, _, _, admitted, _⟩ := enqueues_iff.mp enqueues
      cases admitted.symm.trans raises
    · intro message reported
      cases ((denial_eq_some_iff executing label).mp reported).symm.trans raises
    · intro entries schema known plan consulted
      obtain ⟨toolName, _, named, _⟩ := consulted
      exact absurd named (unnamed entries toolName plan)

/-- Whatever the registry and the plan, an execution of `submit_mcp_job` obeys
the gate's answer for the executed call exactly if the schema that is consulted
knows `horizon` just in case it knows every argument of the plan. -/
theorem checksExecutedCall_iff
    (run : Run (Thread.step host threadId) Thread.initial history thread)
    (regular : ∀ transition ∈ history, Regular threadId transition)
    (member : transition ∈ history)
    (executing : transition.source.position = .executing .submitMcpJob review)
    (label : transition.label = .node store clock) :
    ChecksExecutedCall host transition ↔
      SchemaAgrees host.registry transition.source.values.plan := by
  refine checksExecutedCall_of_fresh executing label ?_
  obtain ⟨earlier, later, rfl⟩ := List.append_of_mem member
  have dated : Dated threadId transition.source :=
    run_dated run.around.1 fun taken included => regular taken (List.mem_append_left _ included)
  have activity : StoreActivity (Foreign threadId) transition.source.store store :=
    regular transition member store (by rw [label]; rfl)
  have below := (dated.entered executing (by decide)).activity activity
  exact below.unknown (dated.controlled.named (.inr ⟨_, _, executing⟩))

end Submissions

/-- A registry whose forecasting tool takes one argument. -/
def constrained : Host where
  lower := Host.ascii.lower
  registry := McpCapabilityRegistry.empty.registerCapability {
    name := "mcp_arima_forecast"
    inputSchema := some [("properties", .dict [("horizon", .dict [])])]
    riskLevel := .high
    requiresApproval := true
    allowedRoles := ["researcher", "admin"] }

private def approveWith (plan : Dict) : List Command :=
  [.runWorkflow "r" "Diagnose CPI trends", .node 0, .node 0, .node 0,
    .resumeWorkflow [("action", .str "approved"), ("updated_plan", .dict plan)],
    .node 0, .node 0, .node 5]

private def enqueuesPlan (test : Dict → Bool) (transition : ThreadTransition) : Bool :=
  match enqueued constrained transition with
  | some (payload, _) => test payload
  | none => false

private theorem enqueuesPlan_iff {test : Dict → Bool} {transition : ThreadTransition}
    (observed : enqueuesPlan test transition = true) :
    ∃ payload decision, Enqueues constrained transition payload decision ∧
      test payload = true := by
  unfold enqueuesPlan at observed
  split at observed
  · next payload decision enqueues => exact ⟨payload, decision, enqueues, observed⟩
  · cases observed

/-- The approved plan has the argument that the schema names. -/
theorem checksExecutedCall_for_horizon :
    ∃ history thread transition payload decision,
      Run (Thread.step constrained "t") Thread.initial history thread ∧ transition ∈ history ∧
      Enqueues constrained transition payload decision ∧
      ChecksExecutedCall constrained transition := by
  obtain ⟨history, thread, run, regular, observed⟩ :=
    scenario_observed constrained "t"
      (approveWith [("task", .str "mcp_arima_forecast"), ("horizon", .int 12)])
      (fun outcome => outcome.1.any
        (enqueuesPlan fun payload => decide ((planArguments payload).keys = ["horizon"])))
      true (by decide +kernel)
  obtain ⟨transition, member, enqueuing⟩ := List.any_eq_true.mp observed
  obtain ⟨payload, decision, enqueues, only⟩ := enqueuesPlan_iff enqueuing
  refine ⟨history, thread, transition, payload, decision, run, member, enqueues, ?_⟩
  obtain ⟨_, _, _, _, executing, label, admitted, _⟩ := enqueues_iff.mp enqueues
  refine (checksExecutedCall_iff run regular member executing label).mpr ?_
  intro entries schema known plan _ searched
  cases (assess_admitted admitted).symm.trans plan
  simp [of_decide_eq_true only, searched]

/-- The approved plan carries an argument that the schema does not know. The
gate, asked about `horizon` alone, lets it through. -/
theorem checksExecutedCall_fails_on_injection :
    ∃ history thread transition,
      Run (Thread.step constrained "t") Thread.initial history thread ∧ transition ∈ history ∧
      ¬ ChecksExecutedCall constrained transition := by
  obtain ⟨history, thread, run, _, observed⟩ :=
    scenario_observed constrained "t"
      (approveWith [("task", .str "mcp_arima_forecast"), ("horizon", .int 12),
        ("shell_injection", .str "rm -rf /")])
      (fun outcome => outcome.1.any
        (enqueuesPlan fun payload => planDenied constrained.registry (.dict payload)))
      true (by decide +kernel)
  obtain ⟨transition, member, enqueuing⟩ := List.any_eq_true.mp observed
  obtain ⟨payload, decision, enqueues, refused⟩ := enqueuesPlan_iff enqueuing
  refine ⟨history, thread, transition, run, member, ?_⟩
  intro checks
  cases (checks.enqueued payload decision enqueues).symm.trans refused

end DurableAgent.Graph
