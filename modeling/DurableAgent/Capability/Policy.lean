import DurableAgent.Library.OrderedDict
import DurableAgent.Python.Value

/-!
# Governed capabilities and the approval policy gate

`mcp_clients/models.py`, `registry.py` and `policy.py`.
-/

set_option autoImplicit false

namespace DurableAgent.Capability

open Library Python

inductive RiskLevel where
  | low
  | medium
  | high
  deriving DecidableEq, Repr

structure RegisteredCapability where
  name : String
  inputSchema : Option Dict := none
  riskLevel : RiskLevel
  requiresApproval : Bool
  allowedRoles : List String

structure McpCapabilityRegistry where
  capabilities : OrderedDict String RegisteredCapability

namespace McpCapabilityRegistry

def empty : McpCapabilityRegistry := ⟨.empty⟩

def registerCapability (registry : McpCapabilityRegistry) (capability : RegisteredCapability) :
    McpCapabilityRegistry :=
  ⟨registry.capabilities.insert capability.name capability⟩

/-- The registry is keyed by names; any other hashable value finds nothing. -/
def getCapability (registry : McpCapabilityRegistry) : Key → Option RegisteredCapability
  | .str name => registry.capabilities.get? name
  | _ => none

end McpCapabilityRegistry

inductive Decision where
  | allow
  | deny
  | routeToHitl
  deriving DecidableEq, Repr

/-- The first argument key outside the schema's properties. -/
def firstUnknownKey (properties : Value) : List String → Except Exception (Option String)
  | [] => .ok none
  | key :: rest =>
      match properties.contains key with
      | .error raised => .error raised
      | .ok true => firstUnknownKey properties rest
      | .ok false => .ok (some key)

/-- The schema check of the gate; an absent or empty schema constrains nothing. -/
def schemaViolation (inputSchema : Option Dict) (arguments : Dict) :
    Except Exception (Option String) :=
  match inputSchema with
  | none => .ok none
  | some [] => .ok none
  | some (entry :: rest) =>
      firstUnknownKey ((Dict.get? (entry :: rest) "properties").getD (.dict [])) arguments.keys

/-- `McpApprovalPolicyGate.evaluate_tool_call`. -/
def evaluateToolCall (registry : McpCapabilityRegistry) (toolName : Key) (arguments : Dict)
    (currentUserRole : String) : Except Exception (Decision × String) :=
  match registry.getCapability toolName with
  | none =>
      .ok (.deny, "Security Violation: Capability '" ++ toolName.format ++
        "' is not registered in the host.")
  | some capability =>
      if currentUserRole ∉ capability.allowedRoles then
        .ok (.deny, "Access Denied: Role '" ++ currentUserRole ++
          "' has insufficient privileges for '" ++ toolName.format ++ "'.")
      else
        match schemaViolation capability.inputSchema arguments with
        | .error raised => .error raised
        | .ok (some key) =>
            .ok (.deny, "Schema Error: Malicious or invalid argument key '" ++ key ++
              "' detected.")
        | .ok none =>
            if capability.riskLevel = .high ∨ capability.requiresApproval then
              .ok (.routeToHitl, "HITL Guard Engaged: '" ++ toolName.format ++
                "' exhibits high-risk status. Control routed to human approval lock.")
            else
              .ok (.allow, "Verification passed.")

/-- Whatever the gate does not deny is registered, under a string name. -/
theorem evaluateToolCall_admits {registry : McpCapabilityRegistry} {toolName : Key}
    {arguments : Dict} {currentUserRole : String} {decision : Decision} {message : String}
    (evaluated : evaluateToolCall registry toolName arguments currentUserRole =
      .ok (decision, message))
    (admitted : decision ≠ .deny) :
    ∃ name capability, toolName = .str name ∧ registry.capabilities.get? name = some capability ∧
      currentUserRole ∈ capability.allowedRoles := by
  unfold evaluateToolCall at evaluated
  cases found : registry.getCapability toolName with
  | none =>
      simp only [found, Except.ok.injEq, Prod.mk.injEq] at evaluated
      exact absurd evaluated.1.symm admitted
  | some capability =>
      simp only [found] at evaluated
      split at evaluated
      · simp only [Except.ok.injEq, Prod.mk.injEq] at evaluated
        exact absurd evaluated.1.symm admitted
      · next privileged =>
          cases toolName with
          | str name => exact ⟨name, capability, rfl, found, not_not.mp privileged⟩
          | _ => simp [McpCapabilityRegistry.getCapability] at found

/-- What a schema says of argument keys. -/
def schemaProperties (schema : Dict) : Value :=
  (Dict.get? schema "properties").getD (.dict [])

/-- Over a container the scan finds a key outside it, or every key inside. -/
theorem firstUnknownKey_cases {properties : Value}
    (container : ∀ key, ∃ found, properties.contains key = .ok found) (keys : List String) :
    (firstUnknownKey properties keys = .ok none ∧
      ∀ key ∈ keys, properties.contains key = .ok true) ∨
    ∃ unknown ∈ keys, firstUnknownKey properties keys = .ok (some unknown) ∧
      properties.contains unknown = .ok false := by
  induction keys with
  | nil => exact .inl ⟨rfl, by simp⟩
  | cons key rest ih =>
      obtain ⟨found, contained⟩ := container key
      cases found with
      | false => exact .inr ⟨key, by simp, by simp [firstUnknownKey, contained], contained⟩
      | true =>
          rcases ih with ⟨scanned, known⟩ | ⟨unknown, member, scanned, absent⟩
          · refine .inl ⟨by simp [firstUnknownKey, contained, scanned], ?_⟩
            intro other member
            rcases List.mem_cons.mp member with rfl | later
            · exact contained
            · exact known other later
          · exact .inr ⟨unknown, List.mem_cons_of_mem _ member,
              by simp [firstUnknownKey, contained, scanned], absent⟩

theorem schemaViolation_of_schema {schema : Dict} (constrains : schema ≠ []) (arguments : Dict) :
    schemaViolation (some schema) arguments =
      firstUnknownKey (schemaProperties schema) arguments.keys := by
  cases schema with
  | nil => exact absurd rfl constrains
  | cons entry rest => rfl

def Denies (registry : McpCapabilityRegistry) (toolName : Key) (arguments : Dict)
    (role : String) : Prop :=
  ∃ message, evaluateToolCall registry toolName arguments role = .ok (.deny, message)

/-- The gate answers, and does not deny the call. -/
def Passes (registry : McpCapabilityRegistry) (toolName : Key) (arguments : Dict)
    (role : String) : Prop :=
  ∃ decision message, evaluateToolCall registry toolName arguments role =
    .ok (decision, message) ∧ decision ≠ .deny

/-- The gate denies a call exactly if it finds no capability for it whose roles
and schema let it pass. -/
theorem denies_iff {registry : McpCapabilityRegistry} {toolName : Key} {arguments : Dict}
    {role : String} :
    Denies registry toolName arguments role ↔
      ∀ capability, registry.getCapability toolName = some capability →
        role ∈ capability.allowedRoles →
        ∃ key, schemaViolation capability.inputSchema arguments = .ok (some key) := by
  unfold Denies evaluateToolCall
  cases found : registry.getCapability toolName with
  | none => simp
  | some capability =>
      by_cases privileged : role ∈ capability.allowedRoles
      · cases violation : schemaViolation capability.inputSchema arguments with
        | error raised => simp [privileged, violation]
        | ok key =>
            cases key with
            | some key => simp [privileged, violation]
            | none =>
                by_cases risky : capability.riskLevel = .high ∨ capability.requiresApproval
                · simp [privileged, violation, risky]
                · simp [privileged, violation, risky]
      · simp [privileged]

theorem Passes.cases {registry : McpCapabilityRegistry} {toolName : Key} {arguments : Dict}
    {role : String} (passes : Passes registry toolName arguments role) :
    ∃ capability, registry.getCapability toolName = some capability ∧
      role ∈ capability.allowedRoles ∧
      schemaViolation capability.inputSchema arguments = .ok none := by
  obtain ⟨decision, message, answer, admitted⟩ := passes
  unfold evaluateToolCall at answer
  cases found : registry.getCapability toolName with
  | none =>
      simp only [found, Except.ok.injEq, Prod.mk.injEq] at answer
      exact absurd answer.1.symm admitted
  | some capability =>
      simp only [found] at answer
      split at answer
      · simp only [Except.ok.injEq, Prod.mk.injEq] at answer
        exact absurd answer.1.symm admitted
      · next privileged =>
          split at answer
          · cases answer
          · simp only [Except.ok.injEq, Prod.mk.injEq] at answer
            exact absurd answer.1.symm admitted
          · next violation => exact ⟨capability, rfl, not_not.mp privileged, violation⟩

theorem not_denies_of_passes {registry : McpCapabilityRegistry} {toolName : Key}
    {arguments : Dict} {role : String} (passes : Passes registry toolName arguments role) :
    ¬ Denies registry toolName arguments role := by
  intro ⟨message, denied⟩
  obtain ⟨decision, other, answer, admitted⟩ := passes
  rw [denied] at answer
  cases answer
  exact admitted rfl

theorem passes_of_schema {registry : McpCapabilityRegistry} {toolName : Key} {arguments : Dict}
    {role : String} {capability : RegisteredCapability}
    (found : registry.getCapability toolName = some capability)
    (privileged : role ∈ capability.allowedRoles)
    (conforms : schemaViolation capability.inputSchema arguments = .ok none) :
    Passes registry toolName arguments role := by
  unfold Passes evaluateToolCall
  by_cases risky : capability.riskLevel = .high ∨ capability.requiresApproval
  · simp [found, privileged, conforms, risky]
  · simp [found, privileged, conforms, risky]

/-- The registry of `graph/nodes.py`: one high-risk forecasting tool. -/
def capabilityRegistry : McpCapabilityRegistry :=
  McpCapabilityRegistry.empty.registerCapability {
    name := "mcp_arima_forecast"
    riskLevel := .high
    requiresApproval := true
    allowedRoles := ["researcher", "admin"] }

end DurableAgent.Capability
