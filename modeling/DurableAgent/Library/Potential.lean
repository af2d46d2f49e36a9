import DurableAgent.Library.OrderedDict
import DurableAgent.Library.TransitionSystem
import Mathlib.Algebra.GroupWithZero.Nat
import Mathlib.Data.List.Nodup

/-!
# Potentials

What a run costs is paid from what its transitions are charged and from a potential of the
state. A measure that every transition lowers brings the system to a stop.
-/

set_option autoImplicit false

namespace DurableAgent.Library

variable {State Label : Type} {step : State → Label → Option State} {start final : State}
  {history : List (Transition State Label)}

/-- A sum of amounts of which one has grown. -/
theorem sum_map_le_of_one {Key : Type} {keys : List Key} (distinct : keys.Nodup) (key : Key)
    (before after : Key → Nat) (growth : Nat) (grown : after key ≤ before key + growth)
    (others : ∀ other, other ≠ key → after other = before other) :
    (keys.map after).sum ≤ (keys.map before).sum + growth := by
  induction keys with
  | nil => simp
  | cons first rest ih =>
      obtain ⟨fresh, separate⟩ := List.nodup_cons.mp distinct
      simp only [List.map_cons, List.sum_cons]
      by_cases same : first = key
      · subst same
        have untouched : rest.map after = rest.map before := by
          refine List.map_congr_left fun other member => others other ?_
          rintro rfl
          exact fresh member
        rw [untouched]
        omega
      · have smaller := ih separate
        rw [others first same]
        omega

/-- A sum of amounts of which one has shrunk. -/
theorem sum_map_add_le_of_one {Key : Type} {keys : List Key} {key : Key} (member : key ∈ keys)
    (distinct : keys.Nodup) (before after : Key → Nat) (cost : Nat)
    (less : after key + cost ≤ before key)
    (others : ∀ other, other ≠ key → after other = before other) :
    (keys.map after).sum + cost ≤ (keys.map before).sum := by
  induction keys with
  | nil => cases member
  | cons first rest ih =>
      obtain ⟨fresh, separate⟩ := List.nodup_cons.mp distinct
      simp only [List.map_cons, List.sum_cons]
      rcases List.mem_cons.mp member with same | later
      · subst same
        have untouched : rest.map after = rest.map before := by
          refine List.map_congr_left fun other listed => others other ?_
          rintro rfl
          exact fresh listed
        rw [untouched]
        omega
      · have smaller := ih later separate
        have differs : first ≠ key := by
          rintro rfl
          exact fresh later
        rw [others first differs]
        omega

namespace OrderedDict

variable {Key Value : Type} [DecidableEq Key]

/-- The amounts of all values together. -/
def weight (amount : Value → Nat) (dict : OrderedDict Key Value) : Nat :=
  (dict.keys.map fun key => ((dict.get? key).map amount).getD 0).sum

theorem weight_insert {amount : Value → Nat} {dict : OrderedDict Key Value} {key : Key}
    {old new : Value} {cost : Nat} (held : dict.get? key = some old)
    (less : amount new + cost ≤ amount old) :
    (dict.insert key new).weight amount + cost ≤ dict.weight amount := by
  have known : key ∈ dict.keys := get?_isSome_iff.mp (by simp [held])
  rw [weight, keys_insert, if_pos known]
  refine sum_map_add_le_of_one known dict.keys_nodup _ _ cost ?_ ?_
  · simpa [held] using less
  · intro other differs
    rw [get?_insert_of_ne _ differs]

end OrderedDict

/-- The potential method for runs. -/
theorem Run.amortized (potential : State → Nat) (cost charge : Transition State Label → Nat)
    (paid : ∀ history state label next, Run step start history state →
      step state label = some next →
      potential next + cost ⟨state, label, next⟩ ≤ potential state + charge ⟨state, label, next⟩)
    (run : Run step start history final) :
    potential final + (history.map cost).sum ≤ potential start + (history.map charge).sum := by
  induction run with
  | nil => simp
  | snoc previous stepped ih =>
      have last := paid _ _ _ _ previous stepped
      simp only [List.map_append, List.sum_append, List.map_cons, List.map_nil, List.sum_cons,
        List.sum_nil]
      omega

namespace Settles

variable {permitted : State → Label → Prop} {stopped : State → Prop} {state : State}

/-- While the measure falls with every permitted transition and one is always enabled, the
system settles, after no more transitions than the measure counts. -/
theorem of_measure (holds : State → Prop) (measure : State → Nat)
    (kept : ∀ state label next, holds state → ¬ stopped state → permitted state label →
      step state label = some next → holds next ∧ measure next < measure state)
    (enabled : ∀ state, holds state → ¬ stopped state →
      ∃ label next, permitted state label ∧ step state label = some next)
    (base : holds state) (bound : Nat) (within : history.length + measure state ≤ bound) :
    Settles step permitted stopped
      (fun later final => holds final ∧ stopped final ∧ later.length ≤ bound) history state := by
  generalize size : measure state = amount
  induction amount using Nat.strongRecOn generalizing history state with
  | ind amount ih =>
      by_cases halted : stopped state
      · exact .stop halted ⟨base, halted, by omega⟩
      · refine .move halted (enabled state base halted) ?_
        intro label next allowed stepped
        obtain ⟨holding, less⟩ := kept state label next base halted allowed stepped
        refine ih (measure next) (size ▸ less) holding ?_ rfl
        simp only [List.length_append, List.length_singleton]
        omega

end Settles

end DurableAgent.Library
