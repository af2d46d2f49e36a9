import Mathlib.Data.List.Basic

/-!
# Skills

`skills/models.py`.
-/

set_option autoImplicit false

namespace DurableAgent.Skills

structure SkillMetadata where
  name : String
  description : String
  rootPath : String
  allowedTools : List String
  deriving DecidableEq, Repr

structure ActivatedSkill where
  name : String
  metadata : SkillMetadata
  fullInstructions : String
  deriving DecidableEq, Repr

end DurableAgent.Skills
