import OptionResearch.NameClaims
import OptionResearch.PartialEffects
import OptionResearch.PythonValues

/-!
# The roll policy registry

`RollPolicyRegistry` of `strategy_management.py`. A name is looked up as an alias first, and a
definition may be registered again under the version it has. As in the template registry the
definition is stored before its aliases are claimed.
-/

namespace OptionResearch

open NameClaims

/-- A definition; `details` are the fields that the registry only hands back. -/
structure RollPolicyDefinition (D : Type) where
  canonicalIdentifier : String
  aliases : List String
  version : String
  pluginNamespace : Option String
  details : D

structure RollPolicyRegistry (D : Type) where
  policies : InsertionDict String (RollPolicyDefinition D)
  aliases : InsertionDict String String

namespace RollPolicyRegistry

variable {D : Type}

def empty : RollPolicyRegistry D := ⟨.empty, .empty⟩

def managementError (message : String) : Exc := ⟨.other "StrategyManagementError", message⟩

def aliasCollision (name current : String) : Exc :=
  managementError s!"roll policy alias collision '{name}' ({current})"

/-- The loop of `register_policy` over the aliases. -/
def registerAliases (identifier : String) (aliases : List String) :
    Effect (RollPolicyRegistry D) Exc Unit := do
  let registry ← get
  let claimed := claim identifier aliases registry.aliases
  set { registry with aliases := claimed.2 }
  match claimed.1 with
  | some taken =>
    throw (aliasCollision taken ((claimed.2.get? taken).getD taken))
  | none => return ()

def registerPolicy (definition : RollPolicyDefinition D) :
    Effect (RollPolicyRegistry D) Exc Unit := do
  let registry ← get
  let existing := registry.policies.get? definition.canonicalIdentifier
  if existing.any (·.version ≠ definition.version) then
    throw (managementError
      s!"roll policy version collision for '{definition.canonicalIdentifier}'")
  else
    set { registry with
      policies := registry.policies.set definition.canonicalIdentifier definition }
    registerAliases definition.canonicalIdentifier definition.aliases

def registerPluginPolicies (pluginNamespace : String) (policies : List (RollPolicyDefinition D)) :
    Effect (RollPolicyRegistry D) Exc Unit :=
  policies.forM fun definition =>
    if definition.pluginNamespace ≠ some pluginNamespace then
      throw (managementError "plugin namespace mismatch for roll policy registration")
    else registerPolicy definition

/-- What a name stands for: `_aliases.get(name, name)`. -/
def key (registry : RollPolicyRegistry D) (name : String) : String :=
  (registry.aliases.get? name).getD name

def resolve (registry : RollPolicyRegistry D) (name : String) :
    Except Exc (RollPolicyDefinition D) :=
  match registry.policies.get? (registry.key name) with
  | none => .error (managementError s!"unknown roll policy '{name}'")
  | some definition => .ok definition

/-- A call that registers definitions. -/
inductive Call (D : Type) where
  | registerPolicy (definition : RollPolicyDefinition D)
  | registerPluginPolicies (pluginNamespace : String) (policies : List (RollPolicyDefinition D))

def Call.perform : Call D → Effect (RollPolicyRegistry D) Exc Unit
  | registerPolicy definition => RollPolicyRegistry.registerPolicy definition
  | registerPluginPolicies pluginNamespace policies =>
    RollPolicyRegistry.registerPluginPolicies pluginNamespace policies

/-! ### What a registration does -/

variable {registry : RollPolicyRegistry D} {definition : RollPolicyDefinition D}

/-- The registry after the definition got in, with the aliases it could claim. -/
def admitted (registry : RollPolicyRegistry D) (definition : RollPolicyDefinition D) :
    RollPolicyRegistry D where
  policies := registry.policies.set definition.canonicalIdentifier definition
  aliases := (claim definition.canonicalIdentifier definition.aliases registry.aliases).2

/-- A registration that meets another version changes nothing. -/
theorem exec_registerPolicy_of_version
    (h : (registry.policies.get? definition.canonicalIdentifier).any
      (·.version ≠ definition.version) = true) :
    ∃ e, Effect.exec (registerPolicy definition) registry = (.error e, registry) := by
  rw [registerPolicy, Effect.exec_get_bind, if_pos h]
  exact ⟨_, rfl⟩

theorem exec_registerPolicy_of_not_version
    (h : ¬ (registry.policies.get? definition.canonicalIdentifier).any
      (·.version ≠ definition.version) = true) :
    Effect.exec (registerPolicy definition) registry =
      (match (claim definition.canonicalIdentifier definition.aliases registry.aliases).1 with
        | some taken =>
          let current := (registry.admitted definition).aliases.get? taken
          .error (aliasCollision taken (current.getD taken))
        | none => .ok (), registry.admitted definition) := by
  rw [registerPolicy, Effect.exec_get_bind, if_neg h]
  change Effect.exec (match (claim definition.canonicalIdentifier definition.aliases
    registry.aliases).1 with
    | some taken =>
      throw (aliasCollision taken (((registry.admitted definition).aliases.get? taken).getD taken))
    | none => pure ()) (registry.admitted definition) = _
  cases (claim definition.canonicalIdentifier definition.aliases registry.aliases).1 <;> rfl

end RollPolicyRegistry

end OptionResearch
