import OptionResearch.NameClaims
import OptionResearch.PartialEffects
import OptionResearch.PythonValues

/-!
# The strategy template registry

`StrategyTemplateRegistry` of `strategy_library.py`. Templates are found by identifier first and by
alias otherwise. A registration inserts its template before it claims the aliases, and an override
replaces a template without claiming or releasing any.
-/

namespace OptionResearch

open NameClaims

/-- A template; `details` are the fields that the registry only hands back. -/
structure StrategyTemplate (D : Type) where
  canonicalIdentifier : String
  aliases : List String
  details : D

structure StrategyTemplatePluginMetadata where
  pluginName : String
  pluginVersion : String
  apiVersion : String
  pluginNamespace : String
  allowOverrides : Bool := false
  deriving DecidableEq

structure StrategyTemplateRegistry (D : Type) where
  templates : InsertionDict String (StrategyTemplate D)
  aliases : InsertionDict String String
  pluginOrigins : InsertionDict String StrategyTemplatePluginMetadata

namespace StrategyTemplateRegistry

variable {D : Type}

def empty : StrategyTemplateRegistry D := ⟨.empty, .empty, .empty⟩

def libraryError (message : String) : Exc := ⟨.other "StrategyLibraryError", message⟩

def collisionWithoutOverride (identifier : String) : Exc :=
  libraryError s!"plugin template collision without override enabled: {identifier}"

/-- The loop of `register` over the aliases. -/
def registerAliases (identifier : String) (aliases : List String) :
    Effect (StrategyTemplateRegistry D) Exc Unit := do
  let registry ← get
  let claimed := claim identifier aliases registry.aliases
  set { registry with aliases := claimed.2 }
  match claimed.1 with
  | some taken => throw (libraryError s!"template alias collision: {taken}")
  | none => return ()

def register (template : StrategyTemplate D) : Effect (StrategyTemplateRegistry D) Exc Unit := do
  let identifier := template.canonicalIdentifier
  let registry ← get
  if registry.templates.contains identifier then
    throw (libraryError s!"template identifier already registered: {identifier}")
  else
    set { registry with templates := registry.templates.set identifier template }
    registerAliases identifier template.aliases

/-- One template of `register_plugin_templates`. -/
def registerPluginTemplate (metadata : StrategyTemplatePluginMetadata)
    (template : StrategyTemplate D) : Effect (StrategyTemplateRegistry D) Exc Unit := do
  let identifier := template.canonicalIdentifier
  let registry ← get
  let existing := registry.templates.get? identifier
  if existing.isSome && !metadata.allowOverrides then
    throw (collisionWithoutOverride identifier)
  else
    if existing.isSome && metadata.allowOverrides then
      set { registry with templates := registry.templates.set identifier template }
    else register template
    modify fun registry =>
      { registry with pluginOrigins := registry.pluginOrigins.set identifier metadata }

def registerPluginTemplates (metadata : StrategyTemplatePluginMetadata)
    (templates : List (StrategyTemplate D)) : Effect (StrategyTemplateRegistry D) Exc Unit := do
  if metadata.apiVersion ≠ "8A-v1" then
    throw (libraryError "incompatible plugin API version")
  else templates.forM (registerPluginTemplate metadata)

def resolve (registry : StrategyTemplateRegistry D) (nameOrAlias : String) :
    Except Exc (StrategyTemplate D) :=
  match registry.templates.get? nameOrAlias with
  | some template => .ok template
  | none =>
    match registry.aliases.get? nameOrAlias with
    | none => .error (libraryError s!"unknown strategy template: {nameOrAlias}")
    | some identifier =>
      match registry.templates.get? identifier with
      | some template => .ok template
      | none => .error ⟨.other "KeyError", s!"'{identifier}'"⟩

/-- `plugin_origin`. -/
def pluginOrigin (registry : StrategyTemplateRegistry D) (canonicalIdentifier : String) :
    Option StrategyTemplatePluginMetadata := registry.pluginOrigins.get? canonicalIdentifier

/-- A call that registers templates. -/
inductive Call (D : Type) where
  | register (template : StrategyTemplate D)
  | registerPluginTemplates (metadata : StrategyTemplatePluginMetadata)
      (templates : List (StrategyTemplate D))

def Call.perform : Call D → Effect (StrategyTemplateRegistry D) Exc Unit
  | register template => StrategyTemplateRegistry.register template
  | registerPluginTemplates metadata templates =>
    StrategyTemplateRegistry.registerPluginTemplates metadata templates

/-! ### What a registration does -/

variable {registry : StrategyTemplateRegistry D} {template : StrategyTemplate D}
  {metadata : StrategyTemplatePluginMetadata} {identifier name : String}

/-- The registry after the template got in, with the aliases it could claim. -/
def admitted (registry : StrategyTemplateRegistry D) (template : StrategyTemplate D) :
    StrategyTemplateRegistry D :=
  { registry with
    templates := registry.templates.set template.canonicalIdentifier template
    aliases := (claim template.canonicalIdentifier template.aliases registry.aliases).2 }

/-- The registry after the template took the place of another one. -/
def overridden (registry : StrategyTemplateRegistry D) (template : StrategyTemplate D) :
    StrategyTemplateRegistry D :=
  { registry with templates := registry.templates.set template.canonicalIdentifier template }

def withOrigin (registry : StrategyTemplateRegistry D) (metadata : StrategyTemplatePluginMetadata)
    (identifier : String) : StrategyTemplateRegistry D :=
  { registry with pluginOrigins := registry.pluginOrigins.set identifier metadata }

theorem exec_register_of_some {old : StrategyTemplate D}
    (h : registry.templates.get? template.canonicalIdentifier = some old) :
    Effect.exec (register template) registry = (.error (libraryError
      s!"template identifier already registered: {template.canonicalIdentifier}"), registry) := by
  rw [register, Effect.exec_get_bind, InsertionDict.contains, h]
  rfl

theorem exec_register_of_none (h : registry.templates.get? template.canonicalIdentifier = none) :
    Effect.exec (register template) registry =
      (match (claim template.canonicalIdentifier template.aliases registry.aliases).1 with
        | some taken => .error (libraryError s!"template alias collision: {taken}")
        | none => .ok (), registry.admitted template) := by
  rw [register, Effect.exec_get_bind, InsertionDict.contains, h]
  change Effect.exec (registerAliases template.canonicalIdentifier template.aliases)
    (registry.overridden template) = _
  rw [registerAliases, Effect.exec_get_bind]
  change Effect.exec (match (claim template.canonicalIdentifier template.aliases
    registry.aliases).1 with
    | some taken => throw (libraryError s!"template alias collision: {taken}")
    | none => pure ()) (registry.admitted template) = _
  cases (claim template.canonicalIdentifier template.aliases registry.aliases).1 <;> rfl

/-- The cases of one template of a plugin. -/
theorem exec_registerPluginTemplate_of_some {old : StrategyTemplate D}
    (h : registry.templates.get? template.canonicalIdentifier = some old) :
    Effect.exec (registerPluginTemplate metadata template) registry =
      if metadata.allowOverrides then
        (.ok (), (registry.overridden template).withOrigin metadata template.canonicalIdentifier)
      else (.error (collisionWithoutOverride template.canonicalIdentifier), registry) := by
  rw [registerPluginTemplate, Effect.exec_get_bind, h]
  cases metadata.allowOverrides <;> rfl

theorem exec_registerPluginTemplate_of_none
    (h : registry.templates.get? template.canonicalIdentifier = none) :
    Effect.exec (registerPluginTemplate metadata template) registry =
      match (claim template.canonicalIdentifier template.aliases registry.aliases).1 with
      | some taken =>
        (.error (libraryError s!"template alias collision: {taken}"), registry.admitted template)
      | none => (.ok (),
        (registry.admitted template).withOrigin metadata template.canonicalIdentifier) := by
  rw [registerPluginTemplate, Effect.exec_get_bind, h]
  change Effect.exec (register template >>= _) registry = _
  rw [Effect.exec_bind, exec_register_of_none h]
  cases (claim template.canonicalIdentifier template.aliases registry.aliases).1 <;> rfl

end StrategyTemplateRegistry

end OptionResearch
