import OptionResearch.RollPolicyRegistry
import OptionResearch.StrategyTemplateRegistry

/-!
# Registrations that raise

A registration that raises at its own checks leaves the registry alone. One that raises at an alias
has already stored what it registers, and the identifier then resolves to it. What a call that
raises does to the names is the same as nothing exactly where the call never gets to its aliases, or
where nobody can see that it did.
-/

namespace OptionResearch

open NameClaims

/-! ### Templates -/

namespace StrategyTemplateRegistry

variable {D : Type} {registry later : StrategyTemplateRegistry D} {template : StrategyTemplate D}
  {metadata : StrategyTemplatePluginMetadata} {templates : List (StrategyTemplate D)}

/-- Every name resolves as before. -/
def SameNames (registry later : StrategyTemplateRegistry D) : Prop :=
  ∀ name, later.resolve name = registry.resolve name

/-- The call raises before it stores a template, if it raises. -/
def Call.ChecksFirst (registry : StrategyTemplateRegistry D) : Call D → Prop
  | .register template => registry.templates.contains template.canonicalIdentifier = true
  | .registerPluginTemplates metadata templates =>
    metadata.apiVersion ≠ "8A-v1" ∨ metadata.allowOverrides = false ∧
      ∃ template ∈ templates.head?, registry.templates.contains template.canonicalIdentifier = true

/-- Every template is stored under its own identifier. -/
def Keyed (registry : StrategyTemplateRegistry D) : Prop :=
  ∀ identifier, ∀ template ∈ registry.templates.get? identifier,
    template.canonicalIdentifier = identifier

/-- Templates are added or replaced under their own identifiers. -/
def Grows (registry later : StrategyTemplateRegistry D) : Prop :=
  (registry.Keyed → later.Keyed) ∧
    ∀ identifier, later.templates.get? identifier = none → registry.templates.get? identifier = none

theorem Grows.refl (registry : StrategyTemplateRegistry D) : Grows registry registry :=
  ⟨id, fun _ => id⟩

theorem Grows.trans {last : StrategyTemplateRegistry D} (h : Grows registry later)
    (h' : Grows later last) : Grows registry last :=
  ⟨h'.1 ∘ h.1, fun identifier hnone => h.2 identifier (h'.2 identifier hnone)⟩

theorem grows_of_set (h : later.templates =
    registry.templates.set template.canonicalIdentifier template) : Grows registry later := by
  constructor
  · intro hkeyed identifier other hother
    rw [h, InsertionDict.get?_set] at hother
    split_ifs at hother with heq
    · cases hother
      exact heq.symm
    · exact hkeyed identifier other hother
  · intro identifier hnone
    rw [h, InsertionDict.get?_set] at hnone
    split_ifs at hnone
    exact hnone

theorem grows_register (template : StrategyTemplate D) :
    Effect.Keeps Grows (register template) := by
  intro registry
  rcases hexisting : registry.templates.get? template.canonicalIdentifier with _ | old
  · rw [exec_register_of_none hexisting]
    exact grows_of_set rfl
  · rw [exec_register_of_some hexisting]
    exact .refl registry

theorem grows_registerPluginTemplate (metadata : StrategyTemplatePluginMetadata)
    (template : StrategyTemplate D) :
    Effect.Keeps Grows (registerPluginTemplate metadata template) := by
  intro registry
  rcases hexisting : registry.templates.get? template.canonicalIdentifier with _ | old
  · rw [exec_registerPluginTemplate_of_none hexisting]
    cases (claim template.canonicalIdentifier template.aliases registry.aliases).1 with
    | none => exact grows_of_set rfl
    | some taken => exact grows_of_set rfl
  · rw [exec_registerPluginTemplate_of_some hexisting]
    split_ifs
    · exact grows_of_set rfl
    · exact .refl registry

theorem grows_loop (metadata : StrategyTemplatePluginMetadata)
    (templates : List (StrategyTemplate D)) :
    Effect.Keeps Grows (forM templates (registerPluginTemplate metadata)) := by
  induction templates with
  | nil => exact Grows.refl
  | cons template rest ih =>
      rw [List.forM_cons]
      exact (grows_registerPluginTemplate metadata template).bind (fun _ _ _ => .trans) fun _ => ih

theorem grows_perform (call : Call D) : Effect.Keeps Grows call.perform := by
  cases call with
  | register template => exact grows_register template
  | registerPluginTemplates metadata templates =>
      intro registry
      rw [Call.perform, registerPluginTemplates]
      split_ifs
      · exact .refl registry
      · exact grows_loop metadata templates registry

/-- A template that is new under its identifier changes what that resolves to. -/
theorem not_sameNames (hkeyed : registry.Keyed) (hkeyed' : later.Keyed) {identifier : String}
    (hnone : registry.templates.get? identifier = none)
    (hsome : later.templates.get? identifier ≠ none) : ¬ SameNames registry later := by
  intro hsame
  obtain ⟨template, htemplate⟩ := Option.ne_none_iff_exists'.mp hsome
  have hresolved := hsame identifier
  rw [resolve, htemplate, resolve, hnone] at hresolved
  dsimp only at hresolved
  rcases halias : registry.aliases.get? identifier with _ | holder
  · rw [halias] at hresolved
    cases hresolved
  · rw [halias] at hresolved
    dsimp only at hresolved
    rcases hheld : registry.templates.get? holder with _ | other
    · rw [hheld] at hresolved
      cases hresolved
    · rw [hheld] at hresolved
      cases hresolved
      have hholder := hkeyed holder _ hheld
      have hidentifier := hkeyed' identifier _ htemplate
      rw [← hholder, hidentifier, hnone] at hheld
      cases hheld

/-- A plugin whose templates raise was refused at its first one, or has left a new template. -/
theorem raised_loop {e : Exc} (h : Effect.exec (forM templates (registerPluginTemplate metadata))
    registry = (.error e, later)) :
    (metadata.allowOverrides = false ∧ (∃ template ∈ templates.head?,
      registry.templates.contains template.canonicalIdentifier = true) ∧ later = registry) ∨
    ∃ identifier, registry.templates.get? identifier = none ∧
      later.templates.get? identifier ≠ none := by
  induction templates generalizing registry with
  | nil => cases h
  | cons template rest ih =>
      rw [List.forM_cons] at h
      rcases hexisting : registry.templates.get? template.canonicalIdentifier with _ | old
      · right
        refine ⟨template.canonicalIdentifier, hexisting, fun hnone => ?_⟩
        have hstored : (Effect.exec (registerPluginTemplate metadata template)
            registry).2.templates.get? template.canonicalIdentifier = some template := by
          rw [exec_registerPluginTemplate_of_none hexisting]
          cases (claim template.canonicalIdentifier template.aliases registry.aliases).1 <;>
            exact InsertionDict.get?_set.trans (if_pos rfl)
        rcases Effect.exec_bind_cases h with ⟨_, hraised, _⟩ | ⟨_, between, hreturned, hrest⟩
        · rw [hraised] at hstored
          exact nomatch hstored.symm.trans hnone
        · rw [hreturned] at hstored
          have hgrows := (grows_loop metadata rest between).2 template.canonicalIdentifier
          rw [hrest] at hgrows
          exact nomatch hstored.symm.trans (hgrows hnone)
      · have hstep : Effect.exec (registerPluginTemplate metadata template) registry = _ :=
          exec_registerPluginTemplate_of_some hexisting
        split_ifs at hstep with hallowed
        · rw [Effect.exec_bind_of_ok hstep] at h
          rcases ih h with ⟨hrefused, _, _⟩ | ⟨identifier, hnone, hsome⟩
          · exact nomatch hrefused.symm.trans hallowed
          · right
            exact ⟨identifier, (grows_of_set rfl).2 identifier hnone, hsome⟩
        · left
          rw [Effect.exec_bind, hstep] at h
          cases h
          refine ⟨by simpa using hallowed, ⟨template, rfl, ?_⟩, rfl⟩
          rw [InsertionDict.contains, hexisting]
          rfl

/-- Without overrides a plugin whose first template is registered is refused at once. -/
theorem refused_loop (h : metadata.allowOverrides = false) (hhead : template ∈ templates.head?)
    (hcontains : registry.templates.contains template.canonicalIdentifier = true) :
    (Effect.exec (forM templates (registerPluginTemplate metadata)) registry).2 = registry := by
  obtain ⟨rest, rfl⟩ := List.head?_eq_some_iff.mp hhead
  obtain ⟨old, hexisting⟩ := Option.isSome_iff_exists.mp hcontains
  have hstep : Effect.exec (registerPluginTemplate metadata template) registry = _ :=
    exec_registerPluginTemplate_of_some hexisting
  rw [if_neg (by rw [h]; exact Bool.false_ne_true)] at hstep
  rw [List.forM_cons, Effect.exec_bind, hstep]

/-- A raising call leaves the names alone exactly where it raises before it stores a template. -/
theorem sameNames_iff {calls : List (Call D)} {call : Call D} {e : Exc}
    (h : Effect.exec call.perform (Effect.afterCalls Call.perform empty calls) =
      (.error e, later)) :
    SameNames (Effect.afterCalls Call.perform empty calls) later ↔
      call.ChecksFirst (Effect.afterCalls Call.perform empty calls) := by
  have hkeyed : (Effect.afterCalls Call.perform (empty : StrategyTemplateRegistry D) calls).Keyed :=
    (Effect.afterCalls_keeps .refl (fun _ _ _ => .trans) grows_perform).1 fun _ _ h => nomatch h
  generalize Effect.afterCalls Call.perform empty calls = registry at h hkeyed ⊢
  have hkeyed' : later.Keyed := by
    have hgrows := (grows_perform call registry).1 hkeyed
    rwa [h] at hgrows
  cases call with
  | register template =>
      rw [Call.ChecksFirst]
      change Effect.exec (register template) registry = _ at h
      rcases hexisting : registry.templates.get? template.canonicalIdentifier with _ | old
      · rw [exec_register_of_none hexisting] at h
        have hlater : registry.admitted template = later := congrArg Prod.snd h
        rw [InsertionDict.contains, hexisting]
        refine iff_of_false (not_sameNames hkeyed hkeyed' hexisting ?_) Bool.false_ne_true
        rw [← hlater]
        have hstored : (registry.admitted template).templates.get? template.canonicalIdentifier =
          some template := InsertionDict.get?_set.trans (if_pos rfl)
        rw [hstored]
        exact Option.some_ne_none _
      · rw [exec_register_of_some hexisting] at h
        cases h
        rw [InsertionDict.contains, hexisting]
        exact iff_of_true (fun _ => rfl) rfl
  | registerPluginTemplates metadata templates =>
      rw [Call.ChecksFirst]
      rw [Call.perform, registerPluginTemplates] at h
      split_ifs at h with hversion
      · cases h
        exact iff_of_true (fun _ => rfl) (.inl hversion)
      · rcases raised_loop h with ⟨hrefused, hfirst, rfl⟩ | ⟨identifier, hnone, hsome⟩
        · exact iff_of_true (fun _ => rfl) (.inr ⟨hrefused, hfirst⟩)
        · refine iff_of_false (not_sameNames hkeyed hkeyed' hnone hsome) ?_
          rintro (hmismatch | ⟨hrefused, template, hhead, hcontains⟩)
          · exact hversion hmismatch
          · have hlater : later = registry :=
              (congrArg Prod.snd h).symm.trans (refused_loop hrefused hhead hcontains)
            exact hsome (hlater ▸ hnone)

end StrategyTemplateRegistry

/-! ### Roll policies -/

namespace RollPolicyRegistry

variable {D : Type} {registry later : RollPolicyRegistry D} {definition : RollPolicyDefinition D}
  {name : String}

/-- Every name resolves as before. -/
def SameNames (registry later : RollPolicyRegistry D) : Prop :=
  ∀ name, later.resolve name = registry.resolve name

/-- Nobody can see that the definition was stored: another version or the definition itself stands
there already, or no name stands for its identifier and its first alias is another's. -/
def Unseen (registry : RollPolicyRegistry D) (definition : RollPolicyDefinition D) : Prop :=
  (∃ existing ∈ registry.policies.get? definition.canonicalIdentifier,
    existing.version ≠ definition.version ∨ existing = definition) ∨
  (∀ name, registry.key name ≠ definition.canonicalIdentifier) ∧
    ∃ first ∈ definition.aliases.head?,
      ¬ Free definition.canonicalIdentifier registry.aliases first

/-- Every definition is stored under its own identifier, with the aliases it could claim. -/
def AllSettled (registry : RollPolicyRegistry D) : Prop :=
  ∀ identifier, ∀ definition ∈ registry.policies.get? identifier,
    definition.canonicalIdentifier = identifier ∧
      Settled identifier definition.aliases registry.aliases

def KeepsSettled (registry later : RollPolicyRegistry D) : Prop :=
  registry.AllSettled → later.AllSettled

theorem AllSettled.admitted (h : registry.AllSettled) (definition : RollPolicyDefinition D) :
    (registry.admitted definition).AllSettled := by
  intro identifier other hother
  have hpolicies : (if identifier = definition.canonicalIdentifier then some definition
      else registry.policies.get? identifier) = some other :=
    InsertionDict.get?_set.symm.trans hother
  split_ifs at hpolicies with heq
  · cases hpolicies
    exact ⟨heq.symm, heq ▸ settled_claim _ _ _⟩
  · obtain ⟨hkey, hsettled⟩ := h identifier other hpolicies
    exact ⟨hkey, hsettled.extend (extends_claim _ _ _)⟩

theorem keepsSettled_registerPolicy (definition : RollPolicyDefinition D) :
    Effect.Keeps KeepsSettled (registerPolicy definition) := by
  intro registry h
  by_cases hversion : (registry.policies.get? definition.canonicalIdentifier).any
    (·.version ≠ definition.version) = true
  · obtain ⟨e, hexec⟩ := exec_registerPolicy_of_version hversion
    rw [hexec]
    exact h
  · rw [exec_registerPolicy_of_not_version hversion]
    exact h.admitted definition

theorem KeepsSettled.trans {last : RollPolicyRegistry D} (h : KeepsSettled registry later)
    (h' : KeepsSettled later last) : KeepsSettled registry last := h' ∘ h

theorem keepsSettled_perform (call : Call D) : Effect.Keeps KeepsSettled call.perform := by
  cases call with
  | registerPolicy definition => exact keepsSettled_registerPolicy definition
  | registerPluginPolicies pluginNamespace policies =>
      change Effect.Keeps _ (forM policies _)
      induction policies with
      | nil => exact fun _ h => h
      | cons definition rest ih =>
          rw [List.forM_cons]
          refine Effect.Keeps.bind (fun _ _ _ => .trans) ?_ fun _ => ih
          split_ifs
          · exact fun _ h => h
          · exact keepsSettled_registerPolicy definition

theorem resolve_of_key (h : registry.policies.get? (registry.key name) = some definition) :
    registry.resolve name = .ok definition := by rw [resolve, h]

theorem get?_of_resolve (h : registry.resolve name = .ok definition) :
    registry.policies.get? (registry.key name) = some definition := by
  rw [resolve] at h
  rcases hfound : registry.policies.get? (registry.key name) with _ | found
  · rw [hfound] at h
    cases h
  · rw [hfound] at h
    cases h
    rfl

/-- A name that stands for the identifier of the definition does so after it got in. -/
theorem key_admitted (h : registry.key name = definition.canonicalIdentifier) :
    (registry.admitted definition).key name = definition.canonicalIdentifier := by
  rw [key] at h
  change ((claim _ definition.aliases registry.aliases).2.get? name).getD name = _
  rcases hholder : registry.aliases.get? name with _ | holder
  · rw [hholder] at h
    rcases get?_claim definition.canonicalIdentifier definition.aliases registry.aliases name with
      hsame | ⟨_, hclaimed⟩
    · rw [hsame, hholder]
      exact h
    · rw [hclaimed]
      rfl
  · rw [hholder] at h
    rw [extends_claim definition.canonicalIdentifier definition.aliases registry.aliases name holder
      hholder]
    exact h

/-- What stands under the identifier is the definition, once it got in. -/
theorem resolve_admitted (h : (registry.admitted definition).key name =
    definition.canonicalIdentifier) :
    (registry.admitted definition).resolve name = .ok definition :=
  resolve_of_key (h.symm ▸ InsertionDict.get?_set.trans (if_pos rfl))

theorem sameNames_admitted
    (haliases : ∀ name,
      (registry.admitted definition).aliases.get? name = registry.aliases.get? name)
    (hpolicies : ∀ name, registry.key name ≠ definition.canonicalIdentifier ∨
      registry.policies.get? definition.canonicalIdentifier = some definition) :
    SameNames registry (registry.admitted definition) := by
  intro name
  have hkey : (registry.admitted definition).key name = registry.key name := by
    rw [key, haliases, key]
  have hstored : (registry.admitted definition).policies.get? (registry.key name) =
      registry.policies.get? (registry.key name) := by
    refine InsertionDict.get?_set.trans ?_
    split_ifs with heq
    · rw [heq]
      exact ((hpolicies name).resolve_left (not_not_intro heq)).symm
    · rfl
  rw [resolve, hkey, hstored, resolve]

/-- A raising registration leaves the names alone exactly where nobody sees what it stored. -/
theorem sameNames_iff {calls : List (Call D)} {e : Exc}
    (h : Effect.exec (registerPolicy definition) (Effect.afterCalls Call.perform empty calls) =
      (.error e, later)) :
    SameNames (Effect.afterCalls Call.perform empty calls) later ↔
      Unseen (Effect.afterCalls Call.perform empty calls) definition := by
  have hsettled :
      (Effect.afterCalls Call.perform (empty : RollPolicyRegistry D) calls).AllSettled :=
    Effect.afterCalls_keeps (R := KeepsSettled) (fun _ h => h) (fun _ _ _ => .trans)
      keepsSettled_perform fun _ _ h => nomatch h
  generalize Effect.afterCalls Call.perform empty calls = registry at h hsettled ⊢
  by_cases hversion : (registry.policies.get? definition.canonicalIdentifier).any
    (·.version ≠ definition.version) = true
  · obtain ⟨e, hexec⟩ := exec_registerPolicy_of_version hversion
    rw [hexec] at h
    cases h
    obtain ⟨existing, hexisting, hdiffers⟩ := (Option.any_eq_true _ _).mp hversion
    exact iff_of_true (fun _ => rfl) (.inl ⟨existing, hexisting, .inl (by simpa using hdiffers)⟩)
  · rw [exec_registerPolicy_of_not_version hversion] at h
    have hlater : registry.admitted definition = later := congrArg Prod.snd h
    subst hlater
    constructor
    · intro hsame
      by_cases hstored : registry.policies.get? definition.canonicalIdentifier = some definition
      · exact .inl ⟨definition, hstored, .inr rfl⟩
      · have hkey : ∀ name, registry.key name ≠ definition.canonicalIdentifier := by
          intro name heq
          have hfound := get?_of_resolve
            ((hsame name).symm.trans (resolve_admitted (key_admitted heq)))
          exact hstored (heq ▸ hfound)
        refine .inr ⟨hkey, ?_⟩
        rcases haliases : definition.aliases with _ | ⟨first, rest⟩
        · rw [haliases] at h
          cases congrArg Prod.fst h
        · refine ⟨first, rfl, fun hfree => ?_⟩
          have hclaimed : (registry.admitted definition).key first =
              definition.canonicalIdentifier := by
            change ((claim _ definition.aliases registry.aliases).2.get? first).getD first = _
            rw [haliases, claim_cons_of_free hfree, extends_claim _ rest _ first
              definition.canonicalIdentifier (InsertionDict.get?_set.trans (if_pos rfl))]
            rfl
          have hfound := get?_of_resolve ((hsame first).symm.trans (resolve_admitted hclaimed))
          exact hkey first (hsettled _ definition hfound).1.symm
    · rintro (⟨existing, hexisting, hdiffers | rfl⟩ | ⟨hkey, first, hfirst, htaken⟩)
      · refine absurd ?_ hversion
        exact (Option.any_eq_true _ _).mpr ⟨existing, hexisting, by simpa using hdiffers⟩
      · exact sameNames_admitted (hsettled _ _ hexisting).2.get?_claim fun _ => .inr hexisting
      · obtain ⟨rest, haliases⟩ := List.head?_eq_some_iff.mp hfirst
        refine sameNames_admitted (fun name => ?_) fun name => .inl (hkey name)
        rw [admitted, haliases, claim_cons_of_not_free htaken]

end RollPolicyRegistry

/-- From every registry that registrations lead to, returning or raising, a registration that raises
leaves what every name resolves to exactly where it raises at its own checks or nobody sees what it
stored. -/
theorem registration_atomic_iff {D D' : Type} :
    (∀ (calls : List (StrategyTemplateRegistry.Call D)) (call : StrategyTemplateRegistry.Call D) e
      later, Effect.exec call.perform
        (Effect.afterCalls StrategyTemplateRegistry.Call.perform .empty calls) = (.error e, later) →
      (StrategyTemplateRegistry.SameNames
          (Effect.afterCalls StrategyTemplateRegistry.Call.perform .empty calls) later ↔
        call.ChecksFirst
          (Effect.afterCalls StrategyTemplateRegistry.Call.perform .empty calls))) ∧
    ∀ (calls : List (RollPolicyRegistry.Call D')) (definition : RollPolicyDefinition D') e later,
      Effect.exec (RollPolicyRegistry.registerPolicy definition)
        (Effect.afterCalls RollPolicyRegistry.Call.perform .empty calls) = (.error e, later) →
      (RollPolicyRegistry.SameNames
          (Effect.afterCalls RollPolicyRegistry.Call.perform .empty calls) later ↔
        RollPolicyRegistry.Unseen
          (Effect.afterCalls RollPolicyRegistry.Call.perform .empty calls) definition) :=
  ⟨fun _ _ _ _ => StrategyTemplateRegistry.sameNames_iff,
    fun _ _ _ _ => RollPolicyRegistry.sameNames_iff⟩

/-- A condor and a butterfly that claim one alias. -/
def condorTemplate : StrategyTemplate Unit := ⟨"iron_condor", ["ic"], ()⟩

def butterflyTemplate : StrategyTemplate Unit := ⟨"iron_butterfly", ["ic"], ()⟩

/-- Two policies that claim one alias. -/
def rollOut : RollPolicyDefinition Unit := ⟨"roll_out", ["extend"], "1.0", none, ()⟩

def rollUp : RollPolicyDefinition Unit := ⟨"roll_up", ["extend"], "1.0", none, ()⟩

/-- The butterfly is refused for its alias, and resolves from then on. -/
theorem not_atomic_butterfly :
    ¬ ∀ (calls : List (StrategyTemplateRegistry.Call Unit))
      (call : StrategyTemplateRegistry.Call Unit) e later, Effect.exec call.perform
        (Effect.afterCalls StrategyTemplateRegistry.Call.perform .empty calls) = (.error e, later) →
      StrategyTemplateRegistry.SameNames
        (Effect.afterCalls StrategyTemplateRegistry.Call.perform .empty calls) later := by
  intro h
  have hsame := h [.register condorTemplate] (.register butterflyTemplate) _ _ rfl "iron_butterfly"
  exact nomatch hsame

theorem registration_atomic_iff_twice :
    StrategyTemplateRegistry.SameNames
        (Effect.afterCalls StrategyTemplateRegistry.Call.perform .empty [.register condorTemplate])
        (Effect.afterCalls StrategyTemplateRegistry.Call.perform .empty
          [.register condorTemplate, .register condorTemplate]) ∧
      ¬ RollPolicyRegistry.SameNames
        (Effect.afterCalls RollPolicyRegistry.Call.perform .empty [.registerPolicy rollOut])
        (Effect.afterCalls RollPolicyRegistry.Call.perform .empty
          [.registerPolicy rollOut, .registerPolicy rollUp]) := by
  constructor
  · exact ((@registration_atomic_iff Unit Unit).1 [.register condorTemplate]
      (.register condorTemplate) _ _ rfl).mpr rfl
  · intro hsame
    have hunseen := ((@registration_atomic_iff Unit Unit).2 [.registerPolicy rollOut] rollUp _ _
      rfl).mp hsame
    rcases hunseen with ⟨existing, hexisting, _⟩ | ⟨hkey, _⟩
    · exact nomatch hexisting
    · exact hkey "roll_up" rfl

end OptionResearch
