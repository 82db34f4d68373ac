import OptionResearch.StrategyTemplateRegistry

/-!
# What a registry of templates resolves

The registry keeps identifiers and aliases apart only where its callers do: no identifier may be the
alias of another template, and an override must keep the aliases as they are. In a run that does so
every template is found under its identifier and under each of its aliases.
-/

namespace OptionResearch

open NameClaims

namespace StrategyTemplateRegistry

variable {D : Type}

/-- One template of a call, with the metadata of the plugin that brings it. -/
structure Registration (D : Type) where
  template : StrategyTemplate D
  metadata : Option StrategyTemplatePluginMetadata

def Registration.ofPlugin (metadata : StrategyTemplatePluginMetadata)
    (template : StrategyTemplate D) : Registration D := ⟨template, some metadata⟩

def Registration.perform (registration : Registration D) :
    Effect (StrategyTemplateRegistry D) Exc Unit :=
  match registration.metadata with
  | none => register registration.template
  | some metadata => registerPluginTemplate metadata registration.template

/-- The templates that a call registers, if it returns. -/
def Call.registrations : Call D → List (Registration D)
  | .register template => [⟨template, none⟩]
  | .registerPluginTemplates metadata templates => templates.map (.ofPlugin metadata)

def Registration.Succeeds (registry : StrategyTemplateRegistry D)
    (registration : Registration D) : Prop :=
  (Effect.exec registration.perform registry).1 = .ok ()

def Call.Succeeds (registry : StrategyTemplateRegistry D) (call : Call D) : Prop :=
  (Effect.exec call.perform registry).1 = .ok ()

/-- The names of the template are its own in the registry: as a new one, its identifier is no alias
and its aliases are no identifiers of others; as a replacement, it has the aliases of the template
that it replaces. -/
def Registration.Admitted (registry : StrategyTemplateRegistry D)
    (registration : Registration D) : Prop :=
  match registry.templates.get? registration.template.canonicalIdentifier with
  | none =>
    registry.aliases.get? registration.template.canonicalIdentifier = none ∧
      ∀ name ∈ registration.template.aliases,
        name = registration.template.canonicalIdentifier ∨ registry.templates.get? name = none
  | some old =>
    (∀ name ∈ old.aliases, name ∈ registration.template.aliases) ∧
      ∀ name ∈ registration.template.aliases,
        name = registration.template.canonicalIdentifier ∨ name ∈ old.aliases

/-- Every template is found under its identifier and its aliases. -/
def ResolvesAll (registry : StrategyTemplateRegistry D) : Prop :=
  ∀ identifier, ∀ template ∈ registry.templates.get? identifier,
    registry.resolve template.canonicalIdentifier = .ok template ∧
      ∀ name ∈ template.aliases, registry.resolve name = .ok template

/-- No template that stood under an identifier left an alias that the present one lacks. -/
def ForgetsReplaced (registrations : List (Registration D))
    (registry : StrategyTemplateRegistry D) : Prop :=
  ∀ before after, registrations = before ++ after → ∀ identifier,
    ∀ old ∈ (Effect.afterCalls Registration.perform empty before).templates.get? identifier,
      ∀ template ∈ registry.templates.get? identifier, ∀ name ∈ old.aliases,
        name ∉ template.aliases → ∃ e, registry.resolve name = .error e

/-- What the names of a registry resolve to after the calls. -/
def ResolutionConsistent (calls : List (Call D)) : Prop :=
  ResolvesAll (Effect.afterCalls Call.perform empty calls) ∧
    ForgetsReplaced (calls.flatMap Call.registrations) (Effect.afterCalls Call.perform empty calls)

/-! ### Registries whose names are apart -/

variable {registry : StrategyTemplateRegistry D} {template : StrategyTemplate D}
  {metadata : StrategyTemplatePluginMetadata} {registration : Registration D}

theorem get?_admitted (identifier : String) :
    (registry.admitted template).templates.get? identifier =
      if identifier = template.canonicalIdentifier then some template
      else registry.templates.get? identifier := InsertionDict.get?_set

theorem get?_overridden (identifier : String) :
    (registry.overridden template).templates.get? identifier =
      if identifier = template.canonicalIdentifier then some template
      else registry.templates.get? identifier := InsertionDict.get?_set

/-- Identifiers and aliases of a registry do not get in each other's way. -/
structure Apart (registry : StrategyTemplateRegistry D) : Prop where
  keyed : ∀ identifier, ∀ template ∈ registry.templates.get? identifier,
    template.canonicalIdentifier = identifier
  declared : ∀ name, ∀ identifier ∈ registry.aliases.get? name,
    ∃ template ∈ registry.templates.get? identifier, name ∈ template.aliases
  covered : ∀ identifier, ∀ template ∈ registry.templates.get? identifier,
    ∀ name ∈ template.aliases, name = identifier ∨ registry.aliases.get? name = some identifier
  apart : ∀ name, ∀ identifier ∈ registry.aliases.get? name,
    name = identifier ∨ registry.templates.get? name = none

theorem apart_empty : Apart (empty : StrategyTemplateRegistry D) where
  keyed _ _ h := nomatch h
  declared _ _ h := nomatch h
  covered _ _ h := nomatch h
  apart _ _ h := nomatch h

theorem Apart.of_eq {other : StrategyTemplateRegistry D} (h : registry.Apart)
    (htemplates : other.templates = registry.templates)
    (haliases : other.aliases = registry.aliases) : other.Apart := by
  obtain ⟨templates, aliases, origins⟩ := other
  cases htemplates
  cases haliases
  exact ⟨h.keyed, h.declared, h.covered, h.apart⟩

theorem resolve_identifier {name : String} (h : registry.templates.get? name = some template) :
    registry.resolve name = .ok template := by rw [resolve, h]

theorem resolve_alias {name identifier : String} (hnone : registry.templates.get? name = none)
    (hclaimed : registry.aliases.get? name = some identifier)
    (h : registry.templates.get? identifier = some template) :
    registry.resolve name = .ok template := by
  rw [resolve, hnone]
  dsimp only
  rw [hclaimed]
  dsimp only
  rw [h]

theorem Apart.resolvesAll (h : registry.Apart) : registry.ResolvesAll := by
  intro identifier template htemplate
  have hkey := h.keyed identifier template htemplate
  constructor
  · exact resolve_identifier (hkey.symm ▸ htemplate)
  · intro name hname
    rcases h.covered identifier template htemplate name hname with rfl | hclaimed
    · exact resolve_identifier htemplate
    · rcases h.apart name identifier hclaimed with rfl | hnone
      · exact resolve_identifier htemplate
      · exact resolve_alias hnone hclaimed htemplate

theorem Apart.admitted (h : registry.Apart)
    (hnew : registry.templates.get? template.canonicalIdentifier = none)
    (hclaim : (claim template.canonicalIdentifier template.aliases registry.aliases).1 = none)
    (hidentifier : registry.aliases.get? template.canonicalIdentifier = none)
    (haliases : ∀ name ∈ template.aliases,
      name = template.canonicalIdentifier ∨ registry.templates.get? name = none) :
    (registry.admitted template).Apart := by
  have hclaimed := get?_claim template.canonicalIdentifier template.aliases registry.aliases
  constructor
  · intro identifier other hother
    rw [get?_admitted] at hother
    split_ifs at hother with heq
    · cases hother
      exact heq.symm
    · exact h.keyed identifier other hother
  · intro name identifier hidentifier
    rcases hclaimed name with hsame | ⟨hmem, howner⟩
    · have hold : registry.aliases.get? name = some identifier := hsame.symm.trans hidentifier
      obtain ⟨other, hother, hname⟩ := h.declared name identifier hold
      have hne : identifier ≠ template.canonicalIdentifier := by
        rintro rfl
        exact nomatch hnew.symm.trans hother
      exact ⟨other, by rw [get?_admitted, if_neg hne]; exact hother, hname⟩
    · have heq := Option.some.inj (howner.symm.trans hidentifier)
      subst heq
      exact ⟨template, by rw [get?_admitted, if_pos rfl]; rfl, hmem⟩
  · intro identifier other hother name hname
    rw [get?_admitted] at hother
    split_ifs at hother with heq
    · cases hother
      subst heq
      exact .inr (get?_claim_of_none hclaim hname)
    · rcases h.covered identifier other hother name hname with hsame | hold
      · exact .inl hsame
      · exact .inr (extends_claim _ _ _ name identifier hold)
  · intro name identifier hidentifier'
    rw [get?_admitted]
    rcases hclaimed name with hsame | ⟨hmem, howner⟩
    · have hold : registry.aliases.get? name = some identifier := hsame.symm.trans hidentifier'
      have hne : name ≠ template.canonicalIdentifier := by
        rintro rfl
        exact nomatch hidentifier.symm.trans hold
      rw [if_neg hne]
      exact h.apart name identifier hold
    · have heq := Option.some.inj (howner.symm.trans hidentifier')
      subst heq
      rcases haliases name hmem with hsame | hnone
      · exact .inl hsame
      · by_cases hsame : name = template.canonicalIdentifier
        · exact .inl hsame
        · exact .inr (by rw [if_neg hsame, hnone])

theorem Apart.overridden {old : StrategyTemplate D} (h : registry.Apart)
    (hold : registry.templates.get? template.canonicalIdentifier = some old)
    (hkept : ∀ name ∈ old.aliases, name ∈ template.aliases)
    (haliases : ∀ name ∈ template.aliases,
      name = template.canonicalIdentifier ∨ name ∈ old.aliases) :
    (registry.overridden template).Apart := by
  constructor
  · intro identifier other hother
    rw [get?_overridden] at hother
    split_ifs at hother with heq
    · cases hother
      exact heq.symm
    · exact h.keyed identifier other hother
  · intro name identifier hidentifier
    obtain ⟨other, hother, hname⟩ := h.declared name identifier hidentifier
    rw [get?_overridden]
    by_cases heq : identifier = template.canonicalIdentifier
    · subst heq
      have hsame := Option.some.inj (hold.symm.trans hother)
      subst hsame
      exact ⟨template, by rw [if_pos rfl]; rfl, hkept name hname⟩
    · exact ⟨other, by rw [if_neg heq]; exact hother, hname⟩
  · intro identifier other hother name hname
    rw [get?_overridden] at hother
    split_ifs at hother with heq
    · cases hother
      subst heq
      rcases haliases name hname with hsame | hmem
      · exact .inl hsame
      · exact h.covered _ old hold name hmem
    · exact h.covered identifier other hother name hname
  · intro name identifier hidentifier
    rw [get?_overridden]
    rcases h.apart name identifier hidentifier with hsame | hnone
    · exact .inl hsame
    · right
      have hne : name ≠ template.canonicalIdentifier := by
        rintro rfl
        exact nomatch hold.symm.trans hnone
      rw [if_neg hne, hnone]

/-! ### One registration -/

/-- The template of every identifier has at least the aliases that its predecessor had. -/
def Inherits (registry later : StrategyTemplateRegistry D) : Prop :=
  ∀ identifier, ∀ old ∈ registry.templates.get? identifier,
    ∃ template ∈ later.templates.get? identifier, ∀ name ∈ old.aliases, name ∈ template.aliases

theorem Inherits.refl (registry : StrategyTemplateRegistry D) : Inherits registry registry :=
  fun _ old hold => ⟨old, hold, fun _ hname => hname⟩

theorem Inherits.trans {later last : StrategyTemplateRegistry D} (h : Inherits registry later)
    (h' : Inherits later last) : Inherits registry last := by
  intro identifier old hold
  obtain ⟨template, htemplate, haliases⟩ := h identifier old hold
  obtain ⟨newest, hnewest, hmore⟩ := h' identifier template htemplate
  exact ⟨newest, hnewest, fun name hname => hmore name (haliases name hname)⟩

/-- The registries that a successful registration can leave, up to the origins it records. -/
theorem exec_registration (h : registration.Succeeds registry) :
    ∃ left, (Effect.exec registration.perform registry).2.templates = left.templates ∧
      (Effect.exec registration.perform registry).2.aliases = left.aliases ∧
      ((registry.templates.get? registration.template.canonicalIdentifier = none ∧
        (claim registration.template.canonicalIdentifier registration.template.aliases
          registry.aliases).1 = none ∧ left = registry.admitted registration.template) ∨
      ∃ old, registry.templates.get? registration.template.canonicalIdentifier = some old ∧
        left = registry.overridden registration.template) := by
  obtain ⟨template, metadata⟩ := registration
  rw [Registration.Succeeds] at h
  rcases hexisting : registry.templates.get? template.canonicalIdentifier with _ | old
  · refine ⟨registry.admitted template, ?_⟩
    rcases hclaim : (claim template.canonicalIdentifier template.aliases registry.aliases).1 with
      _ | taken
    · cases metadata with
      | none =>
          change (Effect.exec (register template) registry).2.templates = _ ∧
            (Effect.exec (register template) registry).2.aliases = _ ∧ _
          rw [exec_register_of_none hexisting]
          exact ⟨rfl, rfl, .inl ⟨rfl, rfl, rfl⟩⟩
      | some metadata =>
          change (Effect.exec (registerPluginTemplate metadata template) registry).2.templates = _ ∧
            (Effect.exec (registerPluginTemplate metadata template) registry).2.aliases = _ ∧ _
          rw [exec_registerPluginTemplate_of_none hexisting, hclaim]
          exact ⟨rfl, rfl, .inl ⟨rfl, rfl, rfl⟩⟩
    · cases metadata with
      | none =>
          change (Effect.exec (register template) registry).1 = _ at h
          rw [exec_register_of_none hexisting, hclaim] at h
          cases h
      | some metadata =>
          change (Effect.exec (registerPluginTemplate metadata template) registry).1 = _ at h
          rw [exec_registerPluginTemplate_of_none hexisting, hclaim] at h
          cases h
  · refine ⟨registry.overridden template, ?_⟩
    cases metadata with
    | none =>
        change (Effect.exec (register template) registry).1 = _ at h
        rw [exec_register_of_some hexisting] at h
        cases h
    | some metadata =>
        change (Effect.exec (registerPluginTemplate metadata template) registry).1 = _ at h
        change (Effect.exec (registerPluginTemplate metadata template) registry).2.templates = _ ∧
          (Effect.exec (registerPluginTemplate metadata template) registry).2.aliases = _ ∧ _
        rw [exec_registerPluginTemplate_of_some hexisting] at h ⊢
        split_ifs at h ⊢ with hallowed
        exact ⟨rfl, rfl, .inr ⟨old, rfl, rfl⟩⟩

theorem inherits_admitted
    (h : registry.templates.get? template.canonicalIdentifier = none) :
    Inherits registry (registry.admitted template) := by
  intro identifier old hold
  have hne : identifier ≠ template.canonicalIdentifier := by
    rintro rfl
    exact nomatch h.symm.trans hold
  exact ⟨old, by rw [get?_admitted, if_neg hne]; exact hold, fun _ hname => hname⟩

theorem inherits_overridden {old : StrategyTemplate D}
    (h : registry.templates.get? template.canonicalIdentifier = some old)
    (hkept : ∀ name ∈ old.aliases, name ∈ template.aliases) :
    Inherits registry (registry.overridden template) := by
  intro identifier other hother
  rw [get?_overridden]
  by_cases heq : identifier = template.canonicalIdentifier
  · subst heq
    have hsame := Option.some.inj (h.symm.trans hother)
    subst hsame
    exact ⟨template, by rw [if_pos rfl]; rfl, hkept⟩
  · exact ⟨other, by rw [if_neg heq]; exact hother, fun _ hname => hname⟩

/-- A registration that succeeds and is admitted keeps the names apart. -/
theorem Apart.perform (h : registry.Apart) (hsucceeds : registration.Succeeds registry)
    (hadmitted : registration.Admitted registry) :
    (Effect.exec registration.perform registry).2.Apart ∧
      Inherits registry (Effect.exec registration.perform registry).2 := by
  obtain ⟨left, htemplates, haliases, hleft⟩ := exec_registration hsucceeds
  suffices hgoal : left.Apart ∧ Inherits registry left by
    refine ⟨hgoal.1.of_eq htemplates haliases, ?_⟩
    rw [Inherits, htemplates]
    exact hgoal.2
  rw [Registration.Admitted] at hadmitted
  rcases hleft with ⟨hnew, hclaim, rfl⟩ | ⟨old, hold, rfl⟩
  · rw [hnew] at hadmitted
    exact ⟨h.admitted hnew hclaim hadmitted.1 hadmitted.2, inherits_admitted hnew⟩
  · rw [hold] at hadmitted
    exact ⟨h.overridden hold hadmitted.1 hadmitted.2, inherits_overridden hold hadmitted.1⟩

/-- What the registration leaves under the identifier of its template. -/
def Forgets (registry later : StrategyTemplateRegistry D) (identifier : String) : Prop :=
  ∀ old ∈ registry.templates.get? identifier, ∀ template ∈ later.templates.get? identifier,
    ∀ name ∈ old.aliases, name ∉ template.aliases → ∃ e, later.resolve name = .error e

theorem Apart.admitted_of_resolvesAll (h : registry.Apart)
    (hnew : registry.templates.get? template.canonicalIdentifier = none)
    (hresolves : (registry.admitted template).ResolvesAll) :
    registry.aliases.get? template.canonicalIdentifier = none ∧
      ∀ name ∈ template.aliases,
        name = template.canonicalIdentifier ∨ registry.templates.get? name = none := by
  have hself : (registry.admitted template).templates.get? template.canonicalIdentifier =
      some template := by rw [get?_admitted, if_pos rfl]
  have hother : ∀ identifier, ∀ other ∈ registry.templates.get? identifier,
      other ≠ template ∧ other ∈ (registry.admitted template).templates.get? identifier := by
    intro identifier other hother
    have hne : identifier ≠ template.canonicalIdentifier := by
      rintro rfl
      exact nomatch hnew.symm.trans hother
    refine ⟨?_, by rw [get?_admitted, if_neg hne]; exact hother⟩
    rintro rfl
    exact hne (h.keyed identifier _ hother).symm
  constructor
  · by_contra hclaimed
    obtain ⟨identifier, hidentifier⟩ := Option.ne_none_iff_exists'.mp hclaimed
    obtain ⟨other, hmem, hname⟩ := h.declared _ identifier hidentifier
    obtain ⟨hne, hkept⟩ := hother identifier other hmem
    have hfound := (hresolves identifier other hkept).2 _ hname
    exact hne (Except.ok.inj (hfound.symm.trans (resolve_identifier hself)))
  · intro name hname
    by_contra hcontra
    obtain ⟨hdiffers, htaken⟩ := not_or.mp hcontra
    obtain ⟨other, hmem⟩ := Option.ne_none_iff_exists'.mp htaken
    obtain ⟨hne, hkept⟩ := hother name other hmem
    have hfound := (hresolves _ template hself).2 name hname
    exact hne (Except.ok.inj ((resolve_identifier hkept).symm.trans hfound))

theorem Apart.overridden_of_resolvesAll {old : StrategyTemplate D} (h : registry.Apart)
    (hold : registry.templates.get? template.canonicalIdentifier = some old)
    (hresolves : (registry.overridden template).ResolvesAll)
    (hforgets : Forgets registry (registry.overridden template) template.canonicalIdentifier) :
    (∀ name ∈ old.aliases, name ∈ template.aliases) ∧
      ∀ name ∈ template.aliases, name = template.canonicalIdentifier ∨ name ∈ old.aliases := by
  have hself : (registry.overridden template).templates.get? template.canonicalIdentifier =
      some template := by rw [get?_overridden, if_pos rfl]
  constructor
  · intro name hname
    by_contra hdropped
    obtain ⟨e, hraised⟩ := hforgets old hold template hself name hname hdropped
    rcases h.covered _ old hold name hname with rfl | hclaimed
    · exact nomatch (resolve_identifier hself).symm.trans hraised
    · rcases hfound : (registry.overridden template).templates.get? name with _ | other
      · exact nomatch (resolve_alias hfound hclaimed hself).symm.trans hraised
      · exact nomatch (resolve_identifier hfound).symm.trans hraised
  · intro name hname
    by_contra hcontra
    obtain ⟨hdiffers, hnew⟩ := not_or.mp hcontra
    have hresolved := (hresolves _ template hself).2 name hname
    rcases hfound : (registry.overridden template).templates.get? name with _ | other
    · rcases hclaimed : registry.aliases.get? name with _ | identifier
      · rw [resolve, hfound] at hresolved
        dsimp only at hresolved
        rw [show (registry.overridden template).aliases.get? name = none from hclaimed] at hresolved
        cases hresolved
      · obtain ⟨other, hother, hdeclared⟩ := h.declared name identifier hclaimed
        by_cases heq : identifier = template.canonicalIdentifier
        · subst heq
          exact hnew (Option.some.inj (hold.symm.trans hother) ▸ hdeclared)
        · have hkept : (registry.overridden template).templates.get? identifier = some other := by
            rw [get?_overridden, if_neg heq]
            exact hother
          have hsame := Except.ok.inj ((resolve_alias hfound hclaimed hkept).symm.trans hresolved)
          exact heq ((h.keyed identifier other hother).symm.trans
            (congrArg StrategyTemplate.canonicalIdentifier hsame))
    · have hsame := Except.ok.inj ((resolve_identifier hfound).symm.trans hresolved)
      rw [get?_overridden, if_neg hdiffers] at hfound
      exact hdiffers ((h.keyed name other hfound).symm.trans
        (congrArg StrategyTemplate.canonicalIdentifier hsame))

/-- Among registries whose names are apart, the admitted registrations are those that leave every
template found and every dropped alias unknown. -/
theorem Apart.admitted_iff (h : registry.Apart) (hsucceeds : registration.Succeeds registry) :
    registration.Admitted registry ↔
      (Effect.exec registration.perform registry).2.ResolvesAll ∧
        Forgets registry (Effect.exec registration.perform registry).2
          registration.template.canonicalIdentifier := by
  constructor
  · intro hadmitted
    obtain ⟨hapart, hinherits⟩ := h.perform hsucceeds hadmitted
    refine ⟨hapart.resolvesAll, ?_⟩
    intro old hold template htemplate name hname hdropped
    obtain ⟨newest, hnewest, hinherited⟩ := hinherits _ old hold
    have hsame := Option.some.inj (htemplate.symm.trans hnewest)
    subst hsame
    exact absurd (hinherited name hname) hdropped
  · rintro ⟨hresolves, hforgets⟩
    obtain ⟨left, htemplates, haliases, hleft⟩ := exec_registration hsucceeds
    have hsame : (Effect.exec registration.perform registry).2.resolve = left.resolve := by
      funext name
      rw [resolve, resolve, htemplates, haliases]
    rw [ResolvesAll, hsame, htemplates] at hresolves
    rw [Forgets, hsame, htemplates] at hforgets
    rw [Registration.Admitted]
    rcases hleft with ⟨hnew, _, rfl⟩ | ⟨old, hold, rfl⟩
    · rw [hnew]
      exact h.admitted_of_resolvesAll hnew hresolves
    · rw [hold]
      exact h.overridden_of_resolvesAll hold hresolves hforgets

/-! ### Runs -/

/-- A registration that succeeds and is admitted. -/
def Registration.Accepted (registry : StrategyTemplateRegistry D)
    (registration : Registration D) : Prop :=
  registration.Succeeds registry ∧ registration.Admitted registry

theorem Apart.afterCalls {registrations : List (Registration D)} (h : registry.Apart)
    (haccepted : Effect.CallsAllowed Registration.perform Registration.Accepted registry
      registrations) :
    (Effect.afterCalls Registration.perform registry registrations).Apart ∧
      Inherits registry (Effect.afterCalls Registration.perform registry registrations) :=
  Effect.afterCalls_related Apart Inherits .refl (fun _ _ _ => .trans)
    (fun _ _ hapart haccepted => hapart.perform haccepted.1 haccepted.2) h haccepted

/-- A call that returns has made all its registrations. -/
theorem exec_call {call : Call D} (h : call.Succeeds registry) :
    Effect.CallsAllowed Registration.perform Registration.Succeeds registry call.registrations ∧
      (Effect.exec call.perform registry).2 =
        Effect.afterCalls Registration.perform registry call.registrations := by
  cases call with
  | register template => exact ⟨⟨h, trivial⟩, rfl⟩
  | registerPluginTemplates metadata templates =>
      rw [Call.Succeeds, Call.perform, StrategyTemplateRegistry.registerPluginTemplates] at h
      rw [Call.perform, StrategyTemplateRegistry.registerPluginTemplates]
      by_cases hversion : metadata.apiVersion ≠ "8A-v1"
      · rw [if_pos hversion] at h
        cases h
      · rw [if_neg hversion] at h ⊢
        have hloop : (templates.forM (registerPluginTemplate metadata) :
            Effect (StrategyTemplateRegistry D) Exc Unit) =
              forM (templates.map (Registration.ofPlugin metadata)) Registration.perform := by
          change forM templates
            (fun template => (Registration.ofPlugin metadata template).perform) = _
          exact List.forM_map.symm
        rw [hloop] at h ⊢
        exact Effect.afterCalls_of_forM (Prod.ext h rfl)

theorem afterCalls_call {calls : List (Call D)}
    (h : Effect.CallsAllowed Call.perform Call.Succeeds registry calls) :
    Effect.CallsAllowed Registration.perform Registration.Succeeds registry
        (calls.flatMap Call.registrations) ∧
      Effect.afterCalls Call.perform registry calls =
        Effect.afterCalls Registration.perform registry (calls.flatMap Call.registrations) := by
  induction calls generalizing registry with
  | nil => exact ⟨trivial, rfl⟩
  | cons call rest ih =>
      obtain ⟨hregistrations, hcall⟩ := exec_call h.1
      obtain ⟨hrest, hafter⟩ := ih h.2
      rw [List.flatMap_cons, Effect.callsAllowed_append, Effect.afterCalls_append, ← hcall]
      exact ⟨⟨hregistrations, hrest⟩, hafter⟩

/-- After calls that succeed, and whose templates are all admitted, every template is found under
its names and no name of a replaced one is left. -/
theorem resolutionConsistent_of_admitted {calls : List (Call D)}
    (hsucceed : Effect.CallsAllowed Call.perform Call.Succeeds empty calls)
    (hadmitted : Effect.CallsAllowed Registration.perform Registration.Admitted empty
      (calls.flatMap Call.registrations)) : ResolutionConsistent calls := by
  obtain ⟨hregistrations, hafter⟩ := afterCalls_call hsucceed
  have haccepted : Effect.CallsAllowed Registration.perform Registration.Accepted empty
    (calls.flatMap Call.registrations) := hregistrations.and hadmitted
  rw [ResolutionConsistent, hafter]
  refine ⟨(apart_empty.afterCalls haccepted).1.resolvesAll, ?_⟩
  intro before after hsplit identifier old hold template htemplate name hname hforgotten
  rw [hsplit] at haccepted htemplate
  rw [Effect.callsAllowed_append] at haccepted
  rw [Effect.afterCalls_append] at htemplate
  -- what stood under the identifier has handed all its aliases on
  obtain ⟨newest, hnewest, hinherited⟩ :=
    ((apart_empty.afterCalls haccepted.1).1.afterCalls haccepted.2).2 identifier old hold
  have hsame := Option.some.inj (htemplate.symm.trans hnewest)
  subst hsame
  exact absurd (hinherited name hname) hforgotten

/-- A condor, with the one alias that the version names. -/
def condor (name : String) : StrategyTemplate String := ⟨"iron_condor", [name], name⟩

def deskPlugin : StrategyTemplatePluginMetadata := ⟨"desk", "1.0", "8A-v1", "desk", true⟩

def condorCalls (name : String) : List (Call String) :=
  [.register (condor "ic"), .registerPluginTemplates deskPlugin [condor name]]

theorem succeeds_condorCalls (name : String) :
    Effect.CallsAllowed Call.perform Call.Succeeds empty (condorCalls name) := ⟨rfl, rfl, trivial⟩

/-- An override that renames the alias leaves the old one, and does not bring in the new one. -/
theorem not_resolutionConsistent :
    ¬ ∀ calls : List (Call String), Effect.CallsAllowed Call.perform Call.Succeeds empty calls →
      ResolutionConsistent calls := by
  intro h
  have hconsistent := (h _ (succeeds_condorCalls "condor")).1
  have hfound := (hconsistent "iron_condor" (condor "condor") rfl).2 "condor"
    List.mem_cons_self
  exact nomatch hfound

theorem resolutionConsistent_of_admitted_condor : ResolutionConsistent (condorCalls "ic") :=
  resolutionConsistent_of_admitted (succeeds_condorCalls "ic")
    ⟨⟨rfl, fun _ _ => .inr rfl⟩, ⟨fun _ hname => hname, fun _ hname => .inr hname⟩, trivial⟩

end StrategyTemplateRegistry

end OptionResearch
