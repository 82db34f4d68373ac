import OptionResearch.InsertionDict
import OptionResearch.PythonValues
import OptionResearch.StableSort
import Mathlib.Data.String.Basic

/-!
# Merging the observations of several providers

`reconcile` of `data/reconciliation.py`. Observations are ranked by provider precedence, compared
field by field within tolerances, and merged so that a field comes from the best-ranked fresh
observation that reports it. With observations that differ in provider or checksum the merge does
not depend on their order. Identities that disagree are a matter of manual review, before any field
is compared.
-/

namespace OptionResearch

/-! ### Equality of values -/

/-- What a value is compared by; a container is opened and closed. -/
inductive EqToken where
  | none
  | num (q : ℚ)
  | str (s : String)
  | time (aware : Bool) (instant : Int)
  | openList
  | openTuple
  | openDict
  | key (k : String)
  | close
  deriving DecidableEq, Repr

mutual

/-- Numbers of any type are compared by value, dictionaries whatever their order. -/
def PyValue.eqTokens : PyValue → List EqToken
  | .none => [.none]
  | .bool b => [.num (if b then 1 else 0)]
  | .int n => [.num n]
  | .float q => [.num q]
  | .str s => [.str s]
  | .datetime t => [.time t.utcoffset.isSome t.instant]
  | .list items => .openList :: (PyValue.itemTokens items).flatten ++ [.close]
  | .tuple items => .openTuple :: (PyValue.itemTokens items).flatten ++ [.close]
  | .dict entries =>
    .openDict :: (StableSort.sortBy Prod.fst (PyValue.entryTokens entries)).flatMap
      (fun entry => .key entry.1 :: entry.2) ++ [.close]

def PyValue.itemTokens : List PyValue → List (List EqToken)
  | [] => []
  | item :: rest => item.eqTokens :: PyValue.itemTokens rest

def PyValue.entryTokens : List (String × PyValue) → List (String × List EqToken)
  | [] => []
  | (key, item) :: rest => (key, item.eqTokens) :: PyValue.entryTokens rest

end

/-- `value == other`. -/
def PyValue.pyEq (value other : PyValue) : Bool := decide (value.eqTokens = other.eqTokens)

theorem PyValue.pyEq_comm (value other : PyValue) : value.pyEq other = other.pyEq value := by
  simp only [PyValue.pyEq, eq_comm]

@[simp] theorem PyValue.pyEq_self (value : PyValue) : value.pyEq value = true :=
  decide_eq_true rfl

/-! ### Observations and policies -/

inductive DivergenceSeverity where
  | informational
  | minor
  | moderate
  | major
  | critical
  | incomparable
  deriving DecidableEq, Repr

inductive MergeAction where
  | selectProvider
  | preserveMultiple
  | composite
  | reject
  | quarantine
  | manualReview
  deriving DecidableEq, Repr

structure ContractIdentity where
  underlying : String
  expiration : String
  strike : ℚ
  optionType : String
  multiplier : ℚ := 100
  exerciseStyle : Option String := none
  settlementStyle : Option String := none
  occSymbol : Option String := none
  adjustedDeliverable : Option String := none
  deriving DecidableEq, Repr

/-- The texts of values: `identityJson` is the compact JSON of an identity's fields, and `dumps` the
JSON of a value with sorted keys and `default=str`. -/
structure ReconciliationText extends PyText where
  identityJson : ContractIdentity → String
  dumps : PyValue → Except Exc String

/-- Texts for small runs of the model, with one identity for each underlying and the JSON of
integers. -/
def plainReconciliationText : ReconciliationText where
  toPyText := plainText
  identityJson identity := identity.underlying
  dumps value := match value with
    | .int n => .ok (toString n)
    | _ => .ok "\x7b\x7d"

/-- `checksum`. -/
def ContractIdentity.checksum (text : ReconciliationText) (identity : ContractIdentity) : String :=
  text.sha256 (text.identityJson identity)

structure ProviderObservation where
  provider : String
  identity : ContractIdentity
  timestamp : String
  fields : InsertionDict String PyValue
  sourceChecksum : String
  certificationScore : Option ℚ := none
  stale : Bool := false

/-- `value is not None`. -/
def PyValue.notNone : PyValue → Bool
  | .none => false
  | _ => true

/-- The value of a field, where it is not null. -/
def ProviderObservation.reported (item : ProviderObservation) (name : String) : Option PyValue :=
  (item.fields.get? name).filter PyValue.notNone

structure ReconciliationPolicy where
  version : String := "1.0.0"
  providerPrecedence : List String := ["cboe", "orats", "databento", "polygon"]
  absoluteTolerances : InsertionDict String ℚ :=
    .ofEntries [("bid", 1 / 20), ("ask", 1 / 20), ("underlying_price", 1 / 20), ("multiplier", 0)]
  relativeTolerances : InsertionDict String ℚ :=
    .ofEntries [("bid", 1 / 50), ("ask", 1 / 50), ("underlying_price", 1 / 1000)]
  criticalFields : List String :=
    ["multiplier", "exercise_style", "settlement_style", "adjusted_deliverable"]

namespace ReconciliationPolicy

/-- `_rank`. -/
def rank (policy : ReconciliationPolicy) (provider : String) : Nat :=
  policy.providerPrecedence.idxOf provider

end ReconciliationPolicy

structure Divergence where
  field : String
  providers : String × String
  left : PyValue
  right : PyValue
  absoluteDifference : Option ℚ
  relativeDifference : Option ℚ
  severity : DivergenceSeverity
  reason : String

structure MergePreview where
  action : MergeAction
  canonicalFields : InsertionDict String PyValue
  fieldProvenance : InsertionDict String String
  divergences : List Divergence
  policyVersion : String
  observations : List ProviderObservation
  explanation : List String

namespace ProviderReconciliation

variable (text : ReconciliationText) (policy : ReconciliationPolicy)

/-- The differences of two numbers, absolute and relative. -/
def differences (first second : PyValue) : Option (ℚ × ℚ) :=
  match first.number?, second.number? with
  | some first, some second =>
    let absolute := |first - second|
    some (absolute, absolute / max (max |first| |second|) (1 / 1000000000000))
  | _, _ => none

/-- The values are numbers whose difference the policy tolerates. -/
def tolerated (name : String) (first second : PyValue) : Bool :=
  match differences first second with
  | some (absolute, relative) =>
    decide (absolute ≤ (policy.absoluteTolerances.get? name).getD 0) ||
      decide (relative ≤ (policy.relativeTolerances.get? name).getD 0)
  | none => false

/-- The body of the innermost loop of `_divergences`. -/
def divergence (left right : ProviderObservation) (name : String) : Option Divergence :=
  match left.reported name, right.reported name with
  | some first, some second =>
    if first.pyEq second then none
    else
      let tolerated := tolerated policy name first second
      let severity := if tolerated then .informational else .moderate
      some {
        field := name
        providers := (left.provider, right.provider)
        left := first
        right := second
        absoluteDifference := (differences first second).map Prod.fst
        relativeDifference := (differences first second).map Prod.snd
        severity := if name ∈ policy.criticalFields ∧ tolerated = false then .critical else severity
        reason := if tolerated then "within tolerance" else "values conflict" }
  | _, _ => none

/-- `sorted(set(left.fields) & set(right.fields))`. -/
def commonFields (left right : ProviderObservation) : List String :=
  StableSort.sortBy id
    ((left.fields.entries.map Prod.fst).filter fun name => right.fields.contains name)

/-- `_divergences`. -/
def divergences : List ProviderObservation → List Divergence
  | [] => []
  | left :: rest =>
    (rest.flatMap fun right =>
      (commonFields left right).filterMap (divergence policy left right)) ++ divergences rest

/-- The key of the sort in `reconcile`. -/
def sortKey (item : ProviderObservation) : ℕ ×ₗ Bool ×ₗ String ×ₗ String :=
  toLex (policy.rank item.provider,
    toLex (item.stale, toLex (item.provider, item.sourceChecksum)))

/-- The fields chosen so far, with the providers they are from. -/
structure Selection where
  fields : InsertionDict String PyValue
  provenance : InsertionDict String String

namespace Selection

def start : Selection := ⟨.empty, .empty⟩

/-- One field of an observation: the first value that is not null is taken. -/
def offer (provider : String) (selection : Selection) (entry : String × PyValue) : Selection :=
  if entry.2.notNone ∧ selection.fields.contains entry.1 = false then
    ⟨selection.fields.set entry.1 entry.2, selection.provenance.set entry.1 provider⟩
  else selection

/-- One observation; the items are sorted, which no two names leave open. -/
def take (selection : Selection) (item : ProviderObservation) : Selection :=
  if item.stale then selection
  else (StableSort.sortBy Prod.fst item.fields.entries).foldl (offer item.provider) selection

end Selection

/-- `reconcile`, once the identities agree. -/
def merge (observations : List ProviderObservation) : MergePreview :=
  let ordered := StableSort.sortBy (sortKey policy) observations
  let divergences := divergences policy ordered
  if divergences.any fun item => item.severity = .critical then
    ⟨.quarantine, .empty, .empty, divergences, policy.version, observations,
      ["Critical contract-definition conflict"]⟩
  else
    let selection := ordered.foldl Selection.take .start
    let action :=
      if 1 < selection.provenance.values.dedup.length then .composite else .selectProvider
    ⟨action, selection.fields, selection.provenance, divergences, policy.version, observations,
      ["Fields selected by versioned provider precedence and freshness"]⟩

def reconcile (observations : List ProviderObservation) : MergePreview :=
  match observations with
  | [] => ⟨.reject, .empty, .empty, [], policy.version, [], ["No observations"]⟩
  | first :: rest =>
    if rest.any fun item => item.identity.checksum text ≠ first.identity.checksum text then
      ⟨.manualReview, .empty, .empty, [], policy.version, first :: rest,
        ["Contract identity conflict"]⟩
    else merge policy (first :: rest)

/-! ### Conflicts -/

variable {text policy}

/-- Both observations report the field, with values that differ beyond tolerance. -/
def Conflicting (policy : ReconciliationPolicy) (name : String) (a b : ProviderObservation) :
    Prop :=
  ∃ first second, a.reported name = some first ∧ b.reported name = some second ∧
    first.pyEq second = false ∧ tolerated policy name first second = false

/-- Two observations conflict on a critical field. -/
def CriticalConflict (policy : ReconciliationPolicy) (observations : List ProviderObservation) :
    Prop :=
  ∃ a ∈ observations, ∃ b ∈ observations, ∃ name ∈ policy.criticalFields,
    Conflicting policy name a b

theorem tolerated_comm (name : String) (first second : PyValue) :
    tolerated policy name first second = tolerated policy name second first := by
  have hdifferences : differences first second = differences second first := by
    simp only [differences]
    cases first.number? with
    | none => cases second.number? <;> rfl
    | some x =>
      cases second.number? with
      | none => rfl
      | some y => simp only [abs_sub_comm, max_comm]
  rw [tolerated, tolerated, hdifferences]

theorem Conflicting.symm {name : String} {a b : ProviderObservation}
    (h : Conflicting policy name a b) : Conflicting policy name b a := by
  obtain ⟨first, second, hfirst, hsecond, hne, htolerated⟩ := h
  exact ⟨second, first, hsecond, hfirst, PyValue.pyEq_comm second first ▸ hne,
    tolerated_comm name first second ▸ htolerated⟩

theorem not_conflicting_self (name : String) (a : ProviderObservation) :
    ¬ Conflicting policy name a a := by
  rintro ⟨first, second, hfirst, hsecond, hne, -⟩
  obtain rfl : first = second := Option.some_inj.mp (hfirst.symm.trans hsecond)
  exact absurd hne (by simp)

theorem divergence_critical {name : String} {a b : ProviderObservation} :
    (∃ item, divergence policy a b name = some item ∧ item.severity = .critical) ↔
      name ∈ policy.criticalFields ∧ Conflicting policy name a b := by
  rw [divergence]
  constructor
  · rintro ⟨item, hitem, hcritical⟩
    split at hitem
    · rename_i first second hfirst hsecond
      split_ifs at hitem with heq
      cases hitem
      dsimp only at hcritical
      by_cases h : name ∈ policy.criticalFields ∧ tolerated policy name first second = false
      · exact ⟨h.1, first, second, hfirst, hsecond, by simpa using heq, h.2⟩
      · rw [if_neg h] at hcritical
        split_ifs at hcritical
    · cases hitem
  · rintro ⟨hname, first, second, hfirst, hsecond, hne, htolerated⟩
    simp only [hfirst, hsecond, hne, htolerated, hname]
    exact ⟨_, rfl, rfl⟩

theorem reported_eq_some_iff {item : ProviderObservation} {name : String} {value : PyValue} :
    item.reported name = some value ↔
      (name, value) ∈ item.fields.entries ∧ value.notNone = true := by
  rw [ProviderObservation.reported, Option.filter_eq_some_iff, InsertionDict.get?_eq_some_iff]

theorem mem_commonFields {name : String} {a b : ProviderObservation}
    (h : Conflicting policy name a b) : name ∈ commonFields a b := by
  obtain ⟨first, second, hfirst, hsecond, -⟩ := h
  rw [commonFields, StableSort.mem_sortBy, List.mem_filter]
  have hright : b.fields.get? name = some second :=
    InsertionDict.get?_eq_some_iff.mpr (reported_eq_some_iff.mp hsecond).1
  refine ⟨List.mem_map_of_mem (f := Prod.fst) (reported_eq_some_iff.mp hfirst).1, ?_⟩
  rw [InsertionDict.contains, hright]
  rfl

/-- A critical divergence is found exactly where some two observations conflict. -/
theorem exists_critical_divergence {observations : List ProviderObservation} :
    (∃ item ∈ divergences policy observations, item.severity = .critical) ↔
      CriticalConflict policy observations := by
  have hpair : ∀ a b, (∃ item ∈ (commonFields a b).filterMap (divergence policy a b),
      item.severity = .critical) ↔ ∃ name ∈ policy.criticalFields, Conflicting policy name a b := by
    intro a b
    constructor
    · rintro ⟨item, hitem, hcritical⟩
      obtain ⟨name, -, hname⟩ := List.mem_filterMap.mp hitem
      obtain ⟨hmem, hconflict⟩ := divergence_critical.mp ⟨item, hname, hcritical⟩
      exact ⟨name, hmem, hconflict⟩
    · rintro ⟨name, hmem, hconflict⟩
      obtain ⟨item, hitem, hcritical⟩ := divergence_critical.mpr ⟨hmem, hconflict⟩
      exact ⟨item, List.mem_filterMap.mpr ⟨name, mem_commonFields hconflict, hitem⟩, hcritical⟩
  induction observations with
  | nil => simp [divergences, CriticalConflict]
  | cons left rest ih =>
    rw [divergences]
    constructor
    · rintro ⟨item, hitem, hcritical⟩
      rcases List.mem_append.mp hitem with hitem | hitem
      · obtain ⟨right, hright, hitem⟩ := List.mem_flatMap.mp hitem
        obtain ⟨name, hname, hconflict⟩ := (hpair left right).mp ⟨item, hitem, hcritical⟩
        exact ⟨left, List.mem_cons_self, right, List.mem_cons_of_mem _ hright, name, hname,
          hconflict⟩
      · obtain ⟨a, ha, b, hb, hconflict⟩ := ih.mp ⟨item, hitem, hcritical⟩
        exact ⟨a, List.mem_cons_of_mem _ ha, b, List.mem_cons_of_mem _ hb, hconflict⟩
    · rintro ⟨a, ha, b, hb, name, hname, hconflict⟩
      have hfirst : ∀ right ∈ rest, Conflicting policy name left right →
          ∃ item ∈ (rest.flatMap fun right =>
            (commonFields left right).filterMap (divergence policy left right)) ++
              divergences policy rest, item.severity = .critical := by
        intro right hright hconflict
        obtain ⟨item, hitem, hcritical⟩ := (hpair left right).mpr ⟨name, hname, hconflict⟩
        exact ⟨item, List.mem_append_left _ (List.mem_flatMap.mpr ⟨right, hright, hitem⟩),
          hcritical⟩
      rcases List.mem_cons.mp ha with rfl | harest
      · rcases List.mem_cons.mp hb with rfl | hbrest
        · exact absurd hconflict (not_conflicting_self name _)
        · exact hfirst b hbrest hconflict
      · rcases List.mem_cons.mp hb with rfl | hbrest
        · exact hfirst a harest hconflict.symm
        · obtain ⟨item, hitem, hcritical⟩ := ih.mpr ⟨a, harest, b, hbrest, name, hname, hconflict⟩
          exact ⟨item, List.mem_append_right _ hitem, hcritical⟩

theorem CriticalConflict.perm {observations others : List ProviderObservation}
    (hperm : observations.Perm others) (h : CriticalConflict policy observations) :
    CriticalConflict policy others := by
  obtain ⟨a, ha, b, hb, hconflict⟩ := h
  exact ⟨a, hperm.mem_iff.mp ha, b, hperm.mem_iff.mp hb, hconflict⟩

/-! ### Selection -/

/-- What a fresh observation offers for a field. -/
def choice (item : ProviderObservation) (name : String) : Option (PyValue × String) :=
  if item.stale then none else (item.reported name).map fun value => (value, item.provider)

namespace Selection

/-- The chosen values and their providers. -/
structure Holds (selection : Selection) (chosen : String → Option (PyValue × String)) : Prop where
  fields : ∀ name, selection.fields.get? name = (chosen name).map Prod.fst
  provenance : ∀ name, selection.provenance.get? name = (chosen name).map Prod.snd

variable {selection : Selection} {chosen : String → Option (PyValue × String)}

theorem holds_start : start.Holds fun _ => none := ⟨fun _ => rfl, fun _ => rfl⟩

theorem Holds.offer {provider : String} (h : selection.Holds chosen) (entry : String × PyValue) :
    (offer provider selection entry).Holds fun name =>
      (chosen name).or (if name = entry.1 ∧ entry.2.notNone then some (entry.2, provider)
        else none) := by
  have hcontains : selection.fields.contains entry.1 = (chosen entry.1).isSome := by
    rw [InsertionDict.contains, h.fields, Option.isSome_map]
  rw [Selection.offer]
  split_ifs with hoffer
  · have hnone : chosen entry.1 = none :=
      Option.isNone_iff_eq_none.mp (by simpa [hcontains] using hoffer.2)
    constructor
    · intro name
      by_cases hname : name = entry.1
      · subst hname
        simp [InsertionDict.get?_set, hnone, hoffer.1]
      · simp [InsertionDict.get?_set, hname, h.fields]
    · intro name
      by_cases hname : name = entry.1
      · subst hname
        simp [InsertionDict.get?_set, hnone, hoffer.1]
      · simp [InsertionDict.get?_set, hname, h.provenance]
  · have hsame : ∀ name, (chosen name).or
        (if name = entry.1 ∧ entry.2.notNone then some (entry.2, provider) else none) =
          chosen name := by
      intro name
      cases hchosen : chosen name with
      | some value => rfl
      | none =>
        rw [Option.none_or, if_neg]
        rintro ⟨rfl, hvalue⟩
        exact hoffer ⟨hvalue, by rw [hcontains, hchosen]; rfl⟩
    exact ⟨fun name => by rw [hsame, h.fields], fun name => by rw [hsame, h.provenance]⟩

theorem Holds.congr {chosen' : String → Option (PyValue × String)} (h : selection.Holds chosen)
    (heq : ∀ name, chosen name = chosen' name) : selection.Holds chosen' :=
  ⟨fun name => heq name ▸ h.fields name, fun name => heq name ▸ h.provenance name⟩

theorem Holds.offers {provider : String} {entries : List (String × PyValue)}
    (h : selection.Holds chosen) (hnodup : (entries.map Prod.fst).Nodup) :
    (entries.foldl (Selection.offer provider) selection).Holds fun name =>
      (chosen name).or (((Entries.lookup name entries).filter PyValue.notNone).map
        fun value => (value, provider)) := by
  induction entries generalizing selection chosen with
  | nil => exact h.congr fun name => (Option.or_none).symm
  | cons entry rest ih =>
    obtain ⟨hfresh, hrest⟩ := List.nodup_cons.mp hnodup
    refine (ih (h.offer entry) hrest).congr fun name => ?_
    rw [Option.or_assoc, Entries.lookup]
    by_cases hname : name = entry.1
    · have hnone : Entries.lookup name rest = none :=
        Entries.lookup_eq_none_iff.mpr (hname ▸ hfresh)
      rw [hnone, if_pos hname.symm]
      by_cases hvalue : entry.2.notNone = true <;> simp [hname, hvalue, Option.filter_some]
    · rw [if_neg fun heq => hname heq.1, if_neg (Ne.symm hname), Option.none_or]

theorem Holds.take (h : selection.Holds chosen) (item : ProviderObservation) :
    (take selection item).Holds fun name => (chosen name).or (choice item name) := by
  rw [Selection.take]
  split_ifs with hstale
  · refine h.congr fun name => ?_
    rw [choice, if_pos hstale, Option.or_none]
  · have hperm : (StableSort.sortBy Prod.fst item.fields.entries).Perm item.fields.entries :=
      StableSort.sortBy_perm
    have hnodup : ((StableSort.sortBy Prod.fst item.fields.entries).map Prod.fst).Nodup :=
      (hperm.map Prod.fst).nodup_iff.mpr item.fields.nodup_keys
    refine (h.offers hnodup).congr fun name => ?_
    have hlookup : Entries.lookup name (StableSort.sortBy Prod.fst item.fields.entries) =
        item.fields.get? name := by
      apply Option.ext
      intro value
      rw [Entries.lookup_eq_some_iff hnodup, InsertionDict.get?_eq_some_iff, hperm.mem_iff]
    rw [choice, if_neg hstale, hlookup]
    rfl

theorem holds_takes {items : List ProviderObservation} (h : selection.Holds chosen) :
    (items.foldl Selection.take selection).Holds fun name =>
      (chosen name).or (items.findSome? (choice · name)) := by
  induction items generalizing selection chosen with
  | nil => exact h.congr fun name => (Option.or_none).symm
  | cons item rest ih =>
    refine (ih (h.take item)).congr fun name => ?_
    rw [Option.or_assoc, List.findSome?_cons]
    cases choice item name <;> rfl

end Selection

/-! ### The merge -/

variable {observations others : List ProviderObservation}

/-- All observations are of one contract. -/
def IdentitiesAgree (text : ReconciliationText) (observations : List ProviderObservation) : Prop :=
  ∀ a ∈ observations, ∀ b ∈ observations, a.identity.checksum text = b.identity.checksum text

theorem IdentitiesAgree.perm (hperm : observations.Perm others)
    (h : IdentitiesAgree text observations) : IdentitiesAgree text others :=
  fun a ha b hb => h a (hperm.mem_iff.mpr ha) b (hperm.mem_iff.mpr hb)

theorem reconcile_of_agree (hne : observations ≠ []) (h : IdentitiesAgree text observations) :
    reconcile text policy observations = merge policy observations := by
  cases observations with
  | nil => exact absurd rfl hne
  | cons first rest =>
    rw [reconcile, if_neg]
    intro hany
    obtain ⟨item, hitem, hdiffers⟩ := List.any_eq_true.mp hany
    exact of_decide_eq_true hdiffers
      (h item (List.mem_cons_of_mem _ hitem) first List.mem_cons_self)

variable (policy) in
/-- Identities that disagree are left to a review, with nothing merged. -/
theorem reconcile_of_not_agree (h : ¬ IdentitiesAgree text observations) :
    (reconcile text policy observations).action = .manualReview ∧
      (reconcile text policy observations).canonicalFields = .empty ∧
      (reconcile text policy observations).fieldProvenance = .empty := by
  cases observations with
  | nil => exact absurd (fun _ ha => absurd ha List.not_mem_nil) h
  | cons first rest =>
    rw [reconcile, if_pos]
    · exact ⟨rfl, rfl, rfl⟩
    · by_contra hall
      have hsame : ∀ item ∈ first :: rest,
          item.identity.checksum text = first.identity.checksum text := by
        intro item hitem
        rcases List.mem_cons.mp hitem with rfl | hitem
        · rfl
        · by_contra hdiffers
          exact hall (List.any_eq_true.mpr ⟨item, hitem, decide_eq_true hdiffers⟩)
      exact h fun a ha b hb => (hsame a ha).trans (hsame b hb).symm

theorem any_critical_iff :
    ((divergences policy (StableSort.sortBy (sortKey policy) observations)).any
      fun item => item.severity = .critical) = true ↔ CriticalConflict policy observations := by
  rw [List.any_eq_true]
  simp only [decide_eq_true_eq]
  rw [exists_critical_divergence]
  exact ⟨.perm StableSort.sortBy_perm, .perm StableSort.sortBy_perm.symm⟩

theorem merge_of_conflict (h : CriticalConflict policy observations) :
    (merge policy observations).action = .quarantine ∧
      (merge policy observations).canonicalFields = .empty ∧
      (merge policy observations).fieldProvenance = .empty := by
  rw [merge, if_pos (any_critical_iff.mpr h)]
  exact ⟨rfl, rfl, rfl⟩

theorem merge_of_not_conflict (h : ¬ CriticalConflict policy observations) :
    (merge policy observations).action ≠ .quarantine ∧
      Selection.Holds ⟨(merge policy observations).canonicalFields,
        (merge policy observations).fieldProvenance⟩ fun name =>
          (StableSort.sortBy (sortKey policy) observations).findSome? (choice · name) := by
  rw [merge, if_neg fun hany => h (any_critical_iff.mp hany)]
  constructor
  · dsimp only
    split_ifs
    · decide
    · decide
  · exact Selection.holds_takes Selection.holds_start

/-- The first that offers a field is the least by the sort key of all that do. -/
theorem findSome?_sortBy {name : String} {value : PyValue} {provider : String}
    (h : (StableSort.sortBy (sortKey policy) observations).findSome? (choice · name) =
      some (value, provider)) :
    ∃ best ∈ observations, best.stale = false ∧ best.reported name = some value ∧
      best.provider = provider ∧ ∀ item ∈ observations, item.stale = false →
        (item.reported name).isSome → sortKey policy best ≤ sortKey policy item := by
  obtain ⟨before, best, after, hsplit, hbest, hbefore⟩ := List.findSome?_eq_some_iff.mp h
  have hbestSorted : best ∈ StableSort.sortBy (sortKey policy) observations := by
    rw [hsplit]
    exact List.mem_append_right _ List.mem_cons_self
  rw [choice] at hbest
  split_ifs at hbest with hstale
  obtain ⟨v, hreported, hpair⟩ := Option.map_eq_some_iff.mp hbest
  obtain ⟨rfl, rfl⟩ := Prod.mk.inj hpair
  refine ⟨best, StableSort.mem_sortBy.mp hbestSorted, by simpa using hstale, hreported, rfl,
    fun item hitem hfresh hsome => ?_⟩
  have hsorted := StableSort.sortBy_sorted (sortKey policy) observations
  have hitemSorted : item ∈ StableSort.sortBy (sortKey policy) observations :=
    StableSort.mem_sortBy.mpr hitem
  rw [hsplit] at hsorted hitemSorted
  rcases List.mem_append.mp hitemSorted with hitem | hitem
  · have hnone := hbefore item hitem
    rw [choice, hfresh, if_neg Bool.false_ne_true, Option.map_eq_none_iff] at hnone
    rw [hnone] at hsome
    cases hsome
  · rcases List.mem_cons.mp hitem with rfl | hitem
    · exact le_rfl
    · exact (List.pairwise_cons.mp (List.pairwise_append.mp hsorted).2.1).1 item hitem

theorem rank_le_of_sortKey_le {item other : ProviderObservation}
    (h : sortKey policy item ≤ sortKey policy other) :
    policy.rank item.provider ≤ policy.rank other.provider := by
  rcases Prod.Lex.toLex_le_toLex.mp h with hlt | ⟨heq, -⟩
  · exact hlt.le
  · exact heq.le

/-- With different checksums for one provider, the order of the observations does not matter. -/
theorem reconcile_perm
    (hdistinct : (observations.map fun item => (item.provider, item.sourceChecksum)).Nodup)
    (hperm : observations.Perm others) :
    (reconcile text policy others).action = (reconcile text policy observations).action ∧
      (reconcile text policy others).canonicalFields =
        (reconcile text policy observations).canonicalFields ∧
      (reconcile text policy others).fieldProvenance =
        (reconcile text policy observations).fieldProvenance := by
  by_cases hempty : observations = []
  · subst hempty
    obtain rfl := hperm.nil_eq
    exact ⟨rfl, rfl, rfl⟩
  · by_cases hagree : IdentitiesAgree text observations
    · have hothers : others ≠ [] := fun heq => hempty (heq ▸ hperm).eq_nil
      have hsorted : StableSort.sortBy (sortKey policy) observations =
          StableSort.sortBy (sortKey policy) others := by
        refine StableSort.sortBy_eq_of_perm (fun a ha b hb hkey => ?_) hperm
        have hrest := (Prod.mk.inj (toLex.injective hkey)).2
        have hpair := (Prod.mk.inj (toLex.injective hrest)).2
        exact List.inj_on_of_nodup_map hdistinct ha hb (toLex.injective hpair)
      rw [reconcile_of_agree hempty hagree, reconcile_of_agree hothers (hagree.perm hperm), merge,
        merge, hsorted]
      split_ifs
      · exact ⟨rfl, rfl, rfl⟩
      · exact ⟨rfl, rfl, rfl⟩
    · obtain ⟨haction, hfields, hprovenance⟩ := reconcile_of_not_agree policy hagree
      obtain ⟨haction', hfields', hprovenance'⟩ := reconcile_of_not_agree policy
        fun h => hagree (h.perm hperm.symm)
      exact ⟨haction'.trans haction.symm, hfields'.trans hfields.symm,
        hprovenance'.trans hprovenance.symm⟩

/-- Where identities agree and no critical field is in conflict, the fields are those that the
sorted fresh observations offer first. -/
theorem holds_reconcile (hagree : IdentitiesAgree text observations)
    (hconflict : ¬ CriticalConflict policy observations) :
    Selection.Holds ⟨(reconcile text policy observations).canonicalFields,
      (reconcile text policy observations).fieldProvenance⟩ fun name =>
        (StableSort.sortBy (sortKey policy) observations).findSome? (choice · name) := by
  by_cases hempty : observations = []
  · subst hempty
    exact ⟨fun _ => rfl, fun _ => rfl⟩
  · rw [reconcile_of_agree hempty hagree]
    exact (merge_of_not_conflict hconflict).2

/-- Only observations of one contract are quarantined, and exactly those with a conflict. -/
theorem reconcile_quarantine_iff :
    (reconcile text policy observations).action = .quarantine ↔
      IdentitiesAgree text observations ∧ CriticalConflict policy observations := by
  by_cases hagree : IdentitiesAgree text observations
  · by_cases hempty : observations = []
    · subst hempty
      constructor
      · intro h
        cases h
      · rintro ⟨-, _, ha, -⟩
        cases ha
    · rw [reconcile_of_agree hempty hagree, and_iff_right hagree]
      by_cases hconflict : CriticalConflict policy observations
      · exact iff_of_true (merge_of_conflict hconflict).1 hconflict
      · exact iff_of_false (merge_of_not_conflict hconflict).1 hconflict
  · rw [(reconcile_of_not_agree _ hagree).1]
    exact iff_of_false (by decide) fun h => hagree h.1

/-- With nothing canonical unless identities agree and no critical field is in conflict. -/
theorem reconcile_empty
    (h : ¬ (IdentitiesAgree text observations ∧ ¬ CriticalConflict policy observations)) :
    (reconcile text policy observations).canonicalFields = .empty ∧
      (reconcile text policy observations).fieldProvenance = .empty := by
  by_cases hagree : IdentitiesAgree text observations
  · have hconflict : CriticalConflict policy observations := by
      by_contra hnot
      exact h ⟨hagree, hnot⟩
    have hne : observations ≠ [] := by
      rintro rfl
      obtain ⟨_, ha, -⟩ := hconflict
      cases ha
    rw [reconcile_of_agree hne hagree]
    exact (merge_of_conflict hconflict).2
  · exact (reconcile_of_not_agree _ hagree).2

/-- The merge does not depend on the order of the observations; without a conflict a field is the
best-ranked fresh provider's; nothing stale is canonical; and the observations of one contract are
quarantined, with no fields, exactly when they conflict on a critical field. -/
theorem reconcile_precedence (text : ReconciliationText) (policy : ReconciliationPolicy)
    (observations : List ProviderObservation)
    (hdistinct : (observations.map fun item => (item.provider, item.sourceChecksum)).Nodup) :
    (∀ others, observations.Perm others →
      (reconcile text policy others).action = (reconcile text policy observations).action ∧
        (reconcile text policy others).canonicalFields =
          (reconcile text policy observations).canonicalFields ∧
        (reconcile text policy others).fieldProvenance =
          (reconcile text policy observations).fieldProvenance) ∧
      (IdentitiesAgree text observations → ¬ CriticalConflict policy observations →
        ∀ name, (∃ item ∈ observations, item.stale = false ∧ (item.reported name).isSome) →
          ∃ best ∈ observations, ∃ value, best.stale = false ∧ best.reported name = some value ∧
            (reconcile text policy observations).canonicalFields.get? name = some value ∧
            (reconcile text policy observations).fieldProvenance.get? name = some best.provider ∧
            ∀ item ∈ observations, item.stale = false → (item.reported name).isSome →
              policy.rank best.provider ≤ policy.rank item.provider ∧
                sortKey policy best ≤ sortKey policy item) ∧
      (∀ name value, (reconcile text policy observations).canonicalFields.get? name = some value →
        ∃ item ∈ observations, item.stale = false ∧ item.reported name = some value ∧
          (reconcile text policy observations).fieldProvenance.get? name = some item.provider) ∧
      ((reconcile text policy observations).action = .quarantine ↔
        IdentitiesAgree text observations ∧ CriticalConflict policy observations) ∧
      ((reconcile text policy observations).action = .quarantine →
        (reconcile text policy observations).canonicalFields = .empty ∧
          (reconcile text policy observations).fieldProvenance = .empty) := by
  refine ⟨fun others hperm => reconcile_perm hdistinct hperm, ?_, ?_, reconcile_quarantine_iff,
    fun h => reconcile_empty fun hmerged => hmerged.2 (reconcile_quarantine_iff.mp h).2⟩
  · rintro hagree hconflict name ⟨item, hitem, hfresh, hsome⟩
    have hholds := holds_reconcile hagree hconflict
    cases hfound : (StableSort.sortBy (sortKey policy) observations).findSome? (choice · name) with
    | none =>
      have hnone := List.findSome?_eq_none_iff.mp hfound item (StableSort.mem_sortBy.mpr hitem)
      rw [choice, hfresh, if_neg Bool.false_ne_true, Option.map_eq_none_iff] at hnone
      rw [hnone] at hsome
      cases hsome
    | some chosen =>
      obtain ⟨value, provider⟩ := chosen
      obtain ⟨best, hbest, hstale, hreported, rfl, hleast⟩ := findSome?_sortBy hfound
      refine ⟨best, hbest, value, hstale, hreported, ?_, ?_, fun item hitem hfresh hsome => ?_⟩
      · exact (hholds.fields name).trans (congrArg (Option.map Prod.fst) hfound)
      · exact (hholds.provenance name).trans (congrArg (Option.map Prod.snd) hfound)
      · have hle := hleast item hitem hfresh hsome
        exact ⟨rank_le_of_sortKey_le hle, hle⟩
  · intro name value hvalue
    by_cases h : IdentitiesAgree text observations ∧ ¬ CriticalConflict policy observations
    · have hholds := holds_reconcile h.1 h.2
      have hfound := (hholds.fields name).symm.trans hvalue
      obtain ⟨⟨value', provider⟩, hchosen, rfl⟩ := Option.map_eq_some_iff.mp hfound
      obtain ⟨best, hbest, hstale, hreported, rfl, -⟩ := findSome?_sortBy hchosen
      exact ⟨best, hbest, hstale, hreported,
        (hholds.provenance name).trans (congrArg (Option.map Prod.snd) hchosen)⟩
    · rw [(reconcile_empty h).1] at hvalue
      cases hvalue

/-- Observations that report a multiplier and nothing else. -/
def multiplierObservation (provider underlying : String) (multiplier : Int) :
    ProviderObservation where
  provider := provider
  identity :=
    { underlying := underlying
      expiration := "2026-01-16"
      strike := 100
      optionType := "call" }
  timestamp := "2026-01-02"
  fields := .ofEntries [("multiplier", .int multiplier)]
  sourceChecksum := provider

theorem reconcile_precedence_multipliers :
    (([multiplierObservation "cboe" "SPY" 100, multiplierObservation "orats" "SPY" 100].map
        fun item => (item.provider, item.sourceChecksum))).Nodup ∧
      ∀ others,
        [multiplierObservation "cboe" "SPY" 100, multiplierObservation "orats" "SPY" 100].Perm
            others →
          (reconcile plainReconciliationText {} others).action =
            (reconcile plainReconciliationText {} [multiplierObservation "cboe" "SPY" 100,
              multiplierObservation "orats" "SPY" 100]).action :=
  ⟨by decide, fun others hperm => ((reconcile_precedence plainReconciliationText {}
    [multiplierObservation "cboe" "SPY" 100, multiplierObservation "orats" "SPY" 100]
      (by decide)).1 others hperm).1⟩

/-- Two contracts with different multipliers are a conflict on a critical field, and are reviewed
rather than quarantined. -/
theorem conflict_reviewed :
    CriticalConflict {} [multiplierObservation "cboe" "SPY" 100,
        multiplierObservation "orats" "QQQ" 10] ∧
      ∀ text : ReconciliationText,
        (multiplierObservation "cboe" "SPY" 100).identity.checksum text ≠
            (multiplierObservation "orats" "QQQ" 10).identity.checksum text →
          (reconcile text {} [multiplierObservation "cboe" "SPY" 100,
            multiplierObservation "orats" "QQQ" 10]).action = .manualReview := by
  constructor
  · refine ⟨_, List.mem_cons_self, _, List.mem_cons_of_mem _ List.mem_cons_self, "multiplier",
      List.mem_cons_self, .int 100, .int 10, rfl, rfl, by decide +kernel, by decide +kernel⟩
  · intro text hdiffers
    refine (reconcile_of_not_agree _ fun hagree => hdiffers ?_).1
    exact hagree _ List.mem_cons_self _ (List.mem_cons_of_mem _ List.mem_cons_self)

end ProviderReconciliation
end OptionResearch
