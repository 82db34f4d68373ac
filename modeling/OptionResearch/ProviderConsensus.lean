import OptionResearch.KeyedGroups
import OptionResearch.PartialEffects
import OptionResearch.ProviderReconciliation
import Mathlib.Data.List.Dedup

/-!
# Consensus of several providers

`consensus` of `data/reconciliation.py`. A field is agreed on when one value of it, as JSON, has
more than half of the observations. That is a majority of the providers exactly when there are three
of them at least and no provider has two observations within an agreeing group.
-/

namespace OptionResearch

structure ConsensusResult where
  agreeingProviders : List String
  dissentingProviders : List String
  consensusFields : InsertionDict String PyValue
  unresolvedFields : List String
  fieldProvenance : InsertionDict String (List String)
  policyVersion : String
  confidence : ℚ
  severity : DivergenceSeverity
  warnings : List String
  checksum : String

/-- `item == other`. -/
def ProviderObservation.pyEq (item other : ProviderObservation) : Bool :=
  item.provider = other.provider && item.identity = other.identity &&
    item.timestamp = other.timestamp &&
    (PyValue.dict item.fields.entries).pyEq (.dict other.fields.entries) &&
    item.sourceChecksum = other.sourceChecksum &&
    item.certificationScore = other.certificationScore && item.stale = other.stale

namespace ProviderConsensus

variable (text : ReconciliationText) (policy : ReconciliationPolicy)
  (observations : List ProviderObservation)

/-- The observations that report a field, each with the JSON of its value. -/
def keyed (name : String) : Except Exc (List (String × ProviderObservation)) :=
  (observations.filterMap fun item => (item.reported name).map fun value => (item, value)).mapM
    fun reporting => do
      let key ← text.dumps reporting.2
      return (key, reporting.1)

/-- A group ranks before another one with more observations, or with as many and a better-ranked
provider among them. -/
def groupKey (group : String × List ProviderObservation) : ℕᵒᵈ ×ₗ ℕ :=
  toLex (OrderDual.toDual group.2.length,
    ((group.2.map fun item => policy.rank item.provider).min?).getD 0)

/-- The first of the largest groups. -/
def winner (groups : List (String × List ProviderObservation)) : List ProviderObservation :=
  match (StableSort.sortBy (groupKey policy) groups).head? with
  | some group => group.2
  | none => []

/-- A field with its winning group. -/
def verdict (name : String) : Except Exc (String × List ProviderObservation) := do
  let keyed ← keyed text observations name
  return (name, winner policy (KeyedGroups.groups keyed))

/-- `len(winner) > len(observations) / 2`. -/
def decisive (verdict : String × List ProviderObservation) : Bool :=
  decide (observations.length < 2 * verdict.2.length)

/-- `sorted({key for item in observations for key in item.fields})`. -/
def fieldNames : List String :=
  StableSort.sortBy id (observations.flatMap fun item => item.fields.entries.map Prod.fst).dedup

/-- `winner[0].fields[name]`. -/
def agreedValue (verdict : String × List ProviderObservation) : Option (String × PyValue) := do
  let first ← verdict.2.head?
  let value ← first.fields.get? verdict.1
  return (verdict.1, value)

def provenanceOf (verdict : String × List ProviderObservation) : String × List String :=
  (verdict.1, StableSort.sortBy id (verdict.2.map (·.provider)))

/-- `consensus`, once the observations are found to be three and of one contract. -/
def agree : Except Exc ConsensusResult := do
  let verdicts ← (fieldNames observations).mapM (verdict text policy observations)
  let won := verdicts.filter (decisive observations)
  let unresolved := (verdicts.filter (!decisive observations ·)).map Prod.fst
  let fields := InsertionDict.ofEntries (won.filterMap agreedValue)
  let agreeing := (won.flatMap fun verdict => verdict.2.map (·.provider)).dedup
  let dissenting := (won.flatMap fun verdict =>
    (observations.filter fun item => !verdict.2.any item.pyEq).map (·.provider)).dedup
  let critical := unresolved.any fun name => name ∈ policy.criticalFields
  let severity :=
    if critical then .critical else if unresolved ≠ [] then .moderate else .informational
  let payload ← text.dumps (.dict [("fields", .dict fields.entries),
    ("unresolved", .list (unresolved.map .str)), ("policy", .str policy.version)])
  return {
    agreeingProviders := StableSort.sortBy id agreeing
    dissentingProviders := StableSort.sortBy id dissenting
    consensusFields := fields
    unresolvedFields := unresolved
    fieldProvenance := .ofEntries (won.map provenanceOf)
    policyVersion := policy.version
    confidence := agreeing.length / observations.length
    severity := severity
    warnings := if critical then ["Critical metadata conflict was not auto-resolved"] else []
    checksum := text.sha256 payload }

def consensus : Except Exc ConsensusResult :=
  if observations.length < 3 then
    .error ⟨.valueError, "Consensus requires at least three providers"⟩
  else if (observations.map fun item => item.identity.checksum text).dedup.length ≠ 1 then
    .error ⟨.valueError, "Consensus identity conflict requires manual review"⟩
  else agree text policy observations

/-! ### Groups of reporters -/

/-- The value of the field has the JSON `key`. -/
def reports (name key : String) (item : ProviderObservation) : Bool :=
  match item.reported name with
  | some value => match text.dumps value with
    | .ok encoded => encoded = key
    | .error _ => false
  | none => false

def reporters (name key : String) : List ProviderObservation :=
  observations.filter (reports text name key)

/-- The providers that have an observation. -/
def providers : List String := (observations.map (·.provider)).dedup

variable {text policy observations} {name key : String}

theorem reports_iff {item : ProviderObservation} :
    reports text name key item = true ↔
      ∃ value, item.reported name = some value ∧ text.dumps value = .ok key := by
  rw [reports]
  cases item.reported name with
  | none => simp
  | some value =>
    cases hdumps : text.dumps value with
    | ok encoded => simp [hdumps]
    | error e => simp [hdumps]

theorem mem_reporters {item : ProviderObservation} :
    item ∈ reporters text observations name key ↔
      item ∈ observations ∧ ∃ value, item.reported name = some value ∧
        text.dumps value = .ok key := by
  rw [reporters, List.mem_filter, reports_iff]

/-- The group of a JSON text has its reporters, in their order. -/
theorem itemsOf_keyed {rows : List (String × ProviderObservation)}
    (h : keyed text observations name = .ok rows) :
    KeyedGroups.itemsOf key rows = reporters text observations name key := by
  induction observations generalizing rows with
  | nil =>
    cases h
    rfl
  | cons item rest ih =>
    rw [keyed] at h
    cases hreported : item.reported name with
    | none =>
      rw [List.filterMap_cons_none (by rw [hreported]; rfl)] at h
      rw [ih h, reporters, reporters, List.filter_cons_of_neg (by simp [reports, hreported])]
    | some value =>
      rw [List.filterMap_cons_some (by rw [hreported]; rfl), List.mapM_cons] at h
      obtain ⟨row, hrow, h⟩ := except_bind_eq_ok.mp h
      obtain ⟨tail, htail, h⟩ := except_bind_eq_ok.mp h
      obtain ⟨encoded, hencoded, hrow⟩ := except_bind_eq_ok.mp hrow
      cases h
      cases hrow
      have htail := ih htail
      rw [KeyedGroups.itemsOf] at htail ⊢
      by_cases hkey : encoded = key
      · rw [List.filter_cons_of_pos (by simpa using hkey), List.map_cons, htail, reporters,
          reporters, List.filter_cons_of_pos (reports_iff.mpr ⟨value, hreported, hkey ▸ hencoded⟩)]
      · rw [List.filter_cons_of_neg (by simpa using hkey), htail, reporters,
          reporters, List.filter_cons_of_neg (by simp [reports, hreported, hencoded, hkey])]

/-- Observations that agree on different texts are different observations. -/
theorem length_reporters_add_le {other : String} (hne : key ≠ other) :
    (reporters text observations name key).length +
        (reporters text observations name other).length ≤ observations.length := by
  have hdisjoint : ∀ item ∈ observations, reports text name other item = true →
      (!reports text name key item) = true := by
    intro item _ hother
    rw [Bool.not_eq_true', Bool.eq_false_iff]
    intro hkey
    obtain ⟨value, hvalue, hdumps⟩ := reports_iff.mp hkey
    obtain ⟨value', hvalue', hdumps'⟩ := reports_iff.mp hother
    obtain rfl := Option.some_inj.mp (hvalue.symm.trans hvalue')
    exact hne (Except.ok.inj (hdumps.symm.trans hdumps'))
  have hle := List.countP_mono_left hdisjoint
  rw [List.countP_eq_length_filter, List.countP_eq_length_filter] at hle
  calc (reporters text observations name key).length +
        (reporters text observations name other).length
      ≤ (observations.filter (reports text name key)).length +
        (observations.filter (!reports text name key ·)).length := Nat.add_le_add_left hle _
    _ = observations.length := (List.length_eq_length_filter_add _).symm

variable (policy) in
/-- The winning group is that of one text, and no other group is larger. -/
theorem winner_spec {rows : List (String × ProviderObservation)}
    (h : keyed text observations name = .ok rows) :
    (winner policy (KeyedGroups.groups rows) = [] ∧
        ∀ key, reporters text observations name key = []) ∨
      ∃ key, winner policy (KeyedGroups.groups rows) = reporters text observations name key ∧
        ∀ other, (reporters text observations name other).length ≤
          (reporters text observations name key).length := by
  rw [winner]
  cases hhead : (StableSort.sortBy (groupKey policy) (KeyedGroups.groups rows)).head? with
  | none =>
    refine .inl ⟨rfl, fun key => ?_⟩
    have hnone : KeyedGroups.groups rows = [] := by
      have hperm : (StableSort.sortBy (groupKey policy) (KeyedGroups.groups rows)).Perm
          (KeyedGroups.groups rows) := StableSort.sortBy_perm
      rw [List.head?_eq_none_iff.mp hhead] at hperm
      exact hperm.nil_eq.symm
    rw [← itemsOf_keyed h]
    by_contra hne
    have hmem := KeyedGroups.mem_groups.mpr ⟨hne, rfl⟩
    rw [hnone] at hmem
    cases hmem
  | some group =>
    obtain ⟨key, items⟩ := group
    obtain ⟨hmem, hleast⟩ := StableSort.head?_sortBy hhead
    obtain ⟨-, rfl⟩ := KeyedGroups.mem_groups.mp hmem
    refine .inr ⟨key, itemsOf_keyed h, fun other => ?_⟩
    rw [← itemsOf_keyed h, ← itemsOf_keyed h]
    by_cases hempty : KeyedGroups.itemsOf other rows = []
    · rw [hempty]
      exact Nat.zero_le _
    · have hle := hleast (other, _) (KeyedGroups.mem_groups.mpr ⟨hempty, rfl⟩)
      rcases Prod.Lex.toLex_le_toLex.mp hle with hlt | ⟨heq, -⟩
      · exact hlt.le
      · exact (OrderDual.toDual_inj.mp heq).ge

/-- A group with more than half of the observations wins. -/
theorem winner_of_majority {rows : List (String × ProviderObservation)}
    (h : keyed text observations name = .ok rows)
    (hmajority : observations.length < 2 * (reporters text observations name key).length) :
    winner policy (KeyedGroups.groups rows) = reporters text observations name key := by
  rcases winner_spec policy h with ⟨-, hnone⟩ | ⟨other, hwinner, hlargest⟩
  · rw [hnone key] at hmajority
    exact absurd hmajority (Nat.not_lt_zero _)
  · by_cases heq : other = key
    · rw [hwinner, heq]
    · have hsum : (reporters text observations name other).length +
          (reporters text observations name key).length ≤ observations.length :=
        length_reporters_add_le heq
      have hle := hlargest key
      omega

/-! ### The verdicts -/

variable {verdicts : List (String × List ProviderObservation)} {result : ConsensusResult}

theorem mem_fieldNames :
    name ∈ fieldNames observations ↔
      ∃ item ∈ observations, name ∈ item.fields.entries.map Prod.fst := by
  rw [fieldNames, StableSort.mem_sortBy, List.mem_dedup, List.mem_flatMap]

theorem nodup_verdicts
    (h : (fieldNames observations).mapM (verdict text policy observations) = .ok verdicts) :
    (verdicts.map Prod.fst).Nodup := by
  have hnames : verdicts.map Prod.fst = (fieldNames observations).map id := by
    refine map_eq_of_mapM_eq_ok h fun name result hresult => ?_
    obtain ⟨rows, -, hresult⟩ := except_bind_eq_ok.mp hresult
    cases hresult
    rfl
  rw [hnames, List.map_id]
  exact StableSort.sortBy_perm.nodup_iff.mpr (List.nodup_dedup _)

/-- The decisive verdicts are the groups with more than half of the observations. -/
theorem mem_won_iff
    (h : (fieldNames observations).mapM (verdict text policy observations) = .ok verdicts)
    {group : List ProviderObservation} :
    (name, group) ∈ verdicts.filter (decisive observations) ↔
      ∃ key, group = reporters text observations name key ∧
        observations.length < 2 * (reporters text observations name key).length := by
  rw [List.mem_filter, decisive, decide_eq_true_eq]
  constructor
  · rintro ⟨hmem, hmajority⟩
    obtain ⟨name', -, hverdict⟩ := (mapM_eq_ok_mem h).2 _ hmem
    obtain ⟨rows, hrows, hverdict⟩ := except_bind_eq_ok.mp hverdict
    obtain ⟨rfl, rfl⟩ := Prod.mk.inj (Except.ok.inj hverdict)
    rcases winner_spec policy hrows with ⟨hnone, -⟩ | ⟨key, hwinner, -⟩
    · rw [hnone] at hmajority
      exact absurd hmajority (Nat.not_lt_zero _)
    · exact ⟨key, hwinner, hwinner ▸ hmajority⟩
  · rintro ⟨key, rfl, hmajority⟩
    have hne : reporters text observations name key ≠ [] := by
      intro hnil
      rw [hnil] at hmajority
      exact absurd hmajority (Nat.not_lt_zero _)
    obtain ⟨item, hitem⟩ := List.exists_mem_of_ne_nil _ hne
    obtain ⟨hobservation, value, hvalue, -⟩ := mem_reporters.mp hitem
    have hname : name ∈ fieldNames observations :=
      mem_fieldNames.mpr ⟨item, hobservation, List.mem_map_of_mem (f := Prod.fst)
        (ProviderReconciliation.reported_eq_some_iff.mp hvalue).1⟩
    obtain ⟨result, hresult, hverdict⟩ := (mapM_eq_ok_mem h).1 name hname
    obtain ⟨rows, hrows, hverdict⟩ := except_bind_eq_ok.mp hverdict
    cases hverdict
    rw [winner_of_majority hrows hmajority] at hresult
    exact ⟨hresult, hmajority⟩

theorem consensus_spec (h : consensus text policy observations = .ok result) :
    ∃ verdicts, (fieldNames observations).mapM (verdict text policy observations) = .ok verdicts ∧
      result.consensusFields = .ofEntries
        ((verdicts.filter (decisive observations)).filterMap agreedValue) ∧
      result.fieldProvenance =
        .ofEntries ((verdicts.filter (decisive observations)).map provenanceOf) := by
  rw [consensus] at h
  split_ifs at h
  obtain ⟨verdicts, hverdicts, h⟩ := except_bind_eq_ok.mp h
  obtain ⟨payload, -, h⟩ := except_bind_eq_ok.mp h
  cases h
  exact ⟨verdicts, hverdicts, rfl, rfl⟩

theorem agreedValue_fst {verdict : String × List ProviderObservation} {entry : String × PyValue}
    (h : agreedValue verdict = some entry) : entry.1 = verdict.1 := by
  obtain ⟨first, -, h⟩ := Option.bind_eq_some_iff.mp h
  obtain ⟨value, -, h⟩ := Option.bind_eq_some_iff.mp h
  cases h
  rfl

/-- A consensus value is the first one of a group with more than half of the observations. -/
theorem consensusFields_spec (h : consensus text policy observations = .ok result)
    {value : PyValue} (hvalue : result.consensusFields.get? name = some value) :
    ∃ key, text.dumps value = .ok key ∧
      observations.length < 2 * (reporters text observations name key).length := by
  obtain ⟨verdicts, hverdicts, hfields, -⟩ := consensus_spec h
  have hnodup : (((verdicts.filter (decisive observations)).filterMap agreedValue).map
      Prod.fst).Nodup := by
    have hwon := (nodup_verdicts hverdicts).sublist
      ((List.filter_sublist (p := decisive observations)).map Prod.fst)
    refine hwon.sublist ?_
    generalize verdicts.filter (decisive observations) = won
    induction won with
    | nil => exact .slnil
    | cons verdict rest ih =>
      cases hagreed : agreedValue verdict with
      | none =>
        rw [List.filterMap_cons_none hagreed]
        exact ih.cons _
      | some entry =>
        rw [List.filterMap_cons_some hagreed, List.map_cons, List.map_cons,
          agreedValue_fst hagreed]
        exact ih.cons_cons _
  rw [hfields, InsertionDict.get?_ofEntries hnodup] at hvalue
  obtain ⟨⟨name', group⟩, hwon, hagreed⟩ := List.mem_filterMap.mp hvalue
  obtain ⟨first, hfirst, hagreed⟩ := Option.bind_eq_some_iff.mp hagreed
  obtain ⟨value', hvalue', hagreed⟩ := Option.bind_eq_some_iff.mp hagreed
  cases hagreed
  obtain ⟨key, rfl, hmajority⟩ := (mem_won_iff hverdicts).mp hwon
  obtain ⟨-, value'', hreported, hdumps⟩ := mem_reporters.mp (List.mem_of_head? hfirst)
  have hsame := InsertionDict.get?_eq_some_iff.mpr
    (ProviderReconciliation.reported_eq_some_iff.mp hreported).1
  obtain rfl := Option.some_inj.mp (hvalue'.symm.trans hsame)
  exact ⟨key, hdumps, hmajority⟩

/-- The sources of a field are the providers of a group with more than half of the observations. -/
theorem fieldProvenance_iff (h : consensus text policy observations = .ok result)
    {sources : List String} :
    result.fieldProvenance.get? name = some sources ↔
      ∃ key, sources =
          StableSort.sortBy id ((reporters text observations name key).map (·.provider)) ∧
        observations.length < 2 * (reporters text observations name key).length := by
  obtain ⟨verdicts, hverdicts, -, hprovenance⟩ := consensus_spec h
  have hnodup : (((verdicts.filter (decisive observations)).map provenanceOf).map
      Prod.fst).Nodup := by
    rw [List.map_map]
    exact (nodup_verdicts hverdicts).sublist (List.filter_sublist.map Prod.fst)
  rw [hprovenance, InsertionDict.get?_ofEntries hnodup, List.mem_map]
  constructor
  · rintro ⟨⟨name', group⟩, hwon, heq⟩
    obtain ⟨rfl, rfl⟩ := Prod.mk.inj heq
    obtain ⟨key, rfl, hmajority⟩ := (mem_won_iff hverdicts).mp hwon
    exact ⟨key, rfl, hmajority⟩
  · rintro ⟨key, rfl, hmajority⟩
    exact ⟨_, (mem_won_iff hverdicts).mpr ⟨key, rfl, hmajority⟩, rfl⟩

/-- The result stands for a majority of three providers at least, each counted once. -/
structure MajorityOfProviders (text : ReconciliationText)
    (observations : List ProviderObservation) (result : ConsensusResult) : Prop where
  three : 3 ≤ (providers observations).length
  majority : ∀ name value, result.consensusFields.get? name = some value →
    ∃ key, text.dumps value = .ok key ∧ (providers observations).length <
      2 * (providers (reporters text observations name key)).length
  once : ∀ name sources, result.fieldProvenance.get? name = some sources → sources.Nodup

/-- A result is a majority of providers exactly when there are three of them and none stands twice
in a group with more than half of the observations. -/
theorem majorityOfProviders_iff (text : ReconciliationText) (policy : ReconciliationPolicy)
    (observations : List ProviderObservation) {result : ConsensusResult}
    (h : consensus text policy observations = .ok result) :
    MajorityOfProviders text observations result ↔
      3 ≤ (providers observations).length ∧
        ∀ name key, observations.length < 2 * (reporters text observations name key).length →
          ((reporters text observations name key).map (·.provider)).Nodup := by
  constructor
  · rintro ⟨hthree, -, honce⟩
    refine ⟨hthree, fun name key hmajority => ?_⟩
    have hsources := honce name _ ((fieldProvenance_iff h).mpr ⟨key, rfl, hmajority⟩)
    exact StableSort.sortBy_perm.nodup_iff.mp hsources
  · rintro ⟨hthree, hnodup⟩
    refine ⟨hthree, fun name value hvalue => ?_, fun name sources hsources => ?_⟩
    · obtain ⟨key, hdumps, hmajority⟩ := consensusFields_spec h hvalue
      refine ⟨key, hdumps, ?_⟩
      have hproviders : (providers observations).length ≤ observations.length := by
        rw [providers]
        exact (List.dedup_sublist _).length_le.trans_eq (List.length_map _)
      have hreporters : (providers (reporters text observations name key)).length =
          (reporters text observations name key).length := by
        rw [providers, (hnodup name key hmajority).dedup, List.length_map]
      omega
    · obtain ⟨key, rfl, hmajority⟩ := (fieldProvenance_iff h).mp hsources
      exact StableSort.sortBy_perm.nodup_iff.mpr (hnodup name key hmajority)

/-- Two of three providers agree. -/
def twoAgree : List ProviderObservation :=
  [ProviderReconciliation.multiplierObservation "cboe" "SPY" 100,
    ProviderReconciliation.multiplierObservation "orats" "SPY" 100,
    ProviderReconciliation.multiplierObservation "polygon" "SPY" 10]

theorem majorityOfProviders_twoAgree : ∃ result,
    consensus plainReconciliationText {} twoAgree = .ok result ∧
      MajorityOfProviders plainReconciliationText twoAgree result := by
  have hreturns : (consensus plainReconciliationText {} twoAgree).isOk = true := by decide +kernel
  have hproviders : (twoAgree.map (·.provider)).Nodup := by decide
  cases hresult : consensus plainReconciliationText {} twoAgree with
  | error e =>
    rw [hresult] at hreturns
    cases hreturns
  | ok result =>
    exact ⟨result, rfl, (majorityOfProviders_iff plainReconciliationText {} twoAgree hresult).mpr
      ⟨by decide, fun name key _ => hproviders.sublist (List.filter_sublist.map _)⟩⟩

/-- One provider, three times. -/
def oneThrice : List ProviderObservation :=
  List.replicate 3 (ProviderReconciliation.multiplierObservation "cboe" "SPY" 100)

theorem consensus_oneThrice : ∃ result,
    consensus plainReconciliationText {} oneThrice = .ok result ∧
      result.agreeingProviders = ["cboe"] ∧
      result.consensusFields.entries.map Prod.fst = ["multiplier"] ∧
      ¬ MajorityOfProviders plainReconciliationText oneThrice result := by
  have hsummary : (consensus plainReconciliationText {} oneThrice).toOption.map
      (fun result => (result.agreeingProviders, result.consensusFields.entries.map Prod.fst)) =
        some (["cboe"], ["multiplier"]) := by decide +kernel
  cases hresult : consensus plainReconciliationText {} oneThrice with
  | error e =>
    rw [hresult] at hsummary
    cases hsummary
  | ok result =>
    rw [hresult] at hsummary
    obtain ⟨hagreeing, hfields⟩ := Prod.mk.inj (Option.some_inj.mp hsummary)
    exact ⟨result, rfl, hagreeing, hfields, fun h => absurd h.three (by decide)⟩

end ProviderConsensus
end OptionResearch
