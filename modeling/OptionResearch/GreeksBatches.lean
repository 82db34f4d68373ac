import OptionResearch.GreeksGuarantees

/-!
# Batches of Greeks

The arrays of the Black-Scholes model hold what it calculates for each request, and a batch of the
engine, which is dealt to the models and put together again, what the engine calculates for each.
-/

namespace OptionResearch

open NormalDistribution LognormalOptions

variable {request : ContractRequest ℝ}

/-! ### The arrays -/

namespace BlackScholesGreeksModel

/-- A day is long enough for the bound of the root in the arrays. -/
theorem floor_le_sqrt {t : ℝ} (h : (1 : ℝ) / 365 ≤ t) : (1e-12 : ℝ) ≤ √t := by
  refine Real.le_sqrt_of_sq_le (le_trans ?_ h)
  norm_num

theorem day_le_yearFraction (h : request.valuationDate < request.expiry) :
    (1 : ℝ) / 365 ≤ yearFraction request.valuationDate request.expiry := by
  have hdays : 1 ≤ request.expiry.toordinal - request.valuationDate.toordinal :=
    Int.add_one_le_iff.mpr (sub_pos.mpr h)
  have hcast : (1 : ℝ) ≤ ((request.expiry.toordinal - request.valuationDate.toordinal : ℤ) : ℝ) :=
    mod_cast hdays
  exact div_le_div_of_nonneg_right hcast (by norm_num)

theorem batchEntry_live (h : Live request) :
    batchEntry normalArrays request =
      greeksOf normalMath request
        (closedTerms request (yearFraction request.valuationDate request.expiry)) := by
  have ht := h.time_pos
  have hroot : 0 < √(yearFraction request.valuationDate request.expiry : ℝ) := Real.sqrt_pos.mpr ht
  have hmask : (0 : ℝ) < yearFraction request.valuationDate request.expiry ∧
      0 < request.volatility ∧
        0 < request.volatility * √(yearFraction request.valuationDate request.expiry) :=
    ⟨ht, h.volatile, mul_pos h.volatile hroot⟩
  have hfloor := floor_le_sqrt (day_le_yearFraction h.unexpired)
  have hpdf : ∀ x : ℝ, normalArrays.exp (-0.5 * x ^ 2) / normalArrays.sqrtTwoPi = density x := by
    intro x
    rw [pow_two, ← mul_assoc]
    rfl
  have hsqrt : ∀ x, normalArrays.sqrt x = √x := fun _ => rfl
  unfold batchEntry
  simp only [hsqrt, max_eq_left ht.le, masked, if_pos hmask, if_neg (not_not.mpr hmask),
    max_eq_left hfloor, hpdf]
  rfl

/-- A request without time or volatility left. -/
def Over (request : ContractRequest ℝ) : Prop :=
  (yearFraction request.valuationDate request.expiry : ℝ) ≤ 0 ∨ request.volatility ≤ 0

theorem live_or_over (h : GreeksEngine.validateRequest request = .ok ()) :
    Live request ∨ Over request := by
  by_cases hover : Over request
  · exact .inr hover
  · obtain ⟨htime, hvolatility⟩ := not_or.mp hover
    refine .inl ⟨h, not_le.mp hvolatility, ?_⟩
    have hdays : (0 : ℝ) < ((request.expiry.toordinal - request.valuationDate.toordinal : ℤ) : ℝ) :=
      pos_of_mul_pos_left (not_le.mp htime) (by norm_num)
    rw [OrdinalDate.lt_iff]
    exact sub_pos.mp (Int.cast_pos.mp hdays)

theorem calculate_over (h : Over request) :
    calculate normalMath request =
      .ok (degenerate (yearFraction request.valuationDate request.expiry)) := by
  have hsqrt : ∀ t : ℝ, ∃ root, sqrtOrZero normalMath t = .ok root := by
    intro t
    by_cases ht : 0 < t
    · exact ⟨_, (if_pos ht).trans (sqrt_realClosedForm ht.le)⟩
    · exact ⟨_, if_neg ht⟩
  obtain ⟨root, hroot⟩ := hsqrt (yearFraction request.valuationDate request.expiry)
  have hover : (yearFraction request.valuationDate request.expiry : ℝ) ≤ 0 ∨
      request.volatility ≤ 0 := h
  rw [calculate, calculateAt, blackScholesTermsAt, hroot, except_ok_bind, if_pos hover]
  exact if_pos hover

theorem batchEntry_over (h : Over request) :
    batchEntry normalArrays request =
      degenerate (yearFraction request.valuationDate request.expiry) := by
  have hmask : ¬ ((0 : ℝ) < yearFraction request.valuationDate request.expiry ∧
      0 < request.volatility ∧ 0 < request.volatility *
        normalArrays.sqrt (max (yearFraction request.valuationDate request.expiry) 0)) := by
    rintro ⟨htime, hvolatility, -⟩
    rcases h with hle | hle
    · exact not_le.mpr htime hle
    · exact not_le.mpr hvolatility hle
  exact if_pos hmask

/-- The arrays hold what is calculated one by one. -/
theorem calculate_eq_batchEntry (h : GreeksEngine.validateRequest request = .ok ()) :
    calculate normalMath request = .ok (batchEntry normalArrays request) := by
  rcases live_or_over h with hlive | hover
  · rw [hlive.calculate_eq, batchEntry_live hlive, greeksOf_closedTerms]
  · rw [calculate_over hover, batchEntry_over hover]

end BlackScholesGreeksModel

/-! ### Checks and results of a traversal -/

section Traversals

variable {ε κ α β γ : Type}

theorem forM_eq_ok_iff {check : α → Except ε Unit} {items : List α} :
    forM items check = .ok () ↔ ∀ item ∈ items, check item = .ok () := by
  induction items with
  | nil => exact iff_of_true rfl fun _ hmem => absurd hmem List.not_mem_nil
  | cons item rest ih =>
    rw [List.forall_mem_cons, ← ih]
    constructor
    · intro h
      obtain ⟨_, hitem, hrest⟩ := except_bind_eq_ok.mp h
      exact ⟨hitem, hrest⟩
    · rintro ⟨hitem, hrest⟩
      exact except_bind_eq_ok.mpr ⟨(), hitem, hrest⟩

/-- A traversal in two steps is one traversal after the other, where both return. -/
theorem mapM_bind_eq_ok_iff {f : α → Except ε β} {g : β → Except ε γ} {items : List α}
    {results : List γ} :
    (items.mapM fun item => f item >>= g) = .ok results ↔
      ∃ made, items.mapM f = .ok made ∧ made.mapM g = .ok results := by
  induction items generalizing results with
  | nil =>
    constructor
    · intro h
      exact ⟨[], rfl, h⟩
    · rintro ⟨made, hmade, h⟩
      cases hmade
      exact h
  | cons item rest ih =>
    rw [List.mapM_cons, List.mapM_cons]
    constructor
    · intro h
      obtain ⟨result, hitem, h⟩ := except_bind_eq_ok.mp h
      obtain ⟨first, hfirst, hresult⟩ := except_bind_eq_ok.mp hitem
      obtain ⟨others, hrest, h⟩ := except_bind_eq_ok.mp h
      obtain ⟨made, hmade, hothers⟩ := ih.mp hrest
      refine ⟨first :: made, ?_, ?_⟩
      · rw [hfirst, hmade]
        rfl
      · rw [List.mapM_cons, hresult, hothers]
        exact h
    · rintro ⟨made, hmade, h⟩
      obtain ⟨first, hfirst, hmade⟩ := except_bind_eq_ok.mp hmade
      obtain ⟨others, hothers, hmade⟩ := except_bind_eq_ok.mp hmade
      cases hmade
      rw [List.mapM_cons] at h
      obtain ⟨result, hresult, h⟩ := except_bind_eq_ok.mp h
      obtain ⟨results', hresults, h⟩ := except_bind_eq_ok.mp h
      rw [hfirst, except_ok_bind, hresult, ih.mpr ⟨others, hothers, hresults⟩]
      exact h

/-- Where every item passes its check, the checks leave the results as they are. -/
theorem mapM_checked_eq_ok_iff {check : α → Except ε Unit} {f : α → Except ε β} {items : List α}
    {results : List β} :
    (items.mapM fun item => do check item; f item) = .ok results ↔
      (∀ item ∈ items, check item = .ok ()) ∧ items.mapM f = .ok results := by
  induction items generalizing results with
  | nil => exact (and_iff_right fun _ hmem => absurd hmem List.not_mem_nil).symm
  | cons item rest ih =>
    rw [List.mapM_cons, List.mapM_cons, List.forall_mem_cons]
    constructor
    · intro h
      obtain ⟨result, hitem, h⟩ := except_bind_eq_ok.mp h
      obtain ⟨_, hcheck, hresult⟩ := except_bind_eq_ok.mp hitem
      obtain ⟨others, hrest, h⟩ := except_bind_eq_ok.mp h
      obtain ⟨hchecks, hothers⟩ := ih.mp hrest
      refine ⟨⟨hcheck, hchecks⟩, ?_⟩
      rw [hresult, except_ok_bind, hothers]
      exact h
    · rintro ⟨⟨hcheck, hchecks⟩, h⟩
      obtain ⟨result, hresult, h⟩ := except_bind_eq_ok.mp h
      obtain ⟨others, hothers, h⟩ := except_bind_eq_ok.mp h
      rw [hcheck, except_ok_bind, hresult, except_ok_bind, ih.mpr ⟨hchecks, hothers⟩]
      exact h

variable [DecidableEq κ] {key : α → κ} {f : α → Except ε β}

/-- The pass of a loop that stores what is made of an item under the item's key. -/
def store (key : α → κ) (f : α → Except ε β) (stored : InsertionDict κ β) (item : α) :
    Except ε (InsertionDict κ β) := do
  let value ← f item
  return stored.set (key item) value

/-- Under distinct keys, each is left with what was made of its own item. -/
theorem get?_of_foldlM_store {items : List α} {stored filled : InsertionDict κ β}
    (hkeys : (items.map key).Nodup) (h : items.foldlM (store key f) stored = .ok filled) :
    (∀ item ∈ items, ∃ value, f item = .ok value ∧ filled.get? (key item) = some value) ∧
      ∀ other ∉ items.map key, filled.get? other = stored.get? other := by
  induction items generalizing stored with
  | nil =>
    cases h
    exact ⟨fun _ hmem => absurd hmem List.not_mem_nil, fun _ _ => rfl⟩
  | cons item rest ih =>
    obtain ⟨hfresh, hrest⟩ := List.nodup_cons.mp hkeys
    rw [List.foldlM_cons] at h
    obtain ⟨next, hnext, h⟩ := except_bind_eq_ok.mp h
    obtain ⟨value, hvalue, hnext⟩ := except_bind_eq_ok.mp hnext
    cases hnext
    obtain ⟨hmade, hothers⟩ := ih hrest h
    refine ⟨List.forall_mem_cons.mpr ⟨⟨value, hvalue, ?_⟩, hmade⟩, fun other hother => ?_⟩
    · rw [hothers _ hfresh, InsertionDict.get?_set, if_pos rfl]
    · obtain ⟨hne, hother⟩ := not_or.mp fun hmem => hother (List.mem_cons.mpr hmem)
      rw [hothers _ hother, InsertionDict.get?_set, if_neg hne]

theorem exists_foldlM_store (key : α → κ) {items : List α}
    (h : ∀ item ∈ items, ∃ value, f item = .ok value) (stored : InsertionDict κ β) :
    ∃ filled, items.foldlM (store key f) stored = .ok filled := by
  induction items generalizing stored with
  | nil => exact ⟨stored, rfl⟩
  | cons item rest ih =>
    obtain ⟨⟨value, hvalue⟩, hrest⟩ := List.forall_mem_cons.mp h
    obtain ⟨filled, hfilled⟩ := ih hrest (stored.set (key item) value)
    refine ⟨filled, ?_⟩
    rw [List.foldlM_cons, store, hvalue]
    exact hfilled

/-- Making all values first and storing them afterwards is storing one after the other. -/
theorem mapM_foldl_set (key : α → κ) (items : List α) (stored : InsertionDict κ β) :
    (do let values ← items.mapM f
        return (items.zip values).foldl (fun stored entry => stored.set (key entry.1) entry.2)
          stored) = items.foldlM (store key f) stored := by
  induction items generalizing stored with
  | nil => rfl
  | cons item rest ih =>
    rw [List.mapM_cons, List.foldlM_cons, store]
    cases hvalue : f item with
    | error e => rfl
    | ok value =>
      rw [except_ok_bind, except_ok_bind]
      exact (bind_assoc _ _ _).trans (ih (stored.set (key item) value))

end Traversals

/-! ### The engine -/

namespace GreeksEngine

variable {price : PricingModelName → ContractRequest ℝ → Except Exc ℝ}
  {modelName : PricingModelName} {requests : List (ContractRequest ℝ)} {results : List (GreeksResult ℝ)}

/-- Every model of the engine calculates a batch as its requests one by one. -/
theorem calculateBatch_models (modelName : PricingModelName)
    (h : ∀ request ∈ requests, validateRequest request = .ok ()) :
    ((normalEngine price).models modelName).calculateBatch requests =
      requests.mapM ((normalEngine price).models modelName).calculate := by
  cases modelName with
  | blackScholes =>
    exact (mapM_eq_ok_map fun request hrequest =>
      BlackScholesGreeksModel.calculate_eq_batchEntry (h request hrequest)).symm
  | black76 | binomialTree | coxRossRubinstein | baroneAdesiWhaley | bjerksundStensland => rfl

/-- The checks of a request for a model. -/
noncomputable def checked (engine : GreeksEngine ℝ) (modelName : PricingModelName)
    (request : ContractRequest ℝ) : Except Exc Unit := do
  validateRequest request
  engine.assertSupported modelName request

theorem validateRequest_of_checked {engine : GreeksEngine ℝ} {request : ContractRequest ℝ}
    (h : checked engine modelName request = .ok ()) : validateRequest request = .ok () := by
  obtain ⟨_, hvalid, -⟩ := except_bind_eq_ok.mp h
  exact hvalid

/-- A batch for one model. -/
theorem calculateBatch_named_iff :
    (normalEngine price).calculateBatch requests (some modelName) = .ok results ↔
      (requests.mapM fun request => (normalEngine price).calculate request (some modelName)) =
        .ok results := by
  have hsingle : ∀ request, (normalEngine price).calculate request (some modelName) = (do
      checked (normalEngine price) modelName request
      ((normalEngine price).models modelName).calculate request) := by
    intro request
    simp only [calculate, checked, selectModel, bind_assoc, except_ok_bind]
  have hbatch : (normalEngine price).calculateBatch requests (some modelName) = (do
      forM requests (checked (normalEngine price) modelName)
      ((normalEngine price).models modelName).calculateBatch requests) := rfl
  simp only [hsingle]
  rw [mapM_checked_eq_ok_iff, hbatch, ← forM_eq_ok_iff]
  constructor
  · intro h
    obtain ⟨_, hchecks, hresults⟩ := except_bind_eq_ok.mp h
    rw [calculateBatch_models modelName fun request hrequest =>
      validateRequest_of_checked (forM_eq_ok_iff.mp hchecks request hrequest)] at hresults
    exact ⟨hchecks, hresults⟩
  · rintro ⟨hchecks, hresults⟩
    rw [← calculateBatch_models modelName fun request hrequest =>
      validateRequest_of_checked (forM_eq_ok_iff.mp hchecks request hrequest)] at hresults
    exact except_bind_eq_ok.mpr ⟨(), hchecks, hresults⟩

/-- A model that the router decides for supports the style of the request. -/
theorem assertSupported_of_route {request : ContractRequest ℝ}
    (h : (normalEngine price).routerConfig.route request = .ok modelName) :
    (normalEngine price).assertSupported modelName request = .ok () := by
  have hstyle :
      request.exerciseStyle ∈ ((normalEngine price).models modelName).supportedStyles := by
    rw [PricingRouterConfig.route] at h
    split at h <;> cases h <;> simp_all [normalEngine, models]
  exact if_neg (not_not.mpr hstyle)

/-- What is calculated for a request under the model that it is routed to. -/
noncomputable def calculateRouted (engine : GreeksEngine ℝ)
    (entry : PricingModelName × (ℕ × ContractRequest ℝ)) : Except Exc (GreeksResult ℝ) :=
  (engine.models entry.1).calculate entry.2.2

theorem routed_eq_ok {engine : GreeksEngine ℝ} {request : ContractRequest ℝ} {idx : ℕ}
    {entry : PricingModelName × (ℕ × ContractRequest ℝ)}
    (h : engine.routed (request, idx) = .ok entry) :
    validateRequest request = .ok () ∧ entry.2 = (idx, request) := by
  obtain ⟨_, hvalid, h⟩ := except_bind_eq_ok.mp h
  obtain ⟨_, _, h⟩ := except_bind_eq_ok.mp h
  cases h
  exact ⟨hvalid, rfl⟩

theorem calculate_eq_routed (entry : ContractRequest ℝ × ℕ) :
    (normalEngine price).calculate entry.1 none =
      (normalEngine price).routed entry >>= calculateRouted (normalEngine price) := by
  simp only [calculate, routed, selectModel, bind_assoc, pure_bind]
  cases hvalid : validateRequest entry.1 with
  | error e => rfl
  | ok _ =>
    rw [except_ok_bind, except_ok_bind]
    cases hroute : (normalEngine price).routerConfig.route entry.1 with
    | error e => rfl
    | ok modelName =>
      rw [except_ok_bind, except_ok_bind, assertSupported_of_route hroute]
      rfl

/-- The results of a group are stored as if each request were calculated and stored by itself. -/
theorem routeGroup_eq {group : PricingModelName × List (ℕ × ContractRequest ℝ)}
    (hvalid : ∀ row ∈ group.2, validateRequest row.2 = .ok ())
    (stored : InsertionDict ℕ (GreeksResult ℝ)) :
    (normalEngine price).routeGroup stored group =
      (group.2.map (Prod.mk group.1)).foldlM
        (store (fun entry => entry.2.1) (calculateRouted (normalEngine price))) stored := by
  have hbatch : ((normalEngine price).models group.1).calculateBatch (group.2.map Prod.snd) =
      group.2.mapM fun row => calculateRouted (normalEngine price) (group.1, row) := by
    rw [calculateBatch_models group.1 (List.forall_mem_map.mpr hvalid), List.mapM_map]
    rfl
  rw [List.foldlM_map, routeGroup, hbatch]
  refine Eq.trans ?_ (mapM_foldl_set Prod.fst group.2 stored)
  cases hresults : group.2.mapM fun row =>
      calculateRouted (normalEngine price) (group.1, row) with
  | error e => rfl
  | ok batchResults =>
    rw [except_ok_bind, except_ok_bind]
    exact if_pos (forall₂_of_mapM_eq_ok hresults).length_eq.symm

theorem foldlM_routeGroup {groups : List (PricingModelName × List (ℕ × ContractRequest ℝ))}
    (hvalid : ∀ group ∈ groups, ∀ row ∈ group.2, validateRequest row.2 = .ok ())
    (stored : InsertionDict ℕ (GreeksResult ℝ)) :
    groups.foldlM (normalEngine price).routeGroup stored =
      (groups.flatMap fun group => group.2.map (Prod.mk group.1)).foldlM
        (store (fun entry => entry.2.1) (calculateRouted (normalEngine price))) stored := by
  induction groups generalizing stored with
  | nil => rfl
  | cons group rest ih =>
    obtain ⟨hgroup, hrest⟩ := List.forall_mem_cons.mp hvalid
    rw [List.foldlM_cons, List.flatMap_cons, List.foldlM_append, routeGroup_eq hgroup]
    exact bind_congr fun next => ih hrest next

/-- The results are read back by index as if they had been calculated in the order of the
requests. -/
theorem collect_routed_iff {entries : List (PricingModelName × (ℕ × ContractRequest ℝ))} {n : ℕ}
    (hindices : (entries.map fun entry => entry.2.1) = List.range n)
    (hvalid : ∀ entry ∈ entries, validateRequest entry.2.2 = .ok ()) :
    (do let routedResults ← (KeyedGroups.groups entries).foldlM
          (normalEngine price).routeGroup .empty
        (List.range n).mapM (routedResult routedResults)) = .ok results ↔
      entries.mapM (calculateRouted (normalEngine price)) = .ok results := by
  let dealt := (KeyedGroups.groups entries).flatMap fun group => group.2.map (Prod.mk group.1)
  have hdealt : ∀ entry, entry ∈ dealt ↔ entry ∈ entries := by
    rintro ⟨modelName, row⟩
    refine Iff.trans ?_ KeyedGroups.mem_itemsOf
    constructor
    · intro hmem
      obtain ⟨group, hgroup, hrow⟩ := List.mem_flatMap.mp hmem
      obtain ⟨_, hrow, heq⟩ := List.mem_map.mp hrow
      cases heq
      exact (KeyedGroups.mem_groups.mp hgroup).2 ▸ hrow
    · intro hmem
      exact List.mem_flatMap.mpr ⟨(modelName, KeyedGroups.itemsOf modelName entries),
        KeyedGroups.mem_groups.mpr ⟨List.ne_nil_of_mem hmem, rfl⟩,
        List.mem_map.mpr ⟨row, hmem, rfl⟩⟩
  have hnodup : (dealt.map fun entry => entry.2.1).Nodup := by
    have hperm := (KeyedGroups.flatMap_groups_perm entries).map Prod.fst
    rw [List.map_map, Function.comp_def, hindices, List.map_flatMap] at hperm
    have hkeys : (dealt.map fun entry => entry.2.1) =
        (KeyedGroups.groups entries).flatMap fun group => group.2.map Prod.fst := by
      rw [List.map_flatMap]
      simp only [List.map_map, Function.comp_def]
    rw [hkeys]
    exact hperm.nodup_iff.mpr List.nodup_range
  have hgroups : ∀ group ∈ KeyedGroups.groups entries, ∀ row ∈ group.2,
      validateRequest row.2 = .ok () := by
    intro group hgroup row hrow
    rw [(KeyedGroups.mem_groups.mp hgroup).2] at hrow
    exact hvalid _ (KeyedGroups.mem_itemsOf.mp hrow)
  have hcollect : ∀ routedResults : InsertionDict ℕ (GreeksResult ℝ),
      (KeyedGroups.groups entries).foldlM (normalEngine price).routeGroup .empty =
        .ok routedResults →
      (List.range n).mapM (routedResult routedResults) =
        entries.mapM (calculateRouted (normalEngine price)) := by
    intro routedResults hrun
    rw [foldlM_routeGroup hgroups] at hrun
    have hstored := (get?_of_foldlM_store hnodup hrun).1
    rw [← hindices, List.mapM_map]
    refine except_mapM_congr fun entry hentry => ?_
    obtain ⟨value, hvalue, hget⟩ := hstored entry ((hdealt entry).mpr hentry)
    rw [hvalue, Function.comp_apply, routedResult, hget]
  constructor
  · intro h
    obtain ⟨routedResults, hrun, hresults⟩ := except_bind_eq_ok.mp h
    rwa [hcollect routedResults hrun] at hresults
  · intro h
    have hall : ∀ entry ∈ dealt, ∃ value,
        calculateRouted (normalEngine price) entry = .ok value := by
      intro entry hentry
      obtain ⟨value, -, hvalue⟩ := (mapM_eq_ok_mem h).1 entry ((hdealt entry).mp hentry)
      exact ⟨value, hvalue⟩
    obtain ⟨routedResults, hrun⟩ := exists_foldlM_store (fun entry => entry.2.1) hall .empty
    rw [← foldlM_routeGroup hgroups] at hrun
    rw [hrun, except_ok_bind, hcollect routedResults hrun, h]

/-- A batch has the results of its requests, each calculated by itself, and fails where one of them
fails. -/
theorem calculateBatch_eq_ok_iff (price : PricingModelName → ContractRequest ℝ → Except Exc ℝ)
    (requests : List (ContractRequest ℝ)) (modelName : Option PricingModelName)
    (results : List (GreeksResult ℝ)) :
    (normalEngine price).calculateBatch requests modelName = .ok results ↔
      (requests.mapM fun request => (normalEngine price).calculate request modelName) =
        .ok results := by
  cases modelName with
  | some modelName => exact calculateBatch_named_iff
  | none =>
    have hsingles : (requests.mapM fun request => (normalEngine price).calculate request none) =
        requests.zipIdx.mapM fun entry =>
          (normalEngine price).routed entry >>= calculateRouted (normalEngine price) := by
      have hfst : requests.zipIdx.map Prod.fst = requests := List.zipIdx_map_fst 0 requests
      conv_lhs => rw [← hfst, List.mapM_map]
      exact except_mapM_congr fun entry _ => calculate_eq_routed entry
    have hentries : ∀ entries, requests.zipIdx.mapM (normalEngine price).routed = .ok entries →
        (entries.map fun entry => entry.2.1) = List.range requests.length ∧
          ∀ entry ∈ entries, validateRequest entry.2.2 = .ok () := by
      intro entries hentries
      constructor
      · rw [map_eq_of_mapM_eq_ok hentries fun item entry hentry =>
          congrArg Prod.fst (routed_eq_ok hentry).2, List.range_eq_range']
        exact List.zipIdx_map_snd 0 requests
      · intro entry hentry
        obtain ⟨item, -, hitem⟩ := (mapM_eq_ok_mem hentries).2 entry hentry
        obtain ⟨hvalid, hrow⟩ := routed_eq_ok hitem
        rw [hrow]
        exact hvalid
    rw [hsingles, mapM_bind_eq_ok_iff, calculateBatch]
    constructor
    · intro h
      obtain ⟨entries, hmade, h⟩ := except_bind_eq_ok.mp h
      obtain ⟨hindices, hvalid⟩ := hentries entries hmade
      exact ⟨entries, hmade, (collect_routed_iff hindices hvalid).mp h⟩
    · rintro ⟨entries, hmade, h⟩
      obtain ⟨hindices, hvalid⟩ := hentries entries hmade
      rw [hmade, except_ok_bind]
      exact (collect_routed_iff hindices hvalid).mpr h

end GreeksEngine

end OptionResearch
