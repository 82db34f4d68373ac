import Mathlib.Algebra.Order.Ring.Abs
import OptionResearch.OptionPayoff
import OptionResearch.MarginAddOns

/-!
# What the margin of a structure covers at expiry

The credit-spread branch requires the width of a structure's strikes, less its net premium. Of a
short and a long option on each side, puts can only lose below and calls above the same price, so
the width covers both sides together. The short put of a jade lizard has no long put, so there the
width is no bound.
-/

namespace OptionResearch

open OptionPayoff

/-! ### The payoff of the legs -/

namespace MarginLeg

def right (leg : MarginLeg) : Option Right :=
  if leg.optionType = some "call" then some .call
  else if leg.optionType = some "put" then some .put
  else none

/-- Minus one for a short leg. -/
def direction (leg : MarginLeg) : ℚ := if leg.side = "short" then -1 else 1

/-- What the leg brings its owner when the underlying ends at `spot`. -/
def payoff (leg : MarginLeg) (spot : ℚ) : ℚ :=
  match leg.right, leg.strike with
  | some right, some strike =>
    leg.direction * |leg.quantity| * leg.multiplier * intrinsic right spot strike
  | _, _ => 0

end MarginLeg

/-- The legs' payoff loss when the underlying ends at `spot`. -/
def MarginPosition.payoffLoss (position : MarginPosition) (spot : ℚ) : ℚ :=
  -(position.legs.map fun leg => leg.payoff spot).sum

/-- A leg of this side, right, strike, absolute quantity and multiplier. -/
structure MarginLeg.Is (leg : MarginLeg) (side : String) (right : Right) (strike : ℚ)
    (quantity : Int) (multiplier : ℚ) : Prop where
  side_eq : leg.side = side
  right_eq : leg.right = some right
  strike_eq : leg.strike = some strike
  quantity_eq : |leg.quantity| = quantity
  multiplier_eq : leg.multiplier = multiplier

namespace MarginLeg.Is

variable {leg : MarginLeg} {right : Right} {strike multiplier spot : ℚ} {quantity : Int}

theorem quantity_nonneg {side : String} (h : leg.Is side right strike quantity multiplier) :
    0 ≤ quantity := by
  rw [← h.quantity_eq]
  exact abs_nonneg _

theorem payoff_short (h : leg.Is "short" right strike quantity multiplier) :
    leg.payoff spot = -(quantity * multiplier * intrinsic right spot strike) := by
  simp only [payoff, h.right_eq, h.strike_eq, direction, h.side_eq, if_true, h.multiplier_eq,
    ← h.quantity_eq]
  ring

theorem payoff_long (h : leg.Is "long" right strike quantity multiplier) :
    leg.payoff spot = quantity * multiplier * intrinsic right spot strike := by
  have hside : "long" ≠ "short" := by decide
  simp only [payoff, h.right_eq, h.strike_eq, direction, h.side_eq, if_neg hside,
    h.multiplier_eq, ← h.quantity_eq]
  ring

end MarginLeg.Is

/-! ### The size and the width of a structure -/

namespace BaselineRegTMarginPolicy

variable {position : MarginPosition} {quantity : Int} {multiplier lo hi : ℚ}

/-- Every leg has a strike, the absolute quantity `quantity` and the multiplier `multiplier`. -/
def SameSize (legs : List MarginLeg) (quantity : Int) (multiplier : ℚ) : Prop :=
  ∀ leg ∈ legs, ∃ side right strike, leg.Is side right strike quantity multiplier

theorem maxQuantity_eq (hne : position.legs ≠ [])
    (hsize : SameSize position.legs quantity multiplier) : maxQuantity position = quantity := by
  have hall : ∀ size ∈ position.legs.map fun leg => |leg.quantity|, size = quantity := by
    intro size hmem
    obtain ⟨leg, hleg, rfl⟩ := List.mem_map.mp hmem
    obtain ⟨_, _, _, his⟩ := hsize leg hleg
    exact his.quantity_eq
  obtain ⟨leg, hleg⟩ := List.exists_mem_of_ne_nil _ hne
  have hmem : quantity ∈ position.legs.map fun leg => |leg.quantity| := by
    obtain ⟨_, _, _, his⟩ := hsize leg hleg
    exact List.mem_map.mpr ⟨leg, hleg, his.quantity_eq⟩
  have hpos : 0 ≤ quantity := by
    obtain ⟨_, _, _, his⟩ := hsize leg hleg
    exact his.quantity_nonneg
  have hmax : (0 :: position.legs.map fun leg => |leg.quantity|).max? = some quantity := by
    apply List.max?_eq_some_iff.mpr
    constructor
    · exact List.mem_cons_of_mem _ hmem
    · intro size hsize
      rcases List.mem_cons.mp hsize with rfl | hsize
      · exact hpos
      · exact (hall size hsize).le
  exact Option.some.inj hmax

theorem maxMultiplier_eq (hne : position.legs ≠ [])
    (hsize : SameSize position.legs quantity multiplier) :
    maxMultiplier position = |multiplier| := by
  have hmax : (position.legs.map fun leg => |leg.multiplier|).max? = some |multiplier| := by
    apply List.max?_eq_some_iff.mpr
    constructor
    · obtain ⟨leg, hleg⟩ := List.exists_mem_of_ne_nil _ hne
      obtain ⟨_, _, _, his⟩ := hsize leg hleg
      exact List.mem_map.mpr ⟨leg, hleg, by rw [his.multiplier_eq]⟩
    · intro size hmem
      obtain ⟨leg, hleg, rfl⟩ := List.mem_map.mp hmem
      obtain ⟨_, _, _, his⟩ := hsize leg hleg
      rw [his.multiplier_eq]
  unfold maxMultiplier
  cases hlegs : position.legs.map fun leg => |leg.multiplier| with
  | nil => rw [hlegs] at hmax; cases hmax
  | cons first rest =>
    rw [hlegs] at hmax
    exact Option.some.inj hmax

/-- The strikes of a structure of two legs or more lie in an interval whose width its loss has. -/
theorem structureLoss_eq (htwo : 2 ≤ position.legs.length)
    (hsize : SameSize position.legs quantity multiplier)
    (hlo : (position.legs.filterMap (·.strike)).min? = some lo)
    (hhi : (position.legs.filterMap (·.strike)).max? = some hi) :
    structureLoss position =
      max 0 ((hi - lo) * quantity * |multiplier| - position.netPremium) := by
  have hne : position.legs ≠ [] := by
    intro hnil
    rw [hnil] at htwo
    exact absurd htwo (by decide)
  have hlength : (position.legs.filterMap (·.strike)).length = position.legs.length := by
    rw [List.length_filterMap_eq_countP, List.countP_eq_length]
    intro leg hleg
    obtain ⟨_, _, _, his⟩ := hsize leg hleg
    rw [his.strike_eq]
    rfl
  rw [structureLoss, maxQuantity_eq hne hsize, maxMultiplier_eq hne hsize]
  cases hstrikes : position.legs.filterMap (·.strike) with
  | nil => rw [hstrikes] at hlo; cases hlo
  | cons first rest =>
    cases rest with
    | nil =>
      rw [hstrikes] at hlength
      simp only [List.length_singleton] at hlength
      omega
    | cons second rest =>
      rw [hstrikes] at hlo hhi
      have hmin : (second :: rest).foldl min first = lo := Option.some.inj hlo
      have hmax : (second :: rest).foldl max first = hi := Option.some.inj hhi
      simp only [hmin, hmax]

/-! ### The requirement of the credit-spread branch -/

/-- The families of the branch that requires the defined-risk loss. -/
def definedRiskFamilies : List String :=
  ["credit_spread", "vertical_credit_spread", "iron_condor", "iron_butterfly", "broken_wing",
    "box_supported", "jade_lizard"]

/-- What a position without a defined risk has to hold for its market value. -/
def uncoveredFloor (position : MarginPosition) : ℚ :=
  if position.definedRisk = false ∨ position.residualUncovered = true
  then |position.marketValue| * (20 / 100) else 0

theorem definedRiskLoss_eq (hne : position.legs ≠ []) :
    definedRiskLoss position = max (structureLoss position) (uncoveredFloor position) := by
  rw [definedRiskLoss, if_neg hne, uncoveredFloor]
  split_ifs
  · rfl
  · exact (max_eq_left structureLoss_nonneg).symm

variable {policy : BaselineRegTMarginPolicy} {request : MarginRequest}

variable (request) in
theorem familyRequirement_definedRisk (hfamily : position.strategyFamily ∈ definedRiskFamilies) :
    familyRequirement position request =
      .ok { initial := definedRiskLoss position, maintenance := definedRiskLoss position } := by
  have hother : ∀ family ∈ definedRiskFamilies,
      family ≠ "long_stock" ∧ family ≠ "short_stock" ∧ family ≠ "long_option" ∧
        family ≠ "covered_call" ∧ family ≠ "cash_secured_put" ∧
        family ∉ ["debit_spread", "vertical_debit_spread", "butterfly", "long_calendar"] := by
    decide
  obtain ⟨h₁, h₂, h₃, h₄, h₅, h₆⟩ := hother _ hfamily
  unfold definedRiskFamilies at hfamily
  simp only [familyRequirement, if_neg h₁, if_neg h₂, if_neg h₃, if_neg h₄, if_neg h₅, if_neg h₆,
    if_pos hfamily]

variable (policy request) in
/-- The branch requires the loss of the structure, or the floor, with the position's add-ons. -/
theorem initialRequirement_definedRisk
    (hfamily : position.strategyFamily ∈ definedRiskFamilies) (hne : position.legs ≠ []) :
    ∃ result, policy.evaluatePosition id position request = .ok result ∧
      result.initialRequirement = max (structureLoss position) (uncoveredFloor position) *
        (1 + addOnRate position) := by
  have hrequirement := familyRequirement_definedRisk request hfamily
  obtain ⟨result, hresult⟩ :=
    (evaluatePosition_returns_iff policy).mpr ⟨_, hrequirement⟩
  have hbase : baseInitial position request =
      max (structureLoss position) (uncoveredFloor position) := by
    rw [baseInitial, familyBase, hrequirement]
    simp only [Except.toOption, Option.getD_some, definedRiskLoss_eq hne]
    split_ifs with huncovered
    · rw [uncoveredFloor, if_pos (Or.inr huncovered), max_assoc, max_self]
    · rfl
  refine ⟨result, hresult, ?_⟩
  rw [(figures_of_evaluatePosition hresult).1, addOnCharge, hbase, mul_add, mul_one]

/-! ### Two hedged sides -/

/-- No legs, or one short and one long leg of this right. -/
def Hedged (legs : List MarginLeg) (right : Right) (quantity : Int) (multiplier : ℚ) : Prop :=
  legs = [] ∨ ∃ short long shortStrike longStrike, legs.Perm [short, long] ∧
    short.Is "short" right shortStrike quantity multiplier ∧
    long.Is "long" right longStrike quantity multiplier

/-- Some legs, the puts hedged and the calls hedged, in any order and at any strikes. -/
def TwoSided (position : MarginPosition) (quantity : Int) (multiplier : ℚ) : Prop :=
  position.legs ≠ [] ∧ ∃ puts calls, position.legs.Perm (puts ++ calls) ∧
    Hedged puts .put quantity multiplier ∧ Hedged calls .call quantity multiplier

variable {legs : List MarginLeg} {right : Right}

theorem Hedged.sameSize (h : Hedged legs right quantity multiplier) :
    SameSize legs quantity multiplier := by
  intro leg hleg
  rcases h with rfl | ⟨short, long, shortStrike, longStrike, hperm, hshort, hlong⟩
  · exact absurd hleg List.not_mem_nil
  · rcases List.mem_pair.mp (hperm.mem_iff.mp hleg) with rfl | rfl
    · exact ⟨_, _, _, hshort⟩
    · exact ⟨_, _, _, hlong⟩

theorem Hedged.two_le_length (h : Hedged legs right quantity multiplier) (hne : legs ≠ []) :
    2 ≤ legs.length := by
  rcases h with hnil | ⟨short, long, _, _, hperm, _, _⟩
  · exact absurd hnil hne
  · exact hperm.length_eq.ge

/-- One side loses at most its reach between strikes that bound its own. -/
theorem Hedged.loss_le (h : Hedged legs right quantity multiplier) (spot : ℚ)
    (hquantity : 0 ≤ quantity) (hlohi : lo ≤ hi)
    (hstrikes : ∀ leg ∈ legs, ∀ strike, leg.strike = some strike → lo ≤ strike ∧ strike ≤ hi) :
    -(legs.map fun leg => leg.payoff spot).sum ≤
      quantity * |multiplier| * reach right spot lo hi := by
  have hsize : 0 ≤ (quantity : ℚ) := Int.cast_nonneg hquantity
  rcases h with rfl | ⟨short, long, shortStrike, longStrike, hperm, hshort, hlong⟩
  · rw [List.map_nil, List.sum_nil, neg_zero]
    exact mul_nonneg (mul_nonneg hsize (abs_nonneg _)) (reach_nonneg hlohi)
  · have hsum : (legs.map fun leg => leg.payoff spot).sum =
        -(quantity * multiplier * spreadLoss right spot shortStrike longStrike) := by
      rw [(hperm.map _).sum_eq, List.map_cons, List.map_singleton, List.sum_pair,
        hshort.payoff_short, hlong.payoff_long, spreadLoss]
      ring
    have hspread : |spreadLoss right spot shortStrike longStrike| ≤ reach right spot lo hi := by
      apply abs_spreadLoss_le
      · exact hstrikes short (hperm.mem_iff.mpr List.mem_cons_self) _ hshort.strike_eq
      · exact hstrikes long (hperm.mem_iff.mpr (List.mem_cons_of_mem _ List.mem_cons_self)) _
          hlong.strike_eq
    calc
      -(legs.map fun leg => leg.payoff spot).sum
          = quantity * multiplier * spreadLoss right spot shortStrike longStrike := by
            rw [hsum, neg_neg]
      _ ≤ |quantity * multiplier * spreadLoss right spot shortStrike longStrike| := le_abs_self _
      _ = quantity * |multiplier| * |spreadLoss right spot shortStrike longStrike| := by
            rw [abs_mul, abs_mul, abs_of_nonneg hsize]
      _ ≤ quantity * |multiplier| * reach right spot lo hi :=
            mul_le_mul_of_nonneg_left hspread (mul_nonneg hsize (abs_nonneg _))

namespace TwoSided

theorem sameSize (h : TwoSided position quantity multiplier) :
    SameSize position.legs quantity multiplier := by
  obtain ⟨_, puts, calls, hperm, hputs, hcalls⟩ := h
  intro leg hleg
  rcases List.mem_append.mp (hperm.mem_iff.mp hleg) with hput | hcall
  · exact hputs.sameSize leg hput
  · exact hcalls.sameSize leg hcall

theorem quantity_nonneg (h : TwoSided position quantity multiplier) : 0 ≤ quantity := by
  obtain ⟨leg, hleg⟩ := List.exists_mem_of_ne_nil _ h.1
  obtain ⟨_, _, _, his⟩ := h.sameSize leg hleg
  exact his.quantity_nonneg

theorem two_le_length (h : TwoSided position quantity multiplier) :
    2 ≤ position.legs.length := by
  obtain ⟨hne, puts, calls, hperm, hputs, hcalls⟩ := h
  have hlength := hperm.length_eq
  rw [List.length_append] at hlength
  by_cases hnil : puts = []
  · have hcalls' : calls ≠ [] := by
      rintro rfl
      rw [hnil] at hperm
      exact hne hperm.eq_nil
    have htwo := hcalls.two_le_length hcalls'
    omega
  · have htwo := hputs.two_le_length hnil
    omega

/-- The width of the strikes covers what both sides lose together, at every price. -/
theorem payoffLoss_le (h : TwoSided position quantity multiplier) (spot : ℚ)
    (hlo : (position.legs.filterMap (·.strike)).min? = some lo)
    (hhi : (position.legs.filterMap (·.strike)).max? = some hi) :
    position.payoffLoss spot ≤ quantity * |multiplier| * (hi - lo) := by
  have hquantity := h.quantity_nonneg
  obtain ⟨hne, puts, calls, hperm, hputs, hcalls⟩ := h
  have hleast := (List.min?_eq_some_iff.mp hlo).2
  have hgreatest := (List.max?_eq_some_iff.mp hhi).2
  have hlohi : lo ≤ hi := hleast hi (List.max?_eq_some_iff.mp hhi).1
  have hstrikes : ∀ leg ∈ puts ++ calls, ∀ strike, leg.strike = some strike →
      lo ≤ strike ∧ strike ≤ hi := by
    intro leg hleg strike hstrike
    have hmem : strike ∈ position.legs.filterMap (·.strike) :=
      List.mem_filterMap.mpr ⟨leg, hperm.mem_iff.mpr hleg, hstrike⟩
    exact ⟨hleast strike hmem, hgreatest strike hmem⟩
  have hput := hputs.loss_le spot hquantity hlohi fun leg hleg =>
    hstrikes leg (List.mem_append_left _ hleg)
  have hcall := hcalls.loss_le spot hquantity hlohi fun leg hleg =>
    hstrikes leg (List.mem_append_right _ hleg)
  calc
    position.payoffLoss spot
        = -(puts.map fun leg => leg.payoff spot).sum +
            -(calls.map fun leg => leg.payoff spot).sum := by
          rw [MarginPosition.payoffLoss, (hperm.map _).sum_eq, List.map_append, List.sum_append,
            neg_add]
    _ ≤ quantity * |multiplier| * reach .put spot lo hi +
          quantity * |multiplier| * reach .call spot lo hi := add_le_add hput hcall
    _ = quantity * |multiplier| * (hi - lo) := by rw [← mul_add, reach_put_add_reach_call]

end TwoSided

/-- The initial requirement of a hedged structure covers what its legs lose beyond the premium, at
every price of the underlying. -/
theorem initialRequirement_covers (policy : BaselineRegTMarginPolicy) (position : MarginPosition)
    (request : MarginRequest) (quantity : Int) (multiplier spot : ℚ)
    (hfamily : position.strategyFamily ∈ definedRiskFamilies)
    (hlegs : TwoSided position quantity multiplier) :
    ∃ result, policy.evaluatePosition id position request = .ok result ∧
      position.payoffLoss spot - |position.netPremium| ≤ result.initialRequirement := by
  obtain ⟨leg, hleg⟩ := List.exists_mem_of_ne_nil _ hlegs.1
  obtain ⟨_, _, strike, his⟩ := hlegs.sameSize leg hleg
  have hstrikes : position.legs.filterMap (·.strike) ≠ [] :=
    List.ne_nil_of_mem (List.mem_filterMap.mpr ⟨leg, hleg, his.strike_eq⟩)
  obtain ⟨lo, hlo⟩ := Option.isSome_iff_exists.mp (List.isSome_min?_iff.mpr hstrikes)
  obtain ⟨hi, hhi⟩ := Option.isSome_iff_exists.mp (List.isSome_max?_iff.mpr hstrikes)
  obtain ⟨result, hresult, hinitial⟩ :=
    initialRequirement_definedRisk policy request hfamily hlegs.1
  refine ⟨result, hresult, ?_⟩
  have hloss := hlegs.payoffLoss_le spot hlo hhi
  have hstructure := structureLoss_eq hlegs.two_le_length hlegs.sameSize hlo hhi
  have hpremium : -|position.netPremium| ≤ -position.netPremium := neg_le_neg (le_abs_self _)
  calc
    position.payoffLoss spot - |position.netPremium|
        ≤ (hi - lo) * quantity * |multiplier| - position.netPremium := by linarith
    _ ≤ structureLoss position := by
          rw [hstructure]
          exact le_max_right _ _
    _ ≤ max (structureLoss position) (uncoveredFloor position) := le_max_left _ _
    _ ≤ max (structureLoss position) (uncoveredFloor position) * (1 + addOnRate position) := by
          apply le_mul_of_one_le_right
          · exact le_max_of_le_left structureLoss_nonneg
          · exact le_add_of_nonneg_right addOnRate_nonneg
    _ = result.initialRequirement := hinitial.symm

/-- An option leg with the default multiplier. -/
def optionLeg (quantity : Int) (side optionType : String) (strike : ℚ) : MarginLeg where
  quantity := quantity
  side := side
  optionType := some optionType
  strike := some strike

/-- A position of this family in one contract of each leg. -/
def structurePosition (family : String) (legs : List MarginLeg) : MarginPosition where
  positionId := "p-1"
  strategyId := "s-1"
  strategyFamily := family
  legs := legs
  marketValue := 0
  netPremium := 0
  definedRisk := false

/-- The positions of a request do not matter to the requirement of one position. -/
def emptyRequest : MarginRequest where
  account := { accountId := "acct", accountType := .regTMargin, baseCurrency := "USD",
               settledCash := 1000, unsettledCash := 0, houseMarginOverlay := {},
               riskLimits := {} }
  positions := []
  pendingOrders := []
  settledCash := 1000
  unsettledCash := 0
  reservedCash := 0
  eventType := .valuation
  timestamp := ⟨0, some 0⟩

/-- A condor whose sides cross: the short put is above the short call. -/
def crossedCondor : MarginPosition :=
  structurePosition "iron_condor"
    [optionLeg (-1) "short" "put" 110, optionLeg 1 "long" "put" 90,
      optionLeg (-1) "short" "call" 95, optionLeg 1 "long" "call" 105]

theorem initialRequirement_covers_crossedCondor :
    ∃ result, ({} : BaselineRegTMarginPolicy).evaluatePosition id crossedCondor emptyRequest =
        .ok result ∧
      crossedCondor.payoffLoss 100 - |crossedCondor.netPremium| ≤ result.initialRequirement := by
  apply initialRequirement_covers {} crossedCondor emptyRequest 1 100 100
  · decide
  · refine ⟨List.cons_ne_nil _ _, [optionLeg (-1) "short" "put" 110, optionLeg 1 "long" "put" 90],
      [optionLeg (-1) "short" "call" 95, optionLeg 1 "long" "call" 105], .refl _, .inr ?_, .inr ?_⟩
    · exact ⟨_, _, 110, 90, .refl _, ⟨rfl, rfl, rfl, rfl, rfl⟩, ⟨rfl, rfl, rfl, rfl, rfl⟩⟩
    · exact ⟨_, _, 95, 105, .refl _, ⟨rfl, rfl, rfl, rfl, rfl⟩, ⟨rfl, rfl, rfl, rfl, rfl⟩⟩

/-! ### The jade lizard -/

/-- One short put, one short call from its strike on and one long call from that strike on. -/
structure JadeLizard (position : MarginPosition) (put call cover : ℚ) (quantity : Int)
    (multiplier : ℚ) : Prop where
  family : position.strategyFamily = "jade_lizard"
  put_le_call : put ≤ call
  call_le_cover : call ≤ cover
  legs : ∃ shortPut shortCall longCall, position.legs.Perm [shortPut, shortCall, longCall] ∧
    shortPut.Is "short" .put put quantity multiplier ∧
    shortCall.Is "short" .call call quantity multiplier ∧
    longCall.Is "long" .call cover quantity multiplier

/-- The branch's requirement covers the payoff loss beyond the premium at every price. -/
def CoversDownside (policy : BaselineRegTMarginPolicy) (position : MarginPosition)
    (request : MarginRequest) : Prop :=
  ∃ result, policy.evaluatePosition id position request = .ok result ∧
    ∀ spot, 0 ≤ spot →
      position.payoffLoss spot - |position.netPremium| ≤ result.initialRequirement

/-- What the width of the strikes, or the floor, makes a lizard hold, with its add-ons. -/
def lizardCharge (position : MarginPosition) (put cover : ℚ) (quantity : Int)
    (multiplier : ℚ) : ℚ :=
  max (max 0 ((cover - put) * quantity * |multiplier| - position.netPremium))
    (uncoveredFloor position) * (1 + addOnRate position)

namespace JadeLizard

variable {put call cover : ℚ}

theorem sameSize (h : JadeLizard position put call cover quantity multiplier) :
    SameSize position.legs quantity multiplier := by
  obtain ⟨shortPut, shortCall, longCall, hperm, hput, hcall, hcover⟩ := h.legs
  intro leg hleg
  have hmem : leg ∈ [shortPut, shortCall, longCall] := hperm.mem_iff.mp hleg
  simp only [List.mem_cons, List.not_mem_nil, or_false] at hmem
  rcases hmem with rfl | rfl | rfl
  · exact ⟨_, _, _, hput⟩
  · exact ⟨_, _, _, hcall⟩
  · exact ⟨_, _, _, hcover⟩

theorem payoffLoss_eq (h : JadeLizard position put call cover quantity multiplier) (spot : ℚ) :
    position.payoffLoss spot =
      quantity * multiplier * (intrinsic .put spot put + spreadLoss .call spot call cover) := by
  obtain ⟨shortPut, shortCall, longCall, hperm, hput, hcall, hcover⟩ := h.legs
  rw [MarginPosition.payoffLoss, (hperm.map _).sum_eq]
  simp only [List.map_cons, List.map_nil, List.sum_cons, List.sum_nil]
  rw [hput.payoff_short, hcall.payoff_short, hcover.payoff_long, spreadLoss]
  ring

theorem legs_ne_nil (h : JadeLizard position put call cover quantity multiplier) :
    position.legs ≠ [] := by
  obtain ⟨shortPut, shortCall, longCall, hperm, _⟩ := h.legs
  exact List.ne_nil_of_mem (hperm.mem_iff.mpr List.mem_cons_self)

theorem structureLoss_eq (h : JadeLizard position put call cover quantity multiplier) :
    structureLoss position =
      max 0 ((cover - put) * quantity * |multiplier| - position.netPremium) := by
  obtain ⟨shortPut, shortCall, longCall, hperm, hput, hcall, hcover⟩ := h.legs
  have hstrikes : (position.legs.filterMap (·.strike)).Perm [put, call, cover] := by
    have hmap := hperm.filterMap (·.strike)
    simpa only [List.filterMap_cons, hput.strike_eq, hcall.strike_eq, hcover.strike_eq,
      List.filterMap_nil] using hmap
  have hlength : 2 ≤ position.legs.length := by
    rw [hperm.length_eq]
    exact Nat.le_succ 2
  have hbounds : ∀ strike ∈ position.legs.filterMap (·.strike), put ≤ strike ∧ strike ≤ cover := by
    intro strike hmem
    have hcases : strike ∈ [put, call, cover] := hstrikes.mem_iff.mp hmem
    simp only [List.mem_cons, List.not_mem_nil, or_false] at hcases
    rcases hcases with rfl | rfl | rfl
    · exact ⟨le_rfl, h.put_le_call.trans h.call_le_cover⟩
    · exact ⟨h.put_le_call, h.call_le_cover⟩
    · exact ⟨h.put_le_call.trans h.call_le_cover, le_rfl⟩
  apply BaselineRegTMarginPolicy.structureLoss_eq hlength h.sameSize
  · apply List.min?_eq_some_iff.mpr
    constructor
    · exact hstrikes.mem_iff.mpr List.mem_cons_self
    · exact fun strike hmem => (hbounds strike hmem).1
  · apply List.max?_eq_some_iff.mpr
    constructor
    · exact hstrikes.mem_iff.mpr
        (List.mem_cons_of_mem _ (List.mem_cons_of_mem _ List.mem_cons_self))
    · exact fun strike hmem => (hbounds strike hmem).2

variable (policy request) in
theorem initialRequirement_eq (h : JadeLizard position put call cover quantity multiplier) :
    ∃ result, policy.evaluatePosition id position request = .ok result ∧
      result.initialRequirement = lizardCharge position put cover quantity multiplier := by
  have hfamily : position.strategyFamily ∈ definedRiskFamilies := by
    rw [h.family]
    decide
  obtain ⟨result, hresult, hinitial⟩ :=
    initialRequirement_definedRisk policy request hfamily h.legs_ne_nil
  exact ⟨result, hresult, by rw [hinitial, h.structureLoss_eq, lizardCharge]⟩

theorem quantity_nonneg (h : JadeLizard position put call cover quantity multiplier) :
    0 ≤ quantity := by
  obtain ⟨_, _, _, _, hput, _⟩ := h.legs
  exact hput.quantity_nonneg

/-- One share loses at most the put at a price of zero, or the width of the strikes. -/
theorem shareLoss_le {spot : ℚ} (hspot : 0 ≤ spot) (hput : put ≤ call) (hcover : call ≤ cover) :
    intrinsic .put spot put + spreadLoss .call spot call cover ≤ max 0 put ∨
      intrinsic .put spot put + spreadLoss .call spot call cover ≤ cover - put := by
  rw [intrinsic_put, spreadLoss, intrinsic_call, intrinsic_call, sub_sub_sub_cancel_left]
  by_cases hbelow : spot ≤ put
  · have hcall : spot ≤ call := hbelow.trans hput
    left
    rw [max_eq_left hbelow, min_eq_right hcall, min_eq_right (hcall.trans hcover), sub_self,
      add_zero]
    exact (sub_le_self _ hspot).trans (le_max_right _ _)
  · have habove : put ≤ spot := (not_le.mp hbelow).le
    right
    rw [max_eq_right habove, sub_self, zero_add]
    apply sub_le_sub
    · exact min_le_left _ _
    · exact le_min hput habove

theorem payoffLoss_le (h : JadeLizard position put call cover quantity multiplier) {spot : ℚ}
    (hspot : 0 ≤ spot) :
    position.payoffLoss spot ≤ max 0 put * quantity * multiplier ∨
      position.payoffLoss spot ≤ (cover - put) * quantity * |multiplier| := by
  have hquantity : 0 ≤ (quantity : ℚ) := Int.cast_nonneg h.quantity_nonneg
  rw [h.payoffLoss_eq]
  by_cases hmultiplier : 0 ≤ multiplier
  · have hsize : 0 ≤ quantity * multiplier := mul_nonneg hquantity hmultiplier
    rw [abs_of_nonneg hmultiplier]
    rcases shareLoss_le hspot h.put_le_call h.call_le_cover with hput | hwidth
    · left
      linarith [mul_le_mul_of_nonneg_left hput hsize]
    · right
      linarith [mul_le_mul_of_nonneg_left hwidth hsize]
  · -- a negative multiplier turns every loss into a gain
    have hcalls : 0 ≤ spreadLoss .call spot call cover := by
      rw [spreadLoss, intrinsic_call, intrinsic_call, sub_sub_sub_cancel_left]
      exact sub_nonneg.mpr (min_le_min_right _ h.call_le_cover)
    have hloss : quantity * multiplier *
        (intrinsic .put spot put + spreadLoss .call spot call cover) ≤ 0 := by
      apply mul_nonpos_of_nonpos_of_nonneg
      · exact mul_nonpos_of_nonneg_of_nonpos hquantity (not_le.mp hmultiplier).le
      · exact add_nonneg (intrinsic_nonneg _ _ _) hcalls
    have hwidth : 0 ≤ cover - put :=
      sub_nonneg.mpr (h.put_le_call.trans h.call_le_cover)
    right
    exact hloss.trans (mul_nonneg (mul_nonneg hwidth hquantity) (abs_nonneg _))

/-- At a price of zero the put costs its whole strike and the calls expire. -/
theorem payoffLoss_zero (h : JadeLizard position put call cover quantity multiplier)
    (hput : 0 ≤ put) : position.payoffLoss 0 = max 0 put * quantity * multiplier := by
  have hcall : 0 ≤ call := hput.trans h.put_le_call
  rw [h.payoffLoss_eq, intrinsic_put, spreadLoss, intrinsic_call, intrinsic_call,
    sub_sub_sub_cancel_left, min_eq_right hcall, min_eq_right (hcall.trans h.call_le_cover),
    max_comm]
  ring

end JadeLizard

theorem lizardCharge_nonneg {put cover : ℚ} :
    0 ≤ lizardCharge position put cover quantity multiplier := by
  apply mul_nonneg
  · exact le_max_of_le_left (le_max_left _ _)
  · exact add_nonneg zero_le_one addOnRate_nonneg

variable (position quantity multiplier) in
theorem width_le_lizardCharge (put cover : ℚ) :
    (cover - put) * quantity * |multiplier| - position.netPremium ≤
      lizardCharge position put cover quantity multiplier := by
  calc
    (cover - put) * quantity * |multiplier| - position.netPremium
        ≤ max (max 0 ((cover - put) * quantity * |multiplier| - position.netPremium))
            (uncoveredFloor position) := le_max_of_le_left (le_max_right _ _)
    _ ≤ lizardCharge position put cover quantity multiplier := by
          apply le_mul_of_one_le_right
          · exact le_max_of_le_left (le_max_left _ _)
          · exact le_add_of_nonneg_right addOnRate_nonneg

/-- A jade lizard's requirement covers its downside if and only if it covers the put at a price of
zero. -/
theorem coversDownside_iff (policy : BaselineRegTMarginPolicy) (position : MarginPosition)
    (request : MarginRequest) (put call cover : ℚ) (quantity : Int) (multiplier : ℚ)
    (hlizard : JadeLizard position put call cover quantity multiplier) :
    CoversDownside policy position request ↔
      max 0 put * quantity * multiplier - |position.netPremium| ≤
        lizardCharge position put cover quantity multiplier := by
  obtain ⟨result, hresult, hinitial⟩ :=
    hlizard.initialRequirement_eq policy request
  have hpremium : 0 ≤ |position.netPremium| := abs_nonneg _
  constructor
  · rintro ⟨result', hresult', hcovers⟩
    cases hresult.symm.trans hresult'
    by_cases hput : 0 ≤ put
    · have hzero := hcovers 0 le_rfl
      rwa [hlizard.payoffLoss_zero hput, hinitial] at hzero
    · rw [max_eq_left (not_le.mp hput).le, zero_mul, zero_mul, zero_sub]
      exact (neg_nonpos.mpr hpremium).trans lizardCharge_nonneg
  · intro hcharge
    refine ⟨result, hresult, fun spot hspot => ?_⟩
    rw [hinitial]
    rcases hlizard.payoffLoss_le hspot with hput | hwidth
    · exact (sub_le_sub_right hput _).trans hcharge
    · have hbound := width_le_lizardCharge position quantity multiplier put cover
      have hself := le_abs_self position.netPremium
      linarith

/-- A short put at 100 and a short call at 105 with a long call at 110. -/
def lizardPosition : MarginPosition :=
  structurePosition "jade_lizard"
    [optionLeg (-1) "short" "put" 100, optionLeg (-1) "short" "call" 105,
      optionLeg 1 "long" "call" 110]

theorem jadeLizard_lizardPosition : JadeLizard lizardPosition 100 105 110 1 100 where
  family := rfl
  put_le_call := by norm_num
  call_le_cover := by norm_num
  legs := ⟨_, _, _, .refl _, ⟨rfl, rfl, rfl, rfl, rfl⟩, ⟨rfl, rfl, rfl, rfl, rfl⟩,
    ⟨rfl, rfl, rfl, rfl, rfl⟩⟩

theorem coversDownside_iff_lizardPosition :
    CoversDownside {} lizardPosition emptyRequest ↔
      max 0 100 * ((1 : Int) : ℚ) * 100 - |lizardPosition.netPremium| ≤
        lizardCharge lizardPosition 100 110 1 100 :=
  coversDownside_iff {} lizardPosition emptyRequest 100 105 110 1 100 jadeLizard_lizardPosition

/-- It is required 1000 and can lose 10000. -/
theorem not_coversDownside : ¬ CoversDownside {} lizardPosition emptyRequest := by
  rintro ⟨result, hresult, hcovers⟩
  obtain ⟨result', hresult', hinitial⟩ :=
    jadeLizard_lizardPosition.initialRequirement_eq {} emptyRequest
  cases hresult.symm.trans hresult'
  have hzero := hcovers 0 le_rfl
  rw [jadeLizard_lizardPosition.payoffLoss_zero (by norm_num), hinitial] at hzero
  norm_num [lizardPosition, structurePosition, lizardCharge, uncoveredFloor, addOnRate, eventRate,
    concentrationRate] at hzero

end BaselineRegTMarginPolicy
end OptionResearch
