import OptionResearch.AdjustedViews

/-!
# When corporate actions act

Which of the two dates of an action the views of `CorporateActionService` look at. With effective
dates an action acts from its effective date; where announcements count, it acts from its
announcement, and the effective date is not consulted. A view is the view of the actions that are
known at its own time: later ones leave no trace in it.
-/

namespace OptionResearch.CorporateActionService

variable {text : ℚ → String} {policy : AdjustmentPolicy} {actions : List NormalizedCorporateAction}
  {action : NormalizedCorporateAction}

/-- An action of the list is applied to a price of the view. -/
def AppliedToUnderlying (policy : AdjustmentPolicy) (actions : List NormalizedCorporateAction)
    (prices : List UnderlyingPriceDTO) (underlyingId : Int) (asOf : DateTime)
    (action : NormalizedCorporateAction) : Prop :=
  ∃ price ∈ pricesUpTo prices underlyingId asOf, action ∈ applicableActions policy
    (actionsForUnderlying actions underlyingId) price.priceTimestamp

/-- An action of the list is applied to the contract. -/
def AppliedToOption (policy : AdjustmentPolicy) (actions : List NormalizedCorporateAction)
    (contract : Option OptionContractDTO) (asOfDate : OrdinalDate)
    (action : NormalizedCorporateAction) : Prop :=
  ∃ found ∈ contract, action ∈ applicableActions policy
    (actionsForUnderlying actions found.underlyingId) asOfDate.lastSecond

/-- What the policy asks of an action on a day and at a time of it. -/
def Known (policy : CorporateActionKnowledgePolicy) (day : Int) (time : DateTime)
    (action : NormalizedCorporateAction) : Prop :=
  match policy with
  | .effectiveDate => action.effectiveDate.toordinal ≤ day
  | .announcementAware => ∃ announced ∈ action.announcementTimestamp, announced ≤ time

instance (policy : CorporateActionKnowledgePolicy) (day : Int) (time : DateTime) :
    DecidablePred (Known policy day time) := fun action =>
  match policy with
  | .effectiveDate => inferInstanceAs (Decidable (action.effectiveDate.toordinal ≤ day))
  | .announcementAware =>
    inferInstanceAs (Decidable (∃ announced ∈ action.announcementTimestamp, announced ≤ time))

theorem dateOrdinal_ensureAware (time : DateTime) :
    time.ensureAware.dateOrdinal = time.dateOrdinal := by
  rcases time with ⟨wall, _ | offset⟩ <;> rfl

theorem dateOrdinal_lastSecond (date : OrdinalDate) :
    date.lastSecond.dateOrdinal = date.toordinal := by
  unfold OrdinalDate.lastSecond DateTime.dateOrdinal
  dsimp only
  omega

theorem dateOrdinal_le {time later : DateTime} (h : time.wall ≤ later.wall) :
    time.dateOrdinal ≤ later.dateOrdinal := by
  unfold DateTime.dateOrdinal
  omega

theorem knowable_iff (time : DateTime) : knowable policy time action = true ↔
    Known policy.knowledgePolicy time.dateOrdinal time action := by
  unfold knowable isActionKnowable Known
  cases policy.knowledgePolicy
  case effectiveDate => simp only [decide_eq_true_eq, dateOrdinal_ensureAware]
  case announcementAware =>
    rcases action.announcementTimestamp with _ | announced
    · simp
    · simp only [decide_eq_true_eq, Option.mem_some_iff, exists_eq_left', DateTime.le_iff,
        DateTime.instant_ensureAware]

theorem Known.later {knowledge : CorporateActionKnowledgePolicy} {day day' : Int}
    {time time' : DateTime} (h : Known knowledge day time action) (hday : day ≤ day')
    (htime : knowledge = .announcementAware → time ≤ time') :
    Known knowledge day' time' action := by
  cases knowledge with
  | effectiveDate => exact le_trans h hday
  | announcementAware =>
      obtain ⟨announced, hannounced, hle⟩ := h
      exact ⟨announced, hannounced, hle.trans (htime rfl)⟩

theorem wall_le_of_mem_pricesUpTo {prices : List UnderlyingPriceDTO} {underlyingId : Int}
    {asOf : DateTime} {price : UnderlyingPriceDTO}
    (h : price ∈ pricesUpTo prices underlyingId asOf) : price.priceTimestamp.wall ≤ asOf.wall := by
  rw [pricesUpTo, List.mem_filter, Bool.and_eq_true, decide_eq_true_eq, decide_eq_true_eq] at h
  exact h.2.2

/-- Of actions that include the known ones, the applicable ones are the same. -/
theorem applicableActions_filter {p : NormalizedCorporateAction → Bool} (underlyingId : Int)
    (time : DateTime) (h : ∀ action, knowable policy time action = true → p action = true) :
    applicableActions policy (actionsForUnderlying (actions.filter p) underlyingId) time =
      applicableActions policy (actionsForUnderlying actions underlyingId) time := by
  simp only [applicableActions_eq, List.filter_filter]
  refine List.filter_congr fun action _ => ?_
  unfold applies
  by_cases hknown : knowable policy time action = true
  · rw [h action hknown, Bool.and_true]
  · rw [Bool.eq_false_of_not_eq_true hknown, Bool.false_and, Bool.false_and]

/-- The prices of a view are not read at a later time than the view's. -/
def PricesInTime (policy : AdjustmentPolicy) (prices : List UnderlyingPriceDTO) (asOf : DateTime) :
    Prop :=
  policy.knowledgePolicy = .announcementAware → ∀ price ∈ prices,
    price.priceTimestamp.utcoffset.getD 0 = asOf.utcoffset.getD 0

theorem known_of_knowable {prices : List UnderlyingPriceDTO} {underlyingId : Int} {asOf : DateTime}
    (hprices : PricesInTime policy prices asOf) {price : UnderlyingPriceDTO}
    (hprice : price ∈ pricesUpTo prices underlyingId asOf)
    (h : knowable policy price.priceTimestamp action = true) :
    Known policy.knowledgePolicy asOf.dateOrdinal asOf action := by
  have hwall := wall_le_of_mem_pricesUpTo hprice
  refine ((knowable_iff _).mp h).later (dateOrdinal_le hwall) fun hannounced => ?_
  have hoffset := hprices hannounced price (List.mem_of_mem_filter hprice)
  rw [DateTime.le_iff, DateTime.instant, DateTime.instant, hoffset]
  exact Int.sub_le_sub_right hwall _

theorem buildAdjustedUnderlyingView_filter {prices : List UnderlyingPriceDTO} {underlyingId : Int}
    {asOf : DateTime} {p : NormalizedCorporateAction → Bool}
    (h : ∀ price ∈ pricesUpTo prices underlyingId asOf, ∀ action,
      knowable policy price.priceTimestamp action = true → p action = true) (viewName : String) :
    buildAdjustedUnderlyingView text policy (actions.filter p) prices underlyingId asOf viewName =
      buildAdjustedUnderlyingView text policy actions prices underlyingId asOf viewName := by
  have hrow : ∀ price ∈ pricesUpTo prices underlyingId asOf,
      applicableActions policy (actionsForUnderlying (actions.filter p) underlyingId)
          price.priceTimestamp =
        applicableActions policy (actionsForUnderlying actions underlyingId)
          price.priceTimestamp := fun price hprice =>
    applicableActions_filter underlyingId price.priceTimestamp (h price hprice)
  have hadjustment : ∀ price ∈ pricesUpTo prices underlyingId asOf,
      priceAdjustment text policy (actionsForUnderlying (actions.filter p) underlyingId) price =
        priceAdjustment text policy (actionsForUnderlying actions underlyingId) price := by
    intro price hprice
    rw [priceAdjustment, priceAdjustment, hrow price hprice]
  unfold buildAdjustedUnderlyingView
  refine Prod.ext ?_ ?_
  · refine List.map_congr_left fun price hprice => ?_
    rw [hrow price hprice, hadjustment price hprice]
  · dsimp only
    rw [List.length_map, List.length_map]
    refine congrArg _ (congrArg List.flatten (List.map_congr_left fun price hprice => ?_))
    rw [hadjustment price hprice]

theorem buildAdjustedOptionView_filter {contract : Option OptionContractDTO} {contractId : Int}
    {asOfDate : OrdinalDate} {p : NormalizedCorporateAction → Bool}
    (h : ∀ action, knowable policy asOfDate.lastSecond action = true → p action = true)
    (viewName : String) :
    buildAdjustedOptionView text policy (actions.filter p) contract contractId asOfDate viewName =
      buildAdjustedOptionView text policy actions contract contractId asOfDate viewName := by
  rcases contract with _ | found
  · rfl
  · have happlicable := @applicableActions_filter policy actions p found.underlyingId _ h
    simp only [buildAdjustedOptionView, termsAdjustment, happlicable]

/-- An action that is applied is known, and the actions that are not known at the time of a view
leave no trace in it. -/
theorem applied_known (text : ℚ → String) (policy : AdjustmentPolicy)
    (actions : List NormalizedCorporateAction) :
    (∀ prices underlyingId asOf viewName,
      (∀ price ∈ pricesUpTo prices underlyingId asOf, ∀ action ∈ applicableActions policy
          (actionsForUnderlying actions underlyingId) price.priceTimestamp,
        Known policy.knowledgePolicy price.priceTimestamp.dateOrdinal price.priceTimestamp action ∧
          price.priceTimestamp.dateOrdinal ≤ asOf.dateOrdinal) ∧
      (PricesInTime policy prices asOf →
        (∀ action, AppliedToUnderlying policy actions prices underlyingId asOf action →
          Known policy.knowledgePolicy asOf.dateOrdinal asOf action) ∧
        buildAdjustedUnderlyingView text policy
            (actions.filter (Known policy.knowledgePolicy asOf.dateOrdinal asOf)) prices
            underlyingId asOf viewName =
          buildAdjustedUnderlyingView text policy actions prices underlyingId asOf viewName)) ∧
    ∀ contract contractId asOfDate viewName,
      (∀ action, AppliedToOption policy actions contract asOfDate action →
        Known policy.knowledgePolicy asOfDate.toordinal asOfDate.lastSecond action) ∧
      buildAdjustedOptionView text policy
          (actions.filter (Known policy.knowledgePolicy asOfDate.toordinal asOfDate.lastSecond))
          contract contractId asOfDate viewName =
        buildAdjustedOptionView text policy actions contract contractId asOfDate viewName := by
  refine ⟨fun prices underlyingId asOf viewName => ⟨?_, fun hprices => ⟨?_, ?_⟩⟩,
    fun contract contractId asOfDate viewName => ⟨?_, ?_⟩⟩
  · intro price hprice action haction
    exact ⟨(knowable_iff _).mp (List.mem_filter.mp haction).2,
      dateOrdinal_le (wall_le_of_mem_pricesUpTo hprice)⟩
  · rintro action ⟨price, hprice, haction⟩
    exact known_of_knowable hprices hprice (List.mem_filter.mp haction).2
  · refine buildAdjustedUnderlyingView_filter (fun price hprice action hknowable => ?_) viewName
    exact decide_eq_true (known_of_knowable hprices hprice hknowable)
  · rintro action ⟨found, -, haction⟩
    rw [← dateOrdinal_lastSecond]
    exact (knowable_iff _).mp (List.mem_filter.mp haction).2
  · refine buildAdjustedOptionView_filter (fun action hknowable => ?_) viewName
    rw [← dateOrdinal_lastSecond]
    exact decide_eq_true ((knowable_iff _).mp hknowable)

/-- A split for two. -/
def announcedSplit (announced effective : OrdinalDate) : NormalizedCorporateAction where
  id := 1
  underlyingId := 1
  actionType := .stockSplit
  effectiveDate := effective
  announcementTimestamp := some announced.lastSecond
  ratio := some 2

theorem applied_known_announcedSplit :
    Known .announcementAware (firstDays 2).lastSecond.dateOrdinal (firstDays 2).lastSecond
      (announcedSplit (firstDays 1) (firstDays 2)) :=
  (((applied_known (fun _ => "") { knowledgePolicy := .announcementAware }
    [announcedSplit (firstDays 1) (firstDays 2)]).1
    [priceOfTen] 1 (firstDays 2).lastSecond "view").2
      (fun _ => List.forall_mem_singleton.mpr rfl)).1 (announcedSplit (firstDays 1) (firstDays 2))
    ⟨priceOfTen, by decide +kernel, by
      rw [applicableActions_eq]
      exact List.mem_filter.mpr ⟨List.mem_singleton_self _, by decide +kernel⟩⟩

/-- A price of ten at the end of the day. -/
def priceAtEndOf (day : OrdinalDate) : UnderlyingPriceDTO :=
  { priceOfTen with priceTimestamp := day.lastSecond }

/-- A split that is announced on the second day, for the third. On the day of its announcement it
halves a price and a strike, a day early. -/
theorem announcedSplit_acts_early : ∃ split, split = announcedSplit (firstDays 1) (firstDays 2) ∧
    (firstDays 1).toordinal < split.effectiveDate.toordinal ∧
      AppliedToUnderlying { knowledgePolicy := .announcementAware } [split]
        [priceAtEndOf (firstDays 1)] 1 (firstDays 1).lastSecond split ∧
      pricesOf (buildAdjustedUnderlyingView (fun _ => "") { knowledgePolicy := .announcementAware }
        [split] [priceAtEndOf (firstDays 1)] 1 (firstDays 1).lastSecond "view") = [5] ∧
      AppliedToOption { knowledgePolicy := .announcementAware } [split]
        (some contractOfHundred) (firstDays 1) split ∧
      (termsOf (buildAdjustedOptionView (fun _ => "") { knowledgePolicy := .announcementAware }
        [split] (some contractOfHundred) 1 (firstDays 1) "view")).map (·.1) = some 50 := by
  refine ⟨_, rfl, by decide, ⟨priceAtEndOf (firstDays 1), by decide +kernel, ?_⟩,
    by decide +kernel, ⟨contractOfHundred, rfl, ?_⟩, by decide +kernel⟩
  · rw [applicableActions_eq]
    exact List.mem_filter.mpr ⟨List.mem_singleton_self _, by decide +kernel⟩
  · rw [applicableActions_eq]
    exact List.mem_filter.mpr ⟨List.mem_singleton_self _, by decide +kernel⟩

end OptionResearch.CorporateActionService
