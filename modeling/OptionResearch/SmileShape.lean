import OptionResearch.SmileInterpolation

/-!
# The shape of an interpolated smile

Within a cell `evaluate` is one gentle cubic: it has the two nodes at its ends, stays between their
volatilities and is monotone.
-/

namespace OptionResearch

open HermiteCell SortedSearch

/-! ### Cells -/

section Cells

variable {K : Type} [LinearOrder K] {nodes : List (SmileNode K)} {i : ℕ} {x : K}

/-- The nodes stand from left to right. -/
def Increasing (nodes : List (SmileNode K)) : Prop := nodes.Pairwise fun a b => a.x < b.x

theorem Increasing.sorted (h : Increasing nodes) : (nodes.map (·.x)).Pairwise (· ≤ ·) :=
  List.pairwise_map.mpr (h.imp le_of_lt)

theorem Increasing.lt (h : Increasing nodes) (hi : i + 1 < nodes.length) :
    nodes[i].x < nodes[i + 1].x :=
  List.pairwise_iff_getElem.mp h i (i + 1) (Nat.lt_of_succ_lt hi) hi (Nat.lt_succ_self i)

theorem Increasing.le (h : Increasing nodes) {j : ℕ} (hi : i < nodes.length)
    (hj : j < nodes.length) (hij : i ≤ j) : nodes[i].x ≤ nodes[j].x := by
  rcases Nat.lt_or_eq_of_le hij with hlt | rfl
  · exact (List.pairwise_iff_getElem.mp h i j hi hj hlt).le
  · exact le_rfl

theorem listItem_map {α β : Type} {items : List α} (f : α → β) (h : i < items.length) :
    listItem (items.map f) i = .ok (f items[i]) := by
  rw [listItem_natCast (by rw [List.length_map]; exact h), List.getElem_map]

theorem listItem_last {α β : Type} {items : List α} (f : α → β) (h : items ≠ []) :
    listItem (items.map f) (-1) = .ok (f (items.getLast h)) := by
  have hlength : 0 < items.length := List.length_pos_iff.mpr h
  have hlast : ¬ (-1 : Int) + (items.map f).length < 0 := by
    rw [List.length_map]
    omega
  have hposition : ((-1 : Int) + (items.map f).length).toNat = items.length - 1 := by
    rw [List.length_map]
    omega
  have hnegative : (-1 : Int) < 0 := by decide
  rw [listItem, if_pos hnegative, if_neg hlast, hposition, List.getElem?_map,
    List.getElem?_eq_getElem (by omega), List.getLast_eq_getElem]
  rfl

/-- Within a cell the search returns its right node. -/
theorem bisectLeft_cell (h : Increasing nodes) (hi : i + 1 < nodes.length) (hleft : nodes[i].x < x)
    (hright : x ≤ nodes[i + 1].x) : bisectLeft (nodes.map (·.x)) x = i + 1 := by
  have hlength : (nodes.map (·.x)).length = nodes.length := List.length_map _
  refine bisectLeft_eq h.sorted (by omega) (fun j hj hbefore => ?_) fun j hj hafter => ?_
  · have hle := h.le (by omega) (by omega) (Nat.le_of_lt_succ hbefore)
    rw [List.getElem_map]
    exact lt_of_le_of_lt hle hleft
  · have hle := h.le (by omega) (by omega) hafter
    rw [List.getElem_map]
    exact le_trans hright hle

end Cells

/-! ### Slopes -/

section Slopes

variable {K : Type} [Field K] [LinearOrder K]

theorem harmonicMeanIfSameSign_comm (a b : K) :
    harmonicMeanIfSameSign a b = harmonicMeanIfSameSign b a := by
  have hiff : (a = 0 ∨ b = 0 ∨ decide (0 < a) ≠ decide (0 < b)) ↔
      (b = 0 ∨ a = 0 ∨ decide (0 < b) ≠ decide (0 < a)) := by
    rw [or_left_comm, ne_comm]
  rw [harmonicMeanIfSameSign, harmonicMeanIfSameSign, add_comm b a, mul_right_comm 2.0 b a]
  exact if_congr hiff rfl rfl

variable {nodes : List (SmileNode K)} {i : ℕ}

theorem exists_slopeBefore (hi : i + 1 < nodes.length) (m : K) :
    ∃ m0, monotoneCubic.slopeBefore (nodes.map (·.x)) (nodes.map (·.impliedVolatility)) (i + 1 : ℕ)
      m = .ok m0 := by
  rw [monotoneCubic.slopeBefore]
  split_ifs with hfirst
  · have hprevious : ((i + 1 : ℕ) : Int) - 2 = ((i - 1 : ℕ) : Int) := by omega
    have hleft : ((i + 1 : ℕ) : Int) - 1 = (i : ℕ) := by omega
    rw [hprevious, hleft, listItem_map _ (by omega), listItem_map _ (by omega),
      listItem_map _ (by omega), listItem_map _ (by omega)]
    exact ⟨_, rfl⟩
  · exact ⟨m, rfl⟩

theorem exists_slopeAfter (hi : i + 1 < nodes.length) (m : K) :
    ∃ m1, monotoneCubic.slopeAfter (nodes.map (·.x)) (nodes.map (·.impliedVolatility)) (i + 1 : ℕ)
      m = .ok m1 := by
  rw [monotoneCubic.slopeAfter, List.length_map]
  split_ifs with hlast
  · have hnext : ((i + 1 : ℕ) : Int) + 1 = ((i + 2 : ℕ) : Int) := by omega
    rw [hnext, listItem_map _ (by omega), listItem_map _ (by omega), listItem_map _ (by omega),
      listItem_map _ (by omega)]
    exact ⟨_, rfl⟩
  · exact ⟨m, rfl⟩

variable [IsStrictOrderedRing K]

theorem float_two : (2.0 : K) = 2 := by norm_num

theorem float_three : (3.0 : K) = 3 := by norm_num

/-- The mean is between none and twice the slope of the cell. -/
theorem harmonicMeanIfSameSign_mem (a m : K) :
    harmonicMeanIfSameSign a m ∈ Set.uIcc 0 (2 * m) := by
  rw [harmonicMeanIfSameSign, float_two]
  split_ifs with hcases
  · exact Set.left_mem_uIcc
  · rw [not_or, not_or, not_not] at hcases
    obtain ⟨ha, hm, hsign⟩ := hcases
    rw [decide_eq_decide] at hsign
    rw [Set.mem_uIcc]
    rcases lt_or_gt_of_ne hm with hneg | hpos
    · have haneg : a < 0 := lt_of_le_of_ne (not_lt.mp fun h => hneg.asymm (hsign.mp h)) ha
      exact .inr ⟨(harmonic_of_neg haneg hneg).2.2, (harmonic_of_neg haneg hneg).1⟩
    · have hapos := hsign.mpr hpos
      exact .inl ⟨(harmonic_of_pos hapos hpos).1, (harmonic_of_pos hapos hpos).2.2⟩

theorem mul_mem_uIcc {h m d : K} (hh : 0 < h) (hd : d ∈ Set.uIcc 0 (2 * m)) :
    h * d ∈ Set.uIcc 0 (3 * (h * m)) := by
  rw [Set.mem_uIcc] at hd ⊢
  rcases hd with ⟨hnonneg, hle⟩ | ⟨hle, hnonpos⟩
  · have hproduct := mul_nonneg hh.le hnonneg
    have hscaled := mul_le_mul_of_nonneg_left hle hh.le
    exact .inl ⟨hproduct, by linarith⟩
  · have hproduct := mul_nonpos_of_nonneg_of_nonpos hh.le hnonpos
    have hscaled := mul_le_mul_of_nonneg_left hle hh.le
    exact .inr ⟨by linarith, hproduct⟩

end Slopes

/-! ### The cubic of a cell -/

variable {K : Type} [Field K] [LinearOrder K] [IsStrictOrderedRing K]

/-- Along the cell, `f` is one gentle cubic of the position between its nodes. -/
def IsCell (f : K → Except Exc K) (left right : SmileNode K) : Prop :=
  ∃ s₀ s₁, Gentle left.impliedVolatility right.impliedVolatility s₀ s₁ ∧
    ∀ x, left.x < x → x ≤ right.x → f x = .ok (hermite left.impliedVolatility
      right.impliedVolatility s₀ s₁ ((x - left.x) / (right.x - left.x)))

variable {nodes : List (SmileNode K)} {i : ℕ}

theorem isCell_linear {left right : SmileNode K} (h : left.x < right.x) :
    IsCell (fun x => .ok (linear left.x left.impliedVolatility right.x right.impliedVolatility x))
      left right := by
  refine ⟨_, _, gentle_chord _ _, fun x _ _ => ?_⟩
  change Except.ok (linear _ _ _ _ _) = _
  rw [linear, if_neg h.ne', hermite_chord]

theorem isCell_monotoneCubic (h : Increasing nodes) (hi : i + 1 < nodes.length) :
    IsCell (monotoneCubic (nodes.map (·.x)) (nodes.map (·.impliedVolatility))) nodes[i]
      nodes[i + 1] := by
  have hwidth : 0 < nodes[i + 1].x - nodes[i].x := sub_pos.mpr (h.lt hi)
  obtain ⟨m, hm⟩ : ∃ m, (nodes[i + 1].impliedVolatility - nodes[i].impliedVolatility) /
    (nodes[i + 1].x - nodes[i].x) = m := ⟨_, rfl⟩
  obtain ⟨m0, hm0⟩ := exists_slopeBefore hi m
  obtain ⟨m1, hm1⟩ := exists_slopeAfter hi m
  have hchord : (nodes[i + 1].x - nodes[i].x) * m =
      nodes[i + 1].impliedVolatility - nodes[i].impliedVolatility := by
    rw [← hm, mul_div_cancel₀ _ hwidth.ne']
  have hgentle₀ := mul_mem_uIcc hwidth (harmonicMeanIfSameSign_mem m0 m)
  have hgentle₁ := mul_mem_uIcc hwidth (harmonicMeanIfSameSign_mem m1 m)
  rw [hchord] at hgentle₀ hgentle₁
  refine ⟨_, _, ⟨hgentle₀, hgentle₁⟩, fun x hleft hright => ?_⟩
  have hidx : min (max ((i + 1 : ℕ) : Int) 1) ((nodes.length : Int) - 1) = (i + 1 : ℕ) := by
    omega
  have hprevious : ((i + 1 : ℕ) : Int) - 1 = (i : ℕ) := by omega
  rw [monotoneCubic, bisectLeft_cell h hi hleft hright, List.length_map, hidx, hprevious,
    listItem_map _ (by omega), listItem_map _ (by omega), listItem_map _ (by omega),
    listItem_map _ (by omega)]
  dsimp only [bind, Except.bind]
  rw [if_neg hwidth.ne', hm, hm0]
  dsimp only
  rw [hm1]
  dsimp only [pure, Except.pure]
  rw [harmonicMeanIfSameSign_comm m m1, hermite, float_two, float_three]
  refine congrArg Except.ok ?_
  ring

theorem position_mem {left right x : K} (hcell : left < right) (hleft : left ≤ x)
    (hright : x ≤ right) : 0 ≤ (x - left) / (right - left) ∧ (x - left) / (right - left) ≤ 1 :=
  ⟨div_nonneg (sub_nonneg.mpr hleft) (sub_nonneg.mpr hcell.le),
    (div_le_one (sub_pos.mpr hcell)).mpr (sub_le_sub_right hright _)⟩

theorem position_mono {left right x x' : K} (hcell : left < right) (h : x ≤ x') :
    (x - left) / (right - left) ≤ (x' - left) / (right - left) :=
  div_le_div_of_nonneg_right (sub_le_sub_right h _) (sub_nonneg.mpr hcell.le)

namespace SmileEvaluator

variable {evaluator : SmileEvaluator K}

omit [IsStrictOrderedRing K] in
/-- Between the first and the last node the evaluation interpolates. -/
theorem evaluate_within (h : Increasing evaluator.smile.nodes) {x : K}
    (hi : i < evaluator.smile.nodes.length) {j : ℕ} (hj : j < evaluator.smile.nodes.length)
    (hleft : evaluator.smile.nodes[i].x ≤ x) (hright : x ≤ evaluator.smile.nodes[j].x) :
    evaluator.evaluate x = evaluator.interpolate (evaluator.smile.nodes.map (·.x))
      (evaluator.smile.nodes.map (·.impliedVolatility)) x := by
  have hne : evaluator.smile.nodes ≠ [] := List.ne_nil_of_length_pos (by omega)
  have hpos : 0 < evaluator.smile.nodes.length := Nat.zero_lt_of_lt hi
  have hfirst := (h.le hpos hi (Nat.zero_le i)).trans hleft
  have hlast := hright.trans (h.le hj (by omega) (Nat.le_sub_one_of_lt hj))
  have hwithin : ¬ (x < evaluator.smile.nodes[0].x ∨
      (evaluator.smile.nodes.getLast hne).x < x) := by
    rw [List.getLast_eq_getElem]
    exact not_or.mpr ⟨not_lt.mpr hfirst, not_lt.mpr hlast⟩
  rw [evaluate, if_neg (by simpa using hne)]
  have hzero : listItem (evaluator.smile.nodes.map (·.x)) 0 = .ok evaluator.smile.nodes[0].x :=
    listItem_map _ hpos
  dsimp only
  rw [hzero]
  dsimp only [bind, Except.bind]
  rw [listItem_last _ hne]
  dsimp only
  rw [if_neg hwithin]

/-- In a cell the evaluation is one gentle cubic, without the left node. -/
theorem exists_isCell (h : Increasing evaluator.smile.nodes)
    (hi : i + 1 < evaluator.smile.nodes.length) :
    ∃ f, IsCell f evaluator.smile.nodes[i] evaluator.smile.nodes[i + 1] ∧
      ∀ x, evaluator.smile.nodes[i].x < x → x ≤ evaluator.smile.nodes[i + 1].x →
        evaluator.evaluate x = (f x).map some := by
  have hinterpolate : ∀ x, evaluator.smile.nodes[i].x < x → x ≤ evaluator.smile.nodes[i + 1].x →
      evaluator.evaluate x =
        if evaluator.config.interpolation = .monotoneCubic ∧ 3 ≤ evaluator.smile.nodes.length then
          (monotoneCubic (evaluator.smile.nodes.map (·.x))
            (evaluator.smile.nodes.map (·.impliedVolatility)) x).map some
        else .ok (some (linear evaluator.smile.nodes[i].x
          evaluator.smile.nodes[i].impliedVolatility evaluator.smile.nodes[i + 1].x
          evaluator.smile.nodes[i + 1].impliedVolatility x)) := by
    intro x hleft hright
    have hprevious : ((i + 1 : ℕ) : Int) - 1 = (i : ℕ) := by omega
    rw [evaluate_within h (Nat.lt_of_succ_lt hi) hi hleft.le hright, interpolate,
      bisectLeft_cell h hi hleft hright, if_neg (Nat.succ_ne_zero i), List.length_map,
      if_neg (by omega), hprevious, listItem_map _ (by omega), listItem_map _ (by omega),
      listItem_map _ (by omega), listItem_map _ (by omega)]
    rfl
  by_cases hcubic : evaluator.config.interpolation = .monotoneCubic ∧
      3 ≤ evaluator.smile.nodes.length
  · refine ⟨_, isCell_monotoneCubic h hi, fun x hleft hright => ?_⟩
    rw [hinterpolate x hleft hright, if_pos hcubic]
  · refine ⟨_, isCell_linear (h.lt hi), fun x hleft hright => ?_⟩
    rw [hinterpolate x hleft hright, if_neg hcubic]
    rfl

/-- At a node the evaluation returns its volatility. -/
theorem evaluate_node (h : Increasing evaluator.smile.nodes)
    (hi : i < evaluator.smile.nodes.length) :
    evaluator.evaluate evaluator.smile.nodes[i].x =
      .ok (some evaluator.smile.nodes[i].impliedVolatility) := by
  cases i with
  | zero =>
      have hsearch :
          bisectLeft (evaluator.smile.nodes.map (·.x)) evaluator.smile.nodes[0].x = 0 := by
        refine bisectLeft_eq h.sorted (Nat.zero_le _) (fun j _ hj => absurd hj (Nat.not_lt_zero j))
          fun j hj _ => ?_
        rw [List.getElem_map]
        exact h.le hi _ (Nat.zero_le j)
      have hzero : listItem (evaluator.smile.nodes.map (·.impliedVolatility)) 0 =
          .ok evaluator.smile.nodes[0].impliedVolatility := listItem_map _ hi
      rw [evaluate_within h hi hi le_rfl le_rfl, interpolate, hsearch, if_pos rfl, hzero]
      rfl
  | succ i =>
      obtain ⟨f, ⟨s₀, s₁, _, hf⟩, heval⟩ := exists_isCell h hi
      rw [heval _ (h.lt hi) le_rfl, hf _ (h.lt hi) le_rfl,
        div_self (sub_pos.mpr (h.lt hi)).ne', hermite_one]
      rfl

/-- In a cell the evaluation is one gentle cubic. -/
theorem evaluate_cell (h : Increasing evaluator.smile.nodes)
    (hi : i + 1 < evaluator.smile.nodes.length) :
    ∃ s₀ s₁, Gentle evaluator.smile.nodes[i].impliedVolatility
        evaluator.smile.nodes[i + 1].impliedVolatility s₀ s₁ ∧
      ∀ x, evaluator.smile.nodes[i].x ≤ x → x ≤ evaluator.smile.nodes[i + 1].x →
        evaluator.evaluate x = .ok (some (hermite evaluator.smile.nodes[i].impliedVolatility
          evaluator.smile.nodes[i + 1].impliedVolatility s₀ s₁
          ((x - evaluator.smile.nodes[i].x) /
            (evaluator.smile.nodes[i + 1].x - evaluator.smile.nodes[i].x)))) := by
  obtain ⟨f, ⟨s₀, s₁, hgentle, hf⟩, heval⟩ := exists_isCell h hi
  refine ⟨s₀, s₁, hgentle, fun x hleft hright => ?_⟩
  rcases hleft.eq_or_lt with rfl | hlt
  · rw [evaluate_node h (Nat.lt_of_succ_lt hi), sub_self, zero_div, hermite_zero]
  · rw [heval x hlt hright, hf x hlt hright]
    rfl

/-- What an evaluation makes of the cell between two nodes. -/
structure FollowsCell (evaluator : SmileEvaluator K) (left right : SmileNode K) : Prop where
  between : ∀ x, left.x ≤ x → x ≤ right.x → ∃ y, evaluator.evaluate x = .ok (some y) ∧
    y ∈ Set.uIcc left.impliedVolatility right.impliedVolatility
  rising : left.impliedVolatility ≤ right.impliedVolatility → ∀ x x' y y', left.x ≤ x → x ≤ x' →
    x' ≤ right.x → evaluator.evaluate x = .ok (some y) → evaluator.evaluate x' = .ok (some y') →
      y ≤ y'
  falling : right.impliedVolatility ≤ left.impliedVolatility → ∀ x x' y y', left.x ≤ x → x ≤ x' →
    x' ≤ right.x → evaluator.evaluate x = .ok (some y) → evaluator.evaluate x' = .ok (some y') →
      y' ≤ y

/-- An interpolated smile has its nodes, and between two neighbours it is monotone and stays between
their volatilities. -/
theorem evaluate_shape (h : Increasing evaluator.smile.nodes) :
    (∀ node ∈ evaluator.smile.nodes,
      evaluator.evaluate node.x = .ok (some node.impliedVolatility)) ∧
    ∀ i, (hi : i + 1 < evaluator.smile.nodes.length) →
      evaluator.FollowsCell evaluator.smile.nodes[i] evaluator.smile.nodes[i + 1] := by
  constructor
  · intro node hnode
    obtain ⟨i, hi, rfl⟩ := List.mem_iff_getElem.mp hnode
    exact evaluate_node h hi
  · intro i hi
    obtain ⟨s₀, s₁, hgentle, heval⟩ := evaluate_cell h hi
    have hcell := h.lt hi
    constructor
    · intro x hleft hright
      obtain ⟨hnonneg, hle⟩ := position_mem hcell hleft hright
      exact ⟨_, heval x hleft hright, hgentle.between hnonneg hle⟩
    · intro hrise x x' y y' hleft hxx' hright hy hy'
      rw [heval x hleft (hxx'.trans hright)] at hy
      rw [heval x' (hleft.trans hxx') hright] at hy'
      cases hy
      cases hy'
      exact hgentle.rising hrise (position_mem hcell hleft (hxx'.trans hright)).1
        (position_mono hcell hxx') (position_mem hcell (hleft.trans hxx') hright).2
    · intro hfall x x' y y' hleft hxx' hright hy hy'
      rw [heval x hleft (hxx'.trans hright)] at hy
      rw [heval x' (hleft.trans hxx') hright] at hy'
      cases hy
      cases hy'
      exact hgentle.falling hfall (position_mem hcell hleft (hxx'.trans hright)).1
        (position_mono hcell hxx') (position_mem hcell (hleft.trans hxx') hright).2

/-- A skew of four strikes, with a falling, a flat and a rising cell. -/
def skew : SmileEvaluator ℚ where
  smile := ⟨[⟨90, 3 / 10⟩, ⟨95, 1 / 5⟩, ⟨100, 1 / 5⟩, ⟨120, 1 / 4⟩]⟩
  config := { interpolation := .monotoneCubic }

theorem increasing_skew : Increasing skew.smile.nodes := by
  rw [Increasing]
  change List.Pairwise _ [_, _, _, _]
  norm_num

theorem evaluate_shape_skew :
    (∀ node ∈ skew.smile.nodes, skew.evaluate node.x = .ok (some node.impliedVolatility)) ∧
    ∀ i, (hi : i + 1 < skew.smile.nodes.length) →
      skew.FollowsCell skew.smile.nodes[i] skew.smile.nodes[i + 1] :=
  evaluate_shape increasing_skew

end SmileEvaluator

end OptionResearch
