import Mathlib.Algebra.BigOperators.Group.List.Basic
import Mathlib.Algebra.Order.Field.Basic
import Mathlib.Algebra.Order.Group.MinMax
import Mathlib.Data.Finset.Max
import Mathlib.Order.Interval.Set.UnorderedInterval
import Mathlib.Tactic.FieldSimp
import Mathlib.Tactic.Linarith
import Mathlib.Tactic.Ring

/-!
# Lines between neighbouring points

A function that is a line on each cell of a grid. On a cell its values lie between those at the two
ends, so that the grid bounds the function between its outermost points. Where the values at the
ends have opposite signs, the chord crosses zero inside the cell, and so does the function.
-/

namespace OptionResearch.PiecewiseLinear

variable {K : Type*} [Field K] [LinearOrder K]

/-- The function is a line between the two points. -/
def LinearOn (f : K → K) (a b : K) : Prop :=
  ∃ slope intercept, ∀ x ∈ Set.Icc a b, f x = slope * x + intercept

/-- Neighbouring points of a grid. -/
def cells (grid : List K) : List (K × K) := grid.zip grid.tail

/-- Where the chord between two values crosses zero. -/
def crossing (a fa b fb : K) : K := a + (b - a) * (|fa| / (|fa| + |fb|))

variable {f g : K → K} {a b c x : K} {grid : List K}

theorem linearOn_const (c a b : K) : LinearOn (fun _ => c) a b :=
  ⟨0, c, fun x _ => by rw [zero_mul, zero_add]⟩

theorem linearOn_sub_const (c a b : K) : LinearOn (fun x => x - c) a b :=
  ⟨1, -c, fun x _ => (sub_eq_add_neg x c).trans (congrArg (· + -c) (one_mul x).symm)⟩

theorem LinearOn.congr (hf : LinearOn f a b) (h : ∀ x ∈ Set.Icc a b, g x = f x) :
    LinearOn g a b := by
  obtain ⟨slope, intercept, hline⟩ := hf
  exact ⟨slope, intercept, fun x hx => (h x hx).trans (hline x hx)⟩

theorem LinearOn.add (hf : LinearOn f a b) (hg : LinearOn g a b) :
    LinearOn (fun x => f x + g x) a b := by
  obtain ⟨slope, intercept, hf⟩ := hf
  obtain ⟨slope', intercept', hg⟩ := hg
  refine ⟨slope + slope', intercept + intercept', fun x hx => ?_⟩
  dsimp only
  rw [hf x hx, hg x hx]
  ring

theorem LinearOn.const_mul (c : K) (hf : LinearOn f a b) : LinearOn (fun x => c * f x) a b := by
  obtain ⟨slope, intercept, hf⟩ := hf
  refine ⟨c * slope, c * intercept, fun x hx => ?_⟩
  dsimp only
  rw [hf x hx]
  ring

theorem LinearOn.sub_const (hf : LinearOn f a b) (c : K) : LinearOn (fun x => f x - c) a b :=
  (hf.add (linearOn_const (-c) a b)).congr fun x _ => sub_eq_add_neg (f x) c

/-- A sum of lines, whatever their number. -/
theorem linearOn_sum {ι : Type*} {items : List ι} {f : ι → K → K}
    (h : ∀ item ∈ items, LinearOn (f item) a b) :
    LinearOn (fun x => (items.map fun item => f item x).sum) a b := by
  induction items with
  | nil => exact linearOn_const 0 a b
  | cons item rest ih =>
      have hrest := ih fun later hlater => h later (List.mem_cons_of_mem item hlater)
      exact ((h item List.mem_cons_self).add hrest).congr fun x _ => by
        rw [List.map_cons, List.sum_cons]

variable [IsStrictOrderedRing K]

/-- What is gained above a kink is a line on each side of it. -/
theorem linearOn_max_sub (h : c ∉ Set.Ioo a b) : LinearOn (fun x => max 0 (x - c)) a b := by
  rcases le_or_gt c a with hc | hc
  · refine (linearOn_sub_const c a b).congr fun x hx => ?_
    exact max_eq_right (sub_nonneg.mpr (hc.trans hx.1))
  · have hb : b ≤ c := le_of_not_gt fun hb => h ⟨hc, hb⟩
    refine (linearOn_const 0 a b).congr fun x hx => ?_
    exact max_eq_left (sub_nonpos.mpr (hx.2.trans hb))

/-- What is gained below a kink is a line on each side of it. -/
theorem linearOn_max_const_sub (h : c ∉ Set.Ioo a b) : LinearOn (fun x => max 0 (c - x)) a b := by
  have hline : LinearOn (fun x => max 0 (x - c) - (x - c)) a b :=
    ((linearOn_max_sub h).add ((linearOn_sub_const c a b).const_mul (-1))).congr fun x _ => by ring
  refine hline.congr fun x _ => ?_
  rw [← max_sub_sub_right, zero_sub, neg_sub, sub_self, max_comm]

/-- On a cell the values lie between those at the two ends. -/
theorem LinearOn.mem_uIcc (h : LinearOn f a b) (hx : x ∈ Set.Icc a b) :
    f x ∈ Set.uIcc (f a) (f b) := by
  obtain ⟨slope, intercept, hline⟩ := h
  have hab := hx.1.trans hx.2
  rw [hline x hx, hline a (Set.left_mem_Icc.mpr hab), hline b (Set.right_mem_Icc.mpr hab),
    Set.mem_uIcc]
  rcases le_total 0 slope with hslope | hslope
  · have hleft := mul_le_mul_of_nonneg_left hx.1 hslope
    have hright := mul_le_mul_of_nonneg_left hx.2 hslope
    exact .inl ⟨by linarith, by linarith⟩
  · have hleft := mul_le_mul_of_nonpos_left hx.1 hslope
    have hright := mul_le_mul_of_nonpos_left hx.2 hslope
    exact .inr ⟨by linarith, by linarith⟩

/-! ### Bounds from a grid -/

omit [Field K] [IsStrictOrderedRing K] in
/-- Around a point between points of a grid there are two without another one in between. -/
theorem exists_around {low high : K} (hlow : low ∈ grid) (hhigh : high ∈ grid) (hx : low ≤ x)
    (hx' : x ≤ high) :
    ∃ a ∈ grid, ∃ b ∈ grid, x ∈ Set.Icc a b ∧ ∀ c ∈ grid, c ∉ Set.Ioo a b := by
  obtain ⟨a, ha, hgreatest⟩ := (grid.toFinset.filter (· ≤ x)).exists_max_image id
    ⟨low, by simp [hlow, hx]⟩
  obtain ⟨b, hb, hleast⟩ := (grid.toFinset.filter (x ≤ ·)).exists_min_image id
    ⟨high, by simp [hhigh, hx']⟩
  rw [Finset.mem_filter, List.mem_toFinset] at ha hb
  refine ⟨a, ha.1, b, hb.1, ⟨ha.2, hb.2⟩, fun c hc hinside => ?_⟩
  rcases le_total c x with hcx | hcx
  · exact not_le.mpr hinside.1 (hgreatest c (by simp [hc, hcx]))
  · exact not_le.mpr hinside.2 (hleast c (by simp [hc, hcx]))

/-- Between points of the grid the function is bounded by its values on the grid. -/
theorem exists_bounds (hline : ∀ a ∈ grid, ∀ b ∈ grid, (∀ c ∈ grid, c ∉ Set.Ioo a b) →
      LinearOn f a b) {low high : K} (hlow : low ∈ grid) (hhigh : high ∈ grid) (hx : low ≤ x)
    (hx' : x ≤ high) : (∃ a ∈ grid, f a ≤ f x) ∧ ∃ b ∈ grid, f x ≤ f b := by
  obtain ⟨a, ha, b, hb, hab, hempty⟩ := exists_around hlow hhigh hx hx'
  rcases Set.mem_uIcc.mp ((hline a ha b hb hempty).mem_uIcc hab) with h | h
  · exact ⟨⟨a, ha, h.1⟩, b, hb, h.2⟩
  · exact ⟨⟨b, hb, h.1⟩, a, ha, h.2⟩

/-! ### Crossings -/

section Crossing

variable {fa fb : K}

/-- The two values have strictly opposite signs. -/
def OppositeSigns (fa fb : K) : Prop := fa < 0 ∧ 0 < fb ∨ 0 < fa ∧ fb < 0

instance : DecidableRel (@OppositeSigns K _ _) := fun fa fb =>
  inferInstanceAs (Decidable (fa < 0 ∧ 0 < fb ∨ 0 < fa ∧ fb < 0))

omit [IsStrictOrderedRing K] in
theorem OppositeSigns.left_ne_zero (h : OppositeSigns fa fb) : fa ≠ 0 := by
  rcases h with h | h
  · exact h.1.ne
  · exact h.1.ne'

omit [IsStrictOrderedRing K] in
theorem OppositeSigns.right_ne_zero (h : OppositeSigns fa fb) : fb ≠ 0 := by
  rcases h with h | h
  · exact h.2.ne'
  · exact h.2.ne

/-- The share of the cell before the crossing, without absolute values. -/
theorem OppositeSigns.share_eq (h : OppositeSigns fa fb) :
    |fa| / (|fa| + |fb|) = fa / (fa - fb) := by
  rcases h with ⟨ha, hb⟩ | ⟨ha, hb⟩
  · rw [abs_of_neg ha, abs_of_pos hb, ← neg_sub_neg, ← neg_div_neg_eq fa]
    congr 1
    ring
  · rw [abs_of_pos ha, abs_of_neg hb, sub_eq_add_neg]

theorem OppositeSigns.sub_ne_zero (h : OppositeSigns fa fb) : fa - fb ≠ 0 := by
  rcases h with ⟨ha, hb⟩ | ⟨ha, hb⟩
  · exact (sub_neg.mpr (ha.trans hb)).ne
  · exact (sub_pos.mpr (hb.trans ha)).ne'

theorem OppositeSigns.crossing_mem_Ioo (h : OppositeSigns fa fb) (hab : a < b) :
    crossing a fa b fb ∈ Set.Ioo a b := by
  have hfa : 0 < |fa| := abs_pos.mpr h.left_ne_zero
  have hfb : 0 < |fb| := abs_pos.mpr h.right_ne_zero
  have hspan : 0 < b - a := sub_pos.mpr hab
  have hshare : 0 < |fa| / (|fa| + |fb|) := div_pos hfa (add_pos hfa hfb)
  have hshare' : |fa| / (|fa| + |fb|) < 1 :=
    (div_lt_one (add_pos hfa hfb)).mpr (lt_add_of_pos_right _ hfb)
  have hleft := mul_pos hspan hshare
  have hright := mul_lt_mul_of_pos_left hshare' hspan
  rw [mul_one] at hright
  exact ⟨by unfold crossing; linarith, by unfold crossing; linarith⟩

/-- A function that is a line on a cell vanishes where its chord does. -/
theorem LinearOn.crossing_eq_zero (h : LinearOn f a b) (hab : a < b)
    (hopposite : OppositeSigns (f a) (f b)) : f (crossing a (f a) b (f b)) = 0 := by
  have hmem := hopposite.crossing_mem_Ioo hab
  have hspan := hopposite.sub_ne_zero
  obtain ⟨slope, intercept, hline⟩ := h
  have hfa := hline a (Set.left_mem_Icc.mpr hab.le)
  have hfb := hline b (Set.right_mem_Icc.mpr hab.le)
  rw [hline _ (Set.Ioo_subset_Icc_self hmem), crossing, hopposite.share_eq]
  have hslope : f a - f b = slope * (a - b) := by
    rw [hfa, hfb]
    ring
  calc slope * (a + (b - a) * (f a / (f a - f b))) + intercept
      = slope * a + intercept - slope * (a - b) * (f a / (f a - f b)) := by ring
    _ = f a - (f a - f b) * (f a / (f a - f b)) := by rw [hslope, hfa]
    _ = 0 := by rw [mul_div_cancel₀ _ hspan, sub_self]

end Crossing

/-! ### The cells of an increasing grid -/

section Cells

omit [Field K] [IsStrictOrderedRing K]

omit [LinearOrder K] in
theorem cells_cons_cons (a b : K) (rest : List K) :
    cells (a :: b :: rest) = (a, b) :: cells (b :: rest) := rfl

/-- A cell lies between two points of the grid, and no point of the grid lies in it. -/
theorem cell_of_mem_cells (hgrid : grid.Pairwise (· < ·)) {cell : K × K} (h : cell ∈ cells grid) :
    cell.1 ∈ grid ∧ cell.2 ∈ grid ∧ cell.1 < cell.2 ∧ ∀ c ∈ grid, c ∉ Set.Ioo cell.1 cell.2 := by
  induction grid with
  | nil => cases h
  | cons a rest ih =>
      cases rest with
      | nil => cases h
      | cons b rest =>
          have hrest := List.pairwise_cons.mp hgrid
          rw [cells_cons_cons] at h
          rcases List.mem_cons.mp h with rfl | hlater
          · refine ⟨List.mem_cons_self, List.mem_cons_of_mem a List.mem_cons_self,
              hrest.1 b List.mem_cons_self, ?_⟩
            intro c hc hinside
            rcases List.mem_cons.mp hc with rfl | hc
            · exact lt_irrefl c hinside.1
            rcases List.mem_cons.mp hc with rfl | hc
            · exact lt_irrefl c hinside.2
            · exact lt_asymm hinside.2 ((List.pairwise_cons.mp hrest.2).1 c hc)
          · obtain ⟨hleft, hright, hlt, hempty⟩ := ih hrest.2 hlater
            refine ⟨List.mem_cons_of_mem a hleft, List.mem_cons_of_mem a hright, hlt, ?_⟩
            intro c hc hinside
            rcases List.mem_cons.mp hc with rfl | hc
            · exact lt_asymm hinside.1 (hrest.1 cell.1 hleft)
            · exact hempty c hc hinside

omit [LinearOrder K] in
/-- Every point but the last is the left end of a cell. -/
theorem exists_cell_of_mem (h : a ∈ grid) (hlast : grid.getLast? ≠ some a) :
    ∃ b, (a, b) ∈ cells grid := by
  induction grid with
  | nil => cases h
  | cons c rest ih =>
      cases rest with
      | nil =>
          rw [List.mem_singleton] at h
          exact absurd (congrArg some h.symm) hlast
      | cons b rest =>
          rw [cells_cons_cons]
          rcases List.mem_cons.mp h with rfl | h
          · exact ⟨b, List.mem_cons_self⟩
          · obtain ⟨b', hcell⟩ := ih h (by rwa [List.getLast?_cons_cons] at hlast)
            exact ⟨b', List.mem_cons_of_mem _ hcell⟩

/-- The last point lies in no cell but at its right end. -/
theorem le_getLast (hgrid : grid.Pairwise (· < ·)) (h : grid.getLast? = some b) (ha : a ∈ grid) :
    a ≤ b := by
  obtain ⟨front, rfl⟩ := List.getLast?_eq_some_iff.mp h
  rcases List.mem_append.mp ha with ha | ha
  · exact ((List.pairwise_append.mp hgrid).2.2 a ha b List.mem_cons_self).le
  · exact (List.mem_singleton.mp ha).le

/-- Two cells with a point in common are one cell. -/
theorem cells_disjoint (hgrid : grid.Pairwise (· < ·)) {cell other : K × K}
    (hcell : cell ∈ cells grid) (hother : other ∈ cells grid) (hx : x ∈ Set.Ioo cell.1 cell.2)
    (hx' : x ∈ Set.Ioo other.1 other.2) : cell = other := by
  obtain ⟨hleft, hright, -, hempty⟩ := cell_of_mem_cells hgrid hcell
  obtain ⟨hleft', hright', -, hempty'⟩ := cell_of_mem_cells hgrid hother
  have hfirst : cell.1 = other.1 := by
    refine le_antisymm ?_ ?_
    · exact le_of_not_gt fun hlt => hempty' cell.1 hleft ⟨hlt, hx.1.trans hx'.2⟩
    · exact le_of_not_gt fun hlt => hempty other.1 hleft' ⟨hlt, hx'.1.trans hx.2⟩
  have hsecond : cell.2 = other.2 := by
    refine le_antisymm ?_ ?_
    · exact le_of_not_gt fun hlt => hempty other.2 hright' ⟨hx.1.trans hx'.2, hlt⟩
    · exact le_of_not_gt fun hlt => hempty' cell.2 hright ⟨hx'.1.trans hx.2, hlt⟩
  exact Prod.ext hfirst hsecond

end Cells

end OptionResearch.PiecewiseLinear
