import Mathlib.Data.List.Sort
import Mathlib.Order.Lattice
import Mathlib.Tactic.Linarith
import OptionResearch.SortedSearch

/-!
# Ranks in a sorted list

Where values are sorted, the ranks of a value are those between the number of smaller values and the
number of values that do not exceed it. So what holds along the ranks, and is harder the more values
it counts, can be said by counting values. A procedure over the ranks that stops at the first
failure, or goes up to the last success, is then independent of how equal values are ordered.
-/

namespace OptionResearch.RankedValues

open SortedSearch

variable {K : Type*} [LinearOrder K] {values : List K} {i : ℕ}

/-- How many values are at least `q`. -/
def atLeast (values : List K) (q : K) : ℕ := values.countP (q ≤ ·)

/-- How many values are at most `q`. -/
def atMost (values : List K) (q : K) : ℕ := values.countP (· ≤ q)

theorem atLeast_perm {others : List K} (h : values.Perm others) (q : K) :
    atLeast values q = atLeast others q := h.countP_eq _

theorem atMost_perm {others : List K} (h : values.Perm others) (q : K) :
    atMost values q = atMost others q := h.countP_eq _

theorem atLeast_le_length (values : List K) (q : K) : atLeast values q ≤ values.length :=
  List.countP_le_length

theorem atMost_le_length (values : List K) (q : K) : atMost values q ≤ values.length :=
  List.countP_le_length

theorem atLeast_pos {q : K} (h : q ∈ values) : 0 < atLeast values q :=
  List.countP_pos_iff.mpr ⟨q, h, decide_eq_true le_rfl⟩

theorem atMost_pos {q : K} (h : q ∈ values) : 0 < atMost values q :=
  List.countP_pos_iff.mpr ⟨q, h, decide_eq_true le_rfl⟩

/-- Every value counts on one side of `q`, and those equal to it on both. -/
theorem atMost_add_atLeast (values : List K) (q : K) :
    atMost values q + atLeast values q = values.length + values.count q := by
  induction values with
  | nil => rfl
  | cons first rest ih =>
    rw [atMost, atLeast] at ih ⊢
    rw [List.countP_cons, List.countP_cons, List.length_cons, List.count_cons]
    rcases lt_trichotomy first q with hlt | rfl | hgt
    · simp only [hlt.le, hlt.not_ge, beq_eq_false_iff_ne.mpr hlt.ne, decide_true, decide_false,
        if_true, Bool.false_eq_true, if_false]
      omega
    · simp only [le_refl, decide_true, beq_self_eq_true, if_true]
      omega
    · simp only [hgt.le, hgt.not_ge, beq_eq_false_iff_ne.mpr hgt.ne', decide_true, decide_false,
        if_true, Bool.false_eq_true, if_false]
      omega

/-- The counts on the two sides of a value multiply to at least the number of values. -/
theorem length_le_atMost_mul_atLeast {q : K} (h : q ∈ values) :
    values.length ≤ atMost values q * atLeast values q := by
  have hsum := atMost_add_atLeast values q
  have hcount : 0 < values.count q := List.count_pos_iff.mpr h
  obtain ⟨a, ha⟩ := Nat.exists_eq_add_of_lt (atMost_pos h)
  obtain ⟨b, hb⟩ := Nat.exists_eq_add_of_lt (atLeast_pos h)
  rw [ha, hb] at hsum ⊢
  nlinarith [Nat.zero_le (a * b)]

/-- In a sorted list the values below a bound are those before a position. -/
theorem lt_countP_iff {p : K → Bool} (hsorted : values.Pairwise (· ≤ ·))
    (hdown : ∀ x y, x ≤ y → p y = true → p x = true) (hi : i < values.length) :
    p values[i] = true ↔ i < values.countP p := by
  induction values generalizing i with
  | nil => exact absurd hi (Nat.not_lt_zero i)
  | cons first rest ih =>
    obtain ⟨hfirst, hrest⟩ := List.pairwise_cons.mp hsorted
    by_cases hp : p first = true
    · rw [List.countP_cons_of_pos hp]
      cases i with
      | zero => exact iff_of_true hp (Nat.succ_pos _)
      | succ i =>
        rw [List.getElem_cons_succ, ih hrest (Nat.lt_of_succ_lt_succ hi)]
        exact Nat.succ_lt_succ_iff.symm
    · have hnone : (first :: rest).countP p = 0 := by
        rw [List.countP_eq_zero]
        intro x hx
        rcases List.mem_cons.mp hx with rfl | hx
        · exact hp
        · exact fun h => hp (hdown first x (hfirst x hx) h)
      rw [hnone]
      refine iff_of_false ?_ (Nat.not_lt_zero i)
      have hmem := List.getElem_mem hi
      rcases List.mem_cons.mp hmem with heq | hx
      · rw [heq]
        exact hp
      · exact fun h => hp (hdown first _ (hfirst _ hx) h)

theorem getElem_le_iff (hsorted : values.Pairwise (· ≤ ·)) (hi : i < values.length) (q : K) :
    values[i] ≤ q ↔ i < atMost values q := by
  rw [atMost, ← lt_countP_iff hsorted _ hi, decide_eq_true_iff]
  intro x y hle hy
  exact decide_eq_true (hle.trans (of_decide_eq_true hy))

theorem getElem_lt_iff (hsorted : values.Pairwise (· ≤ ·)) (hi : i < values.length) (q : K) :
    values[i] < q ↔ i + atLeast values q < values.length := by
  have hcount : values.countP (· < q) + atLeast values q = values.length := by
    rw [List.length_eq_countP_add_countP (· < q), atLeast]
    congr 2
    funext x
    rw [decide_eq_decide, decide_eq_true_iff, not_lt]
  rw [← hcount, Nat.add_lt_add_iff_right, ← lt_countP_iff hsorted _ hi, decide_eq_true_iff]
  intro x y hle hy
  exact decide_eq_true (hle.trans_lt (of_decide_eq_true hy))

/-- The first of the values equal to `q`. -/
theorem exists_first (hsorted : values.Pairwise (· ≤ ·)) {q : K} (hq : q ∈ values) :
    ∃ j, ∃ hj : j < values.length, values[j] = q ∧ j + atLeast values q = values.length ∧
      ∀ i (hi : i < values.length), q ≤ values[i] → j ≤ i := by
  have hlength := atLeast_le_length values q
  have hpos := atLeast_pos hq
  obtain ⟨j, hj⟩ : ∃ j, j + atLeast values q = values.length := ⟨_, Nat.sub_add_cancel hlength⟩
  have hjlt : j < values.length := by omega
  have hfirst : ∀ i (hi : i < values.length), q ≤ values[i] → j ≤ i := by
    intro i hi hle
    have hnot := (getElem_lt_iff hsorted hi q).not.mp (not_lt.mpr hle)
    omega
  obtain ⟨i, hi, rfl⟩ := List.mem_iff_getElem.mp hq
  have hge : ¬ values[j] < values[i] := by
    rw [getElem_lt_iff hsorted hjlt]
    omega
  exact ⟨j, hjlt, le_antisymm (getElem_mono hsorted hjlt hi (hfirst i hi le_rfl)) (not_lt.mp hge),
    hj, hfirst⟩

/-- The last of the values equal to `q`. -/
theorem exists_last (hsorted : values.Pairwise (· ≤ ·)) {q : K} (hq : q ∈ values) :
    ∃ j, ∃ hj : j < values.length, values[j] = q ∧ j + 1 = atMost values q ∧
      ∀ i (hi : i < values.length), values[i] ≤ q → i ≤ j := by
  have hlength := atMost_le_length values q
  have hpos := atMost_pos hq
  obtain ⟨j, hj⟩ : ∃ j, j + 1 = atMost values q := ⟨_, Nat.sub_add_cancel hpos⟩
  have hjlt : j < values.length := by omega
  have hlast : ∀ i (hi : i < values.length), values[i] ≤ q → i ≤ j := by
    intro i hi hle
    have hlt := (getElem_le_iff hsorted hi q).mp hle
    omega
  obtain ⟨i, hi, rfl⟩ := List.mem_iff_getElem.mp hq
  have hle : values[j] ≤ values[i] := by
    rw [getElem_le_iff hsorted hjlt]
    omega
  exact ⟨j, hjlt, le_antisymm hle (getElem_mono hsorted hi hjlt (hlast i hi le_rfl)), hj, hlast⟩

/-- What counts the values from a rank on, said of the values themselves. -/
theorem forall_before_iff {P : ℕ → K → Prop} (hsorted : values.Pairwise (· ≤ ·))
    (hanti : ∀ q ∈ values, ∀ n n', n ≤ n' → P n' q → P n q) {k : ℕ} (hk : k < values.length) :
    (∀ j (hj : j < values.length), j ≤ k → P (values.length - j) values[j]) ↔
      ∀ q ∈ values, q ≤ values[k] → P (atLeast values q) q := by
  constructor
  · intro h q hq hle
    obtain ⟨j, hj, hvalue, hcount, hfirst⟩ := exists_first hsorted hq
    have hranked := h j hj (hfirst k hk hle)
    rw [hvalue] at hranked
    exact hanti q hq _ _ (by omega) hranked
  · intro h j hj hjk
    have hmem := List.getElem_mem hj
    obtain ⟨first, _, _, hcount, hfirst⟩ := exists_first hsorted hmem
    have hle := hfirst j hj le_rfl
    exact hanti _ hmem _ _ (by omega) (h _ hmem (getElem_mono hsorted hj hk hjk))

/-- What counts the values up to a rank, said of the values themselves. -/
theorem forall_after_iff {P : ℕ → K → Prop} (hsorted : values.Pairwise (· ≤ ·))
    (hanti : ∀ q ∈ values, ∀ n n', 0 < n → n ≤ n' → P n' q → P n q) {k : ℕ}
    (hk : k < values.length) :
    (∀ j (hj : j < values.length), k ≤ j → P (j + 1) values[j]) ↔
      ∀ q ∈ values, values[k] ≤ q → P (atMost values q) q := by
  constructor
  · intro h q hq hle
    obtain ⟨j, hj, hvalue, hcount, hlast⟩ := exists_last hsorted hq
    have hranked := h j hj (hlast k hk hle)
    rw [hvalue, hcount] at hranked
    exact hranked
  · intro h j hj hkj
    have hmem := List.getElem_mem hj
    obtain ⟨last, _, _, hcount, hlast⟩ := exists_last hsorted hmem
    have hle := hlast j hj le_rfl
    exact hanti _ hmem _ _ (Nat.succ_pos j) (by omega)
      (h _ hmem (getElem_mono hsorted hk hj hkj))

/-! ### Procedures over the ranks -/

section Procedures

variable {V : Type*} (passes : ℕ → V → Prop) [∀ rank value, Decidable (passes rank value)]

/-- The indices of the items up to the first rank that fails. -/
def stepDown : ℕ → List (V × ℕ) → List ℕ
  | _, [] => []
  | rank, (value, index) :: rest =>
    if passes rank value then index :: stepDown (rank + 1) rest else []

/-- The indices of the items up to the last rank that passes. -/
def stepUp : ℕ → List (V × ℕ) → List ℕ
  | _, [] => []
  | rank, (value, index) :: rest =>
    if passes rank value ∨ stepUp (rank + 1) rest ≠ [] then index :: stepUp (rank + 1) rest else []

variable {passes} {items : List (V × ℕ)} {rank k : ℕ}

theorem mem_stepDown (hnodup : (items.map Prod.snd).Nodup) (hk : k < items.length) :
    items[k].2 ∈ stepDown passes rank items ↔
      ∀ j (hj : j < items.length), j ≤ k → passes (rank + j) items[j].1 := by
  induction items generalizing rank k with
  | nil => exact absurd hk (Nat.not_lt_zero k)
  | cons item rest ih =>
    obtain ⟨hfresh, hrest⟩ := List.nodup_cons.mp hnodup
    rw [stepDown]
    split_ifs with hpass
    · rw [List.mem_cons]
      cases k with
      | zero =>
        refine iff_of_true (.inl rfl) fun j hj hle => ?_
        obtain rfl := Nat.le_zero.mp hle
        exact hpass
      | succ k =>
        have hk' : k < rest.length := Nat.lt_of_succ_lt_succ hk
        have hne : rest[k].2 ≠ item.2 := fun heq =>
          hfresh (heq ▸ List.mem_map_of_mem (List.getElem_mem hk'))
        rw [List.getElem_cons_succ, or_iff_right hne, ih hrest hk']
        constructor
        · intro h j hj hle
          cases j with
          | zero => exact hpass
          | succ j =>
            rw [← Nat.add_assoc, Nat.add_right_comm]
            exact h j (Nat.lt_of_succ_lt_succ hj) (Nat.le_of_succ_le_succ hle)
        · intro h j hj hle
          have hsucc := h (j + 1) (Nat.succ_lt_succ hj) (Nat.succ_le_succ hle)
          rw [Nat.add_right_comm, Nat.add_assoc]
          exact hsucc
    · refine iff_of_false List.not_mem_nil fun h => hpass ?_
      exact h 0 (Nat.succ_pos _) (Nat.zero_le k)

theorem stepUp_ne_nil_iff : stepUp passes rank items ≠ [] ↔
    ∃ j, ∃ hj : j < items.length, passes (rank + j) items[j].1 := by
  induction items generalizing rank with
  | nil => exact iff_of_false (fun h => h rfl) fun ⟨j, hj, _⟩ => Nat.not_lt_zero j hj
  | cons item rest ih =>
    rw [stepUp]
    split_ifs with hpass
    · refine iff_of_true (List.cons_ne_nil _ _) ?_
      rcases hpass with hpass | hlater
      · exact ⟨0, Nat.succ_pos _, hpass⟩
      · obtain ⟨j, hj, hpass⟩ := ih.mp hlater
        rw [Nat.add_right_comm, Nat.add_assoc] at hpass
        exact ⟨j + 1, Nat.succ_lt_succ hj, hpass⟩
    · obtain ⟨hpass, hlater⟩ := not_or.mp hpass
      refine iff_of_false (fun h => h rfl) ?_
      rintro ⟨j, hj, hj'⟩
      cases j with
      | zero => exact hpass hj'
      | succ j =>
        rw [← Nat.add_assoc, Nat.add_right_comm] at hj'
        exact hlater (ih.mpr ⟨j, Nat.lt_of_succ_lt_succ hj, hj'⟩)

theorem mem_stepUp (hnodup : (items.map Prod.snd).Nodup) (hk : k < items.length) :
    items[k].2 ∈ stepUp passes rank items ↔
      ∃ j, ∃ hj : j < items.length, k ≤ j ∧ passes (rank + j) items[j].1 := by
  induction items generalizing rank k with
  | nil => exact absurd hk (Nat.not_lt_zero k)
  | cons item rest ih =>
    obtain ⟨hfresh, hrest⟩ := List.nodup_cons.mp hnodup
    cases k with
    | zero =>
      have hfirst : item.2 ∈ stepUp passes rank (item :: rest) ↔
          stepUp passes rank (item :: rest) ≠ [] := by
        rw [stepUp]
        split_ifs
        · exact iff_of_true List.mem_cons_self (List.cons_ne_nil _ _)
        · exact iff_of_false List.not_mem_nil fun h => h rfl
      rw [List.getElem_cons_zero, hfirst, stepUp_ne_nil_iff]
      exact exists_congr fun j => exists_congr fun _ => (and_iff_right (Nat.zero_le j)).symm
    | succ k =>
      have hk' : k < rest.length := Nat.lt_of_succ_lt_succ hk
      have hne : rest[k].2 ≠ item.2 := fun heq =>
        hfresh (heq ▸ List.mem_map_of_mem (List.getElem_mem hk'))
      have hlater : rest[k].2 ∈ stepUp passes rank (item :: rest) ↔
          rest[k].2 ∈ stepUp passes (rank + 1) rest := by
        rw [stepUp]
        split_ifs with hpass
        · rw [List.mem_cons, or_iff_right hne]
        · rw [not_or, not_not] at hpass
          rw [hpass.2]
      rw [List.getElem_cons_succ, hlater, ih hrest hk']
      constructor
      · rintro ⟨j, hj, hle, hpass⟩
        rw [Nat.add_right_comm, Nat.add_assoc] at hpass
        exact ⟨j + 1, Nat.succ_lt_succ hj, Nat.succ_le_succ hle, hpass⟩
      · rintro ⟨j, hj, hle, hpass⟩
        cases j with
        | zero => exact absurd hle (Nat.not_succ_le_zero k)
        | succ j =>
          rw [← Nat.add_assoc, Nat.add_right_comm] at hpass
          exact ⟨j, Nat.lt_of_succ_lt_succ hj, Nat.le_of_succ_le_succ hle, hpass⟩

end Procedures

/-! ### Running values -/

section Running

variable {α V : Type*} (combine : V → V → V) (position : α → ℕ) (candidate : α → V)

/-- Combines the candidates one after the other, and writes what it has so far at the position of
each. -/
def writeRunning : List α → V → List V → List V
  | [], _, written => written
  | item :: rest, running, written =>
    let running := combine running (candidate item)
    writeRunning rest running (written.set (position item) running)

variable {combine position candidate} {items : List α} {running : V} {written : List V}

@[simp] theorem length_writeRunning :
    (writeRunning combine position candidate items running written).length = written.length := by
  induction items generalizing running written with
  | nil => rfl
  | cons item rest ih => rw [writeRunning, ih, List.length_set]

theorem getElem?_writeRunning_of_not_mem {i : ℕ} (h : i ∉ items.map position) :
    (writeRunning combine position candidate items running written)[i]? = written[i]? := by
  induction items generalizing running written with
  | nil => rfl
  | cons item rest ih =>
    rw [List.map_cons, List.mem_cons, not_or] at h
    rw [writeRunning, ih h.2, List.getElem?_set_ne (Ne.symm h.1)]

/-- At the position of an item stands what the candidates up to it combine to. -/
theorem getElem?_writeRunning {k i : ℕ} (hnodup : (items.map position).Nodup)
    (hk : k < items.length) (hposition : position items[k] = i) (hi : i < written.length) :
    (writeRunning combine position candidate items running written)[i]? =
      some ((items.take (k + 1)).foldl (fun value x => combine value (candidate x)) running) := by
  subst hposition
  induction items generalizing running written k with
  | nil => exact absurd hk (Nat.not_lt_zero k)
  | cons item rest ih =>
    obtain ⟨hfresh, hrest⟩ := List.nodup_cons.mp hnodup
    cases k with
    | zero =>
      rw [List.getElem_cons_zero] at hi ⊢
      rw [writeRunning, getElem?_writeRunning_of_not_mem hfresh, List.getElem?_set_self hi]
      rfl
    | succ k =>
      rw [List.getElem_cons_succ] at hi ⊢
      rw [writeRunning, ih hrest (Nat.lt_of_succ_lt_succ hk) (by rw [List.length_set]; exact hi)]
      rfl

/-- What holds of a combination exactly where it holds of both parts, holds of a running value
exactly where it holds of the start and of every candidate. -/
theorem foldl_iff (good : V → Prop) (hgood : ∀ a b, good (combine a b) ↔ good a ∧ good b) :
    good (items.foldl (fun value x => combine value (candidate x)) running) ↔
      good running ∧ ∀ x ∈ items, good (candidate x) := by
  induction items generalizing running with
  | nil => simp
  | cons item rest ih => rw [List.foldl_cons, ih, hgood, List.forall_mem_cons, and_assoc]

theorem forall_mem_take_zipIdx {Q : α × ℕ → Prop} {k : ℕ} :
    (∀ x ∈ (items.zipIdx 1).take (k + 1), Q x) ↔
      ∀ j (hj : j < items.length), j ≤ k → Q (items[j], 1 + j) := by
  constructor
  · intro h j hj hle
    refine h _ (List.mem_take_iff_getElem.mpr ⟨j, ?_, List.getElem_zipIdx _⟩)
    rw [List.length_zipIdx]
    omega
  · intro h x hx
    obtain ⟨j, hj, rfl⟩ := List.mem_take_iff_getElem.mp hx
    rw [List.length_zipIdx] at hj
    rw [List.getElem_zipIdx]
    exact h j (by omega) (by omega)

theorem forall_mem_drop_zipIdx {Q : α × ℕ → Prop} {k : ℕ} :
    (∀ x ∈ (items.zipIdx 1).drop k, Q x) ↔
      ∀ j (hj : j < items.length), k ≤ j → Q (items[j], 1 + j) := by
  constructor
  · intro h j hj hle
    obtain ⟨i, rfl⟩ := Nat.exists_eq_add_of_le hle
    refine h _ (List.mem_drop_iff_getElem.mpr ⟨i, ?_, List.getElem_zipIdx _⟩)
    rw [List.length_zipIdx]
    omega
  · intro h x hx
    obtain ⟨j, hj, rfl⟩ := List.mem_drop_iff_getElem.mp hx
    rw [List.length_zipIdx] at hj
    rw [List.getElem_zipIdx]
    exact h (k + j) (by omega) (by omega)

end Running

end OptionResearch.RankedValues
