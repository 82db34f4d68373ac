import Mathlib.Data.List.Nodup
import Mathlib.Data.Nat.ModEq

/-!
# Walks around a circle of positions

A walk over `n` positions in steps of one length, from an offset on, wraps around at the end. It
meets no position twice while all its steps together stay within one turn, and in steps of length
one it meets every position within one turn.
-/

namespace OptionResearch.ModularStrides

/-- The position after `k` steps. -/
def strideAt (n step offset k : Nat) : Nat := (offset + k * step) % n

variable {n step offset k : Nat}

theorem strideAt_zero (h : offset < n) : strideAt n step offset 0 = offset := by
  rw [strideAt, Nat.zero_mul, Nat.add_zero, Nat.mod_eq_of_lt h]

/-- A walk that goes on from the next position. -/
theorem strideAt_succ :
    strideAt n step offset (k + 1) = strideAt n step ((offset + step) % n) k := by
  rw [strideAt, strideAt, Nat.mod_add_mod, Nat.add_mul, Nat.one_mul, Nat.add_assoc,
    Nat.add_comm step]

/-- Within one turn no position is met twice. -/
theorem strideAt_injOn {count i j : Nat} (hstep : 0 < step) (hturn : count * step ≤ n)
    (hi : i < count) (hj : j < count) (h : strideAt n step offset i = strideAt n step offset j) :
    i = j := by
  have hlt : ∀ k, k < count → k * step < n := fun k hk =>
    (Nat.mul_lt_mul_of_pos_right hk hstep).trans_le hturn
  have hmod : i * step ≡ j * step [MOD n] := Nat.ModEq.add_left_cancel' offset h
  have heq : i * step = j * step := Nat.ModEq.eq_of_lt_of_lt hmod (hlt i hi) (hlt j hj)
  exact Nat.eq_of_mul_eq_mul_right hstep heq

/-- In steps of one, a whole turn meets every position. -/
theorem exists_strideAt_one {count position : Nat} (hcount : n ≤ count) (h : position < n) :
    ∃ k < count, strideAt n 1 offset k = position := by
  have hn : 0 < n := Nat.zero_lt_of_lt h
  have hoffset := Nat.mod_lt offset hn
  refine ⟨(position + (n - offset % n)) % n, (Nat.mod_lt _ hn).trans_le hcount, ?_⟩
  have hsum : offset % n + (position + (n - offset % n)) = position + n := by omega
  rw [strideAt, Nat.mul_one, Nat.add_mod_mod, ← Nat.mod_add_mod, hsum, Nat.add_mod_right,
    Nat.mod_eq_of_lt h]

/-- The positions of the first `count` steps. -/
def strides (n step offset count : Nat) : List Nat :=
  (List.range count).map (strideAt n step offset)

theorem strides_succ (count : Nat) :
    strides n step offset (count + 1) =
      strideAt n step offset 0 :: strides n step ((offset + step) % n) count := by
  rw [strides, List.range_succ_eq_map, List.map_cons, List.map_map, strides]
  congr 1
  apply List.map_congr_left
  intro k _
  exact strideAt_succ

theorem nodup_strides {count : Nat} (hstep : 0 < step) (hturn : count * step ≤ n) :
    (strides n step offset count).Nodup :=
  List.nodup_range.map_on fun _ hi _ hj h =>
    strideAt_injOn hstep hturn (List.mem_range.mp hi) (List.mem_range.mp hj) h

theorem mem_strides_one {count position : Nat} (hcount : n ≤ count) (h : position < n) :
    position ∈ strides n 1 offset count := by
  obtain ⟨k, hk, hposition⟩ : ∃ k < count, strideAt n 1 offset k = position :=
    exists_strideAt_one hcount h
  exact List.mem_map.mpr ⟨k, List.mem_range.mpr hk, hposition⟩

end OptionResearch.ModularStrides
