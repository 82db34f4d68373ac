import Mathlib.Data.List.Range
import Mathlib.Order.Defs.PartialOrder
import Mathlib.Order.Basic

/-!
# Backward induction on a recombining tree

A tree of `n` periods has `step + 1` nodes at each step; the node `(step, node)` is followed by
`(step + 1, node)` and `(step + 1, node + 1)`. `nodeValue` rolls values back by a rule, from leaf
values `k` steps later. `adjacent` is one step of it on the list of a whole layer.
-/

namespace OptionResearch.RecombiningTree

variable {α β : Type*}

/-- One value for each two neighbours of a list; the rule is told the position of the first. -/
def adjacent (rule : ℕ → α → α → β) : ℕ → List α → List β
  | node, low :: high :: rest => rule node low high :: adjacent rule (node + 1) (high :: rest)
  | _, [_] => []
  | _, [] => []

/-- The neighbours in a row of values are those of successive positions. -/
theorem adjacent_map (rule : ℕ → α → α → β) (value : ℕ → α) (first width : ℕ) :
    adjacent rule first ((List.range' first (width + 1)).map value) =
      (List.range' first width).map fun node => rule node (value node) (value (node + 1)) := by
  induction width generalizing first with
  | zero => rfl
  | succ width ih =>
      have hnext := ih (first + 1)
      rw [List.range'_succ, List.map_cons] at hnext
      rw [List.range'_succ, List.range'_succ, List.range'_succ, List.map_cons, List.map_cons,
        List.map_cons, adjacent, hnext]

/-- The value of a node whose leaves are `k` steps later. -/
def nodeValue (rule : ℕ → ℕ → α → α → α) (leaf : ℕ → α) : ℕ → ℕ → ℕ → α
  | 0, _, node => leaf node
  | k + 1, step, node =>
    rule step node (nodeValue rule leaf k (step + 1) node)
      (nodeValue rule leaf k (step + 1) (node + 1))

variable {rule : ℕ → ℕ → α → α → α} {leaf : ℕ → α}

/-- The last of `n` steps has its leaves one step later. -/
theorem nodeValue_of_lt {n step : ℕ} (h : step < n) (node : ℕ) :
    nodeValue rule leaf (n - step) step node =
      rule step node (nodeValue rule leaf (n - (step + 1)) (step + 1) node)
        (nodeValue rule leaf (n - (step + 1)) (step + 1) (node + 1)) := by
  obtain ⟨k, hk⟩ : ∃ k, n - step = k + 1 := ⟨n - step - 1, by omega⟩
  have hnext : n - (step + 1) = k := by omega
  rw [hk, hnext, nodeValue]

/-- What the leaves have and the rule keeps, every node up to the leaves has. -/
theorem nodeValue_invariant {P : ℕ → ℕ → α → Prop} {n : ℕ}
    (hleaf : ∀ node ≤ n, P n node (leaf node))
    (hrule : ∀ step < n, ∀ node ≤ step, ∀ low high, P (step + 1) node low →
      P (step + 1) (node + 1) high → P step node (rule step node low high))
    {k step node : ℕ} (hstep : step + k = n) (hnode : node ≤ step) :
    P step node (nodeValue rule leaf k step node) := by
  induction k generalizing step node with
  | zero =>
      obtain rfl : step = n := hstep
      exact hleaf node hnode
  | succ k ih =>
      have hlow := @ih (step + 1) node (by omega) (by omega)
      have hhigh := @ih (step + 1) (node + 1) (by omega) (by omega)
      exact hrule step (by omega) node hnode _ _ hlow hhigh

/-- Two trees whose leaves are related, by a relation that their rules keep. -/
theorem nodeValue_related {β : Type*} {other : ℕ → ℕ → β → β → β} {otherLeaf : ℕ → β}
    {R : ℕ → ℕ → α → β → Prop} {n : ℕ} (hleaf : ∀ node ≤ n, R n node (leaf node) (otherLeaf node))
    (hrule : ∀ step < n, ∀ node ≤ step, ∀ low high low' high', R (step + 1) node low low' →
      R (step + 1) (node + 1) high high' →
        R step node (rule step node low high) (other step node low' high'))
    {k step node : ℕ} (hstep : step + k = n) (hnode : node ≤ step) :
    R step node (nodeValue rule leaf k step node) (nodeValue other otherLeaf k step node) := by
  induction k generalizing step node with
  | zero =>
      obtain rfl : step = n := hstep
      exact hleaf node hnode
  | succ k ih =>
      have hlow := @ih (step + 1) node (by omega) (by omega)
      have hhigh := @ih (step + 1) (node + 1) (by omega) (by omega)
      exact hrule step (by omega) node hnode _ _ _ _ hlow hhigh

end OptionResearch.RecombiningTree
