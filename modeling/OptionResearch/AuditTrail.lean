import Mathlib.Data.List.Induction

/-!
# Audit trails

A trail is a list of records, each with the state it left and the state it reached, that leads
from one state to another without a gap. `Trail` speaks of any type of records and states.
-/

namespace OptionResearch.AuditTrail

variable {R S : Type} (prior next : R → S)

/-- The records lead from the first state to the last without a gap. -/
def Trail : S → List R → S → Prop
  | s, [], t => s = t
  | s, record :: rest, t => prior record = s ∧ Trail (next record) rest t

variable {prior next}

theorem Trail.concat {s t : S} {records : List R} (h : Trail prior next s records t) {record : R}
    (hrecord : prior record = t) :
    Trail prior next s (records ++ [record]) (next record) := by
  induction records generalizing s with
  | nil => exact ⟨hrecord.trans (Eq.symm h), rfl⟩
  | cons first rest ih => exact ⟨h.1, ih h.2⟩

end OptionResearch.AuditTrail
