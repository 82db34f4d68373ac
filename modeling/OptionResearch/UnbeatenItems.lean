import Mathlib.Data.Set.Finite.List
import Mathlib.Order.WellFounded

/-!
# The unbeaten items of a finite list

Where one item beating another is a strict order on a list, every item is unbeaten or beaten by an
unbeaten one.
-/

namespace OptionResearch

variable {α : Type*} {items : List α} {beats : α → α → Prop}

/-- No item of the list beats it. -/
def Unbeaten (beats : α → α → Prop) (items : List α) (item : α) : Prop :=
  ∀ other ∈ items, ¬ beats other item

/-- Every beaten item is beaten by an unbeaten one. -/
def UnbeatenCover (beats : α → α → Prop) (items : List α) : Prop :=
  ∀ item ∈ items, ¬ Unbeaten beats items item →
    ∃ best ∈ items, beats best item ∧ Unbeaten beats items best

theorem UnbeatenCover.exists_unbeaten (h : UnbeatenCover beats items) (hne : items ≠ []) :
    ∃ best ∈ items, Unbeaten beats items best := by
  obtain ⟨item, rest, rfl⟩ := List.exists_cons_of_ne_nil hne
  by_cases hitem : Unbeaten beats (item :: rest) item
  · exact ⟨item, List.mem_cons_self, hitem⟩
  · obtain ⟨best, hmem, _, hbest⟩ := h item List.mem_cons_self hitem
    exact ⟨best, hmem, hbest⟩

/-- From any item, going on to one that beats it ends at an unbeaten one. -/
theorem unbeatenCover_of_trans (hirrefl : ∀ a ∈ items, ¬ beats a a)
    (htrans : ∀ a ∈ items, ∀ b ∈ items, ∀ c ∈ items, beats a b → beats b c → beats a c) :
    UnbeatenCover beats items := by
  let below : {a // a ∈ items} → {a // a ∈ items} → Prop := fun a b => beats a b
  have hfinite : Finite {a // a ∈ items} := (List.finite_toSet items).to_subtype
  have : Std.Irrefl below := ⟨fun a => hirrefl a a.2⟩
  have : IsTrans _ below := ⟨fun a b c => htrans a a.2 b b.2 c c.2⟩
  have hwell : WellFounded below := Finite.wellFounded_of_trans_of_irrefl below
  intro item hitem hbeaten
  obtain ⟨first, hfirst, hbeats⟩ : ∃ first ∈ items, beats first item := by
    simpa only [Unbeaten, not_forall, not_not, exists_prop] using hbeaten
  obtain ⟨best, hbest, hleast⟩ :=
    hwell.has_min {a : {a // a ∈ items} | beats a item} ⟨⟨first, hfirst⟩, hbeats⟩
  refine ⟨best, best.2, hbest, fun other hother hover => ?_⟩
  exact hleast ⟨other, hother⟩ (htrans other hother best best.2 item hitem hover hbest) hover

end OptionResearch
