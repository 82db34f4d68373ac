import OptionResearch.InsertionDict

/-!
# Claims of names

A table says which owner a name belongs to. An owner claims names one by one and stops at the first
that belongs to another, with the names before it already its own. No claim takes a name away from
its owner.
-/

namespace OptionResearch

namespace NameClaims

variable {κ : Type} [DecidableEq κ] {owner name other holder : κ} {names : List κ}
  {table extended : InsertionDict κ κ}

/-- Nobody else has the name. -/
def Free (owner : κ) (table : InsertionDict κ κ) (name : κ) : Prop :=
  ∀ holder ∈ table.get? name, holder = owner

instance : Decidable (Free owner table name) :=
  match h : table.get? name with
  | none => .isTrue fun _ hholder => nomatch h ▸ hholder
  | some holder =>
    if hholder : holder = owner then
      .isTrue fun _ hother => Option.some.inj (h.symm.trans hother) ▸ hholder
    else .isFalse fun hfree => hholder (hfree holder h)

/-- Claims the names in turn, up to the first that belongs to another. -/
def claim (owner : κ) : List κ → InsertionDict κ κ → Option κ × InsertionDict κ κ
  | [], table => (none, table)
  | name :: rest, table =>
    if Free owner table name then claim owner rest (table.set name owner) else (some name, table)

/-- Every name of one table has the same owner in the other. -/
def Extends (table extended : InsertionDict κ κ) : Prop :=
  ∀ name, ∀ holder ∈ table.get? name, holder ∈ extended.get? name

theorem Free.get? (h : Free owner table name) :
    table.get? name = none ∨ table.get? name = some owner := by
  rcases hholder : table.get? name with _ | holder
  · exact .inl rfl
  · exact .inr (congrArg some (h holder hholder))

theorem Extends.refl (table : InsertionDict κ κ) : Extends table table := fun _ _ h => h

theorem Extends.trans {last : InsertionDict κ κ} (h : Extends table extended)
    (h' : Extends extended last) : Extends table last :=
  fun name holder hholder => h' name holder (h name holder hholder)

theorem Free.extends_set (h : Free owner table name) : Extends table (table.set name owner) := by
  intro other holder hholder
  rw [InsertionDict.get?_set]
  split_ifs with heq
  · subst heq
    exact congrArg some (h holder hholder).symm
  · exact hholder

theorem claim_cons_of_free (h : Free owner table name) :
    claim owner (name :: names) table = claim owner names (table.set name owner) := if_pos h

theorem claim_cons_of_not_free (h : ¬ Free owner table name) :
    claim owner (name :: names) table = (some name, table) := if_neg h

theorem extends_claim (owner : κ) (names : List κ) (table : InsertionDict κ κ) :
    Extends table (claim owner names table).2 := by
  induction names generalizing table with
  | nil => exact .refl table
  | cons name rest ih =>
    by_cases hfree : Free owner table name
    · rw [claim_cons_of_free hfree]
      exact hfree.extends_set.trans (ih _)
    · rw [claim_cons_of_not_free hfree]
      exact .refl table

/-- A claim changes the owner of a name only by giving it to the one who claims it. -/
theorem get?_claim (owner : κ) (names : List κ) (table : InsertionDict κ κ) (other : κ) :
    (claim owner names table).2.get? other = table.get? other ∨
      other ∈ names ∧ (claim owner names table).2.get? other = some owner := by
  induction names generalizing table with
  | nil => exact .inl rfl
  | cons name rest ih =>
    by_cases hfree : Free owner table name
    · rw [claim_cons_of_free hfree]
      rcases ih (table.set name owner) with hsame | ⟨hmem, hclaimed⟩
      · rw [InsertionDict.get?_set] at hsame
        split_ifs at hsame with heq
        · exact .inr ⟨heq ▸ List.mem_cons_self, hsame⟩
        · exact .inl hsame
      · exact .inr ⟨List.mem_cons_of_mem _ hmem, hclaimed⟩
    · rw [claim_cons_of_not_free hfree]
      exact .inl rfl

/-- A claim that meets no other owner gets all its names. -/
theorem get?_claim_of_none (h : (claim owner names table).1 = none) (hname : name ∈ names) :
    (claim owner names table).2.get? name = some owner := by
  induction names generalizing table with
  | nil => exact absurd hname List.not_mem_nil
  | cons first rest ih =>
    by_cases hfree : Free owner table first
    · rw [claim_cons_of_free hfree] at h ⊢
      rcases List.mem_cons.mp hname with rfl | hrest
      · refine extends_claim owner rest _ name owner ?_
        rw [InsertionDict.get?_set, if_pos rfl]
        rfl
      · exact ih h hrest
    · rw [claim_cons_of_not_free hfree] at h
      cases h

/-! ### Claims already made -/

/-- Another claim of the names changes nothing. -/
def Settled (owner : κ) : List κ → InsertionDict κ κ → Prop
  | [], _ => True
  | name :: rest, table =>
    ∃ holder ∈ table.get? name, holder = owner → Settled owner rest table

theorem Settled.extend (h : Settled owner names table) (hextends : Extends table extended) :
    Settled owner names extended := by
  induction names with
  | nil => trivial
  | cons name rest ih =>
    obtain ⟨holder, hholder, hrest⟩ := h
    exact ⟨holder, hextends name holder hholder, fun heq => ih (hrest heq)⟩

theorem settled_claim (owner : κ) (names : List κ) (table : InsertionDict κ κ) :
    Settled owner names (claim owner names table).2 := by
  induction names generalizing table with
  | nil => trivial
  | cons name rest ih =>
    by_cases hfree : Free owner table name
    · rw [claim_cons_of_free hfree]
      refine ⟨owner, ?_, fun _ => ih _⟩
      exact extends_claim owner rest _ name owner (by rw [InsertionDict.get?_set, if_pos rfl]; rfl)
    · rw [claim_cons_of_not_free hfree]
      rw [Free, not_forall₂] at hfree
      obtain ⟨holder, hholder, hne⟩ := hfree
      exact ⟨holder, hholder, fun heq => absurd heq hne⟩

theorem Settled.get?_claim (h : Settled owner names table) (other : κ) :
    (claim owner names table).2.get? other = table.get? other := by
  induction names generalizing table with
  | nil => rfl
  | cons name rest ih =>
    by_cases hfree : Free owner table name
    · obtain ⟨holder, hholder, hrest⟩ := h
      have howner := hfree holder hholder
      subst howner
      rw [claim_cons_of_free hfree, ih ((hrest rfl).extend hfree.extends_set),
        InsertionDict.get?_set]
      split_ifs with heq
      · subst heq
        exact hholder.symm
      · rfl
    · rw [claim_cons_of_not_free hfree]

end NameClaims

end OptionResearch
