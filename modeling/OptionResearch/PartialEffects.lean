import Mathlib.Logic.Basic
import Mathlib.Data.List.Basic

/-!
# Computations that raise without undoing their writes

A method of an object language may mutate its object and then raise: what it had written by then
stays. `Effect S ε α` is such a computation over the state `S`, and `exec` runs it. The rules
below say how a run splits at a bind, which relations between the states before and after are
kept by every prefix, and when a computation over a richer state mirrors one over its projection.
-/

namespace OptionResearch

/-- A computation over the state `S` that may raise `ε`. -/
abbrev Effect (S ε : Type) : Type → Type := ExceptT ε (StateM S)

/-! ### Pure results -/

theorem except_bind_eq_ok {ε α β : Type} {x : Except ε α} {f : α → Except ε β} {b : β} :
    (x >>= f) = .ok b ↔ ∃ a, x = .ok a ∧ f a = .ok b := by
  cases x with
  | ok a =>
      constructor
      · exact fun h => ⟨a, rfl, h⟩
      · rintro ⟨_, ⟨⟩, h⟩
        exact h
  | error e =>
      constructor
      · exact fun h => nomatch h
      · rintro ⟨_, ⟨⟩, _⟩

theorem except_ok_bind {ε α β : Type} (a : α) (f : α → Except ε β) :
    ((Except.ok a : Except ε α) >>= f) = f a := rfl

theorem except_map_eq_ok {ε α β : Type} {x : Except ε α} {f : α → β} {b : β} :
    x.map f = .ok b ↔ ∃ a, x = .ok a ∧ f a = b := by
  cases x <;> simp [Except.map]

theorem exists_bind_eq_ok {ε α β : Type} {x : Except ε α} {f : α → Except ε β} {a : α}
    (hx : x = .ok a) (hf : ∃ b, f a = .ok b) : ∃ b, (x >>= f) = .ok b := by
  obtain ⟨b, hb⟩ := hf
  exact ⟨b, except_bind_eq_ok.mpr ⟨a, hx, hb⟩⟩

/-- The computation returns, with a result that satisfies `P`. -/
def Returns {ε α : Type} (P : α → Prop) (x : Except ε α) : Prop := ∃ a, x = .ok a ∧ P a

theorem returns_ok {ε α : Type} {P : α → Prop} {a : α} (h : P a) :
    Returns P (Except.ok a : Except ε α) := ⟨a, rfl, h⟩

/-- A traversal that returns has the result of every item, and every result comes from one. -/
theorem mapM_eq_ok_mem {ε α β : Type} {f : α → Except ε β} {items : List α} {results : List β}
    (h : items.mapM f = .ok results) :
    (∀ item ∈ items, ∃ result ∈ results, f item = .ok result) ∧
      ∀ result ∈ results, ∃ item ∈ items, f item = .ok result := by
  induction items generalizing results with
  | nil =>
      cases h
      exact ⟨fun _ hmem => absurd hmem List.not_mem_nil, fun _ hmem => absurd hmem List.not_mem_nil⟩
  | cons item rest ih =>
      rw [List.mapM_cons] at h
      obtain ⟨result, hitem, h⟩ := except_bind_eq_ok.mp h
      obtain ⟨others, hrest, h⟩ := except_bind_eq_ok.mp h
      cases h
      obtain ⟨hall, hfrom⟩ := ih hrest
      constructor
      · intro i hi
        rcases List.mem_cons.mp hi with rfl | hi
        · exact ⟨result, List.mem_cons_self, hitem⟩
        · obtain ⟨r, hr, hir⟩ := hall i hi
          exact ⟨r, List.mem_cons_of_mem _ hr, hir⟩
      · intro r hr
        rcases List.mem_cons.mp hr with rfl | hr
        · exact ⟨item, List.mem_cons_self, hitem⟩
        · obtain ⟨i, hi, hir⟩ := hfrom r hr
          exact ⟨i, List.mem_cons_of_mem _ hi, hir⟩

/-- A traversal whose items all return, returns. -/
theorem exists_mapM_eq_ok {ε α β : Type} {f : α → Except ε β} {items : List α}
    (h : ∀ item ∈ items, ∃ result, f item = .ok result) :
    ∃ results, items.mapM f = .ok results := by
  induction items with
  | nil => exact ⟨[], rfl⟩
  | cons item rest ih =>
      obtain ⟨result, hitem⟩ := h item List.mem_cons_self
      obtain ⟨results, hrest⟩ := ih fun i hi => h i (List.mem_cons_of_mem _ hi)
      exact ⟨result :: results, by rw [List.mapM_cons, hitem, hrest]; rfl⟩

theorem exists_mapM_eq_ok_iff {ε α β : Type} {f : α → Except ε β} {items : List α} :
    (∃ results, items.mapM f = .ok results) ↔ ∀ item ∈ items, ∃ result, f item = .ok result := by
  refine ⟨?_, exists_mapM_eq_ok⟩
  rintro ⟨results, hresults⟩ item hitem
  obtain ⟨result, -, hresult⟩ := (mapM_eq_ok_mem hresults).1 item hitem
  exact ⟨result, hresult⟩

theorem except_mapM_congr {ε α β : Type} {f g : α → Except ε β} {items : List α}
    (h : ∀ item ∈ items, f item = g item) : items.mapM f = items.mapM g := by
  induction items with
  | nil => rfl
  | cons item rest ih =>
      rw [List.mapM_cons, List.mapM_cons, h item List.mem_cons_self,
        ih fun i hi => h i (List.mem_cons_of_mem _ hi)]

/-- The results of a traversal go with its items, one by one. -/
theorem forall₂_of_mapM_eq_ok {ε α β : Type} {f : α → Except ε β} {items : List α}
    {results : List β} (h : items.mapM f = .ok results) :
    List.Forall₂ (fun item result => f item = .ok result) items results := by
  induction items generalizing results with
  | nil =>
      cases h
      exact .nil
  | cons item rest ih =>
      rw [List.mapM_cons] at h
      obtain ⟨result, hitem, h⟩ := except_bind_eq_ok.mp h
      obtain ⟨others, hrest, h⟩ := except_bind_eq_ok.mp h
      cases h
      exact .cons hitem (ih hrest)

/-- A traversal of items whose results are known. -/
theorem mapM_eq_ok_map {ε α β : Type} {f : α → Except ε β} {g : α → β} {items : List α}
    (h : ∀ item ∈ items, f item = .ok (g item)) : items.mapM f = .ok (items.map g) := by
  induction items with
  | nil => rfl
  | cons item rest ih =>
      rw [List.mapM_cons, h item List.mem_cons_self, ih fun i hi => h i (List.mem_cons_of_mem _ hi)]
      rfl

/-- Figures read off the results of a traversal are figures of its items. -/
theorem map_eq_of_mapM_eq_ok {ε α β γ : Type} {f : α → Except ε β} {g : β → γ} {h : α → γ}
    {items : List α} {results : List β} (hresults : items.mapM f = .ok results)
    (hfigure : ∀ item result, f item = .ok result → g result = h item) :
    results.map g = items.map h := by
  induction items generalizing results with
  | nil =>
      cases hresults
      rfl
  | cons item rest ih =>
      rw [List.mapM_cons] at hresults
      obtain ⟨result, hitem, hresults⟩ := except_bind_eq_ok.mp hresults
      obtain ⟨others, hrest, hresults⟩ := except_bind_eq_ok.mp hresults
      cases hresults
      rw [List.map_cons, List.map_cons, hfigure item result hitem, ih hrest]

/-- What holds of all results of a traversal, said of its items. -/
theorem forall_mapM_iff {ε α β : Type} {f : α → Except ε β} {P : β → Prop} {Q : α → Prop}
    {items : List α} {results : List β} (hresults : items.mapM f = .ok results)
    (h : ∀ item ∈ items, ∀ result, f item = .ok result → (P result ↔ Q item)) :
    (∀ result ∈ results, P result) ↔ ∀ item ∈ items, Q item := by
  obtain ⟨hitems, hfrom⟩ := mapM_eq_ok_mem hresults
  constructor
  · intro hall item hitem
    obtain ⟨result, hresult, hf⟩ := hitems item hitem
    exact (h item hitem result hf).mp (hall result hresult)
  · intro hall result hresult
    obtain ⟨item, hitem, hf⟩ := hfrom result hresult
    exact (h item hitem result hf).mpr (hall item hitem)

/-- A second traversal that returns wherever the first one does, with related results. -/
theorem exists_mapM_forall₂ {ε α β : Type} {f g : α → Except ε β} {R : β → β → Prop}
    {items : List α} {results : List β} (hresults : items.mapM f = .ok results)
    (h : ∀ item ∈ items, ∀ result, f item = .ok result →
      ∃ result', g item = .ok result' ∧ R result result') :
    ∃ results', items.mapM g = .ok results' ∧ List.Forall₂ R results results' := by
  induction items generalizing results with
  | nil =>
      cases hresults
      exact ⟨[], rfl, .nil⟩
  | cons item rest ih =>
      rw [List.mapM_cons] at hresults
      obtain ⟨result, hitem, hresults⟩ := except_bind_eq_ok.mp hresults
      obtain ⟨others, hrest, hresults⟩ := except_bind_eq_ok.mp hresults
      cases hresults
      obtain ⟨result', hitem', hrelated⟩ := h item List.mem_cons_self result hitem
      obtain ⟨others', hrest', hall⟩ := ih hrest fun i hi => h i (List.mem_cons_of_mem _ hi)
      exact ⟨result' :: others', by rw [List.mapM_cons, hitem', hrest']; rfl, .cons hrelated hall⟩

/-- A traversal of the same items in another order has the same results in another order. -/
theorem mapM_eq_ok_perm {ε α β : Type} {f : α → Except ε β} {items others : List α}
    {results : List β} (hperm : items.Perm others) (h : items.mapM f = .ok results) :
    ∃ results', others.mapM f = .ok results' ∧ results.Perm results' := by
  induction hperm generalizing results with
  | nil => exact ⟨results, h, .refl _⟩
  | cons item _ ih =>
      rw [List.mapM_cons] at h
      obtain ⟨result, hitem, h⟩ := except_bind_eq_ok.mp h
      obtain ⟨rest, hrest, h⟩ := except_bind_eq_ok.mp h
      cases h
      obtain ⟨rest', hrest', hresults⟩ := ih hrest
      exact ⟨result :: rest', by rw [List.mapM_cons, hitem, hrest']; rfl, hresults.cons _⟩
  | swap item other _ =>
      rw [List.mapM_cons] at h
      obtain ⟨result, hitem, h⟩ := except_bind_eq_ok.mp h
      obtain ⟨tail, htail, h⟩ := except_bind_eq_ok.mp h
      cases h
      rw [List.mapM_cons] at htail
      obtain ⟨result', hother, htail⟩ := except_bind_eq_ok.mp htail
      obtain ⟨rest, hrest, htail⟩ := except_bind_eq_ok.mp htail
      cases htail
      refine ⟨result' :: result :: rest, ?_, .swap _ _ _⟩
      rw [List.mapM_cons, List.mapM_cons, hother, hitem, hrest]
      rfl
  | trans _ _ ih₁ ih₂ =>
      obtain ⟨results₁, h₁, hperm₁⟩ := ih₁ h
      obtain ⟨results₂, h₂, hperm₂⟩ := ih₂ h₁
      exact ⟨results₂, h₂, hperm₁.trans hperm₂⟩

namespace Effect

variable {S T ε α β : Type}

/-- The outcome of a run and the state it leaves, whether it returned or raised. -/
def exec (m : Effect S ε α) (s : S) : Except ε α × S := StateT.run (ExceptT.run m) s

/-- A pure result, raised or returned, without touching the state. -/
def raising (r : Except ε α) : Effect S ε α := ExceptT.mk (pure r)

/-- A computation on the second component of a pair of states. -/
def onSnd (m : Effect T ε α) : Effect (S × T) ε α :=
  ExceptT.mk fun p => ((exec m p.2).1, (p.1, (exec m p.2).2))

@[simp] theorem exec_pure (a : α) (s : S) : exec (pure a : Effect S ε α) s = (.ok a, s) := rfl

@[simp] theorem exec_raising (r : Except ε α) (s : S) : exec (raising r) s = (r, s) := rfl

/-- A bind runs its continuation exactly where its first half returned. -/
theorem exec_bind (m : Effect S ε α) (f : α → Effect S ε β) (s : S) :
    exec (m >>= f) s =
      match exec m s with
      | (.ok a, t) => exec (f a) t
      | (.error e, t) => (.error e, t) := by
  change exec (ExceptT.bind m f) s = _
  simp only [exec, ExceptT.run, ExceptT.bind, ExceptT.mk, StateT.run, bind, StateT.bind]
  rcases m s with ⟨r, t⟩
  cases r <;> rfl

theorem exec_bind_of_ok {m : Effect S ε α} {f : α → Effect S ε β} {s t : S} {a : α}
    (h : exec m s = (.ok a, t)) : exec (m >>= f) s = exec (f a) t := by rw [exec_bind, h]

/-- A run that a figure could be read from has returned. -/
theorem exists_exec_eq_ok {m : Effect S ε α} {f : α → β} {b : β} {s : S}
    (h : (exec m s).1.toOption.map f = some b) : ∃ a t, exec m s = (.ok a, t) ∧ f a = b := by
  rcases hexec : exec m s with ⟨_ | a, t⟩
  · rw [hexec] at h
    cases h
  · rw [hexec] at h
    exact ⟨a, t, rfl, Option.some.inj h⟩

/-- Where a bind raised or returned, one of its halves did. -/
theorem exec_bind_cases {m : Effect S ε α} {f : α → Effect S ε β} {s t : S} {r : Except ε β}
    (h : exec (m >>= f) s = (r, t)) :
    (∃ e, exec m s = (.error e, t) ∧ r = .error e) ∨
      ∃ a u, exec m s = (.ok a, u) ∧ exec (f a) u = (r, t) := by
  rw [exec_bind] at h
  rcases hm : exec m s with ⟨_ | a, u⟩
  · rw [hm] at h
    cases h
    exact Or.inl ⟨_, rfl, rfl⟩
  · rw [hm] at h
    exact Or.inr ⟨a, u, rfl, h⟩

@[simp] theorem exec_raising_bind (r : Except ε α) (f : α → Effect S ε β) (s : S) :
    exec (raising r >>= f) s =
      match r with
      | .ok a => exec (f a) s
      | .error e => (.error e, s) := by
  rw [exec_bind, exec_raising]
  cases r <;> rfl

@[simp] theorem exec_modify_bind (f : S → S) (g : PUnit → Effect S ε α) (s : S) :
    exec (modify f >>= g) s = exec (g ⟨⟩) (f s) := rfl

/-- Dropping the result of a run leaves its state. -/
@[simp] theorem exec_discard_snd (m : Effect S ε α) (s : S) :
    (exec (discard m) s).2 = (exec m s).2 := by
  change (exec (ExceptT.map (fun _ => PUnit.unit) m) s).2 = _
  simp only [exec, ExceptT.run, ExceptT.map, ExceptT.mk, StateT.run, bind, StateT.bind]
  rcases m s with ⟨r, t⟩
  cases r <;> rfl

@[simp] theorem exec_get_bind (g : S → Effect S ε β) (s : S) :
    exec (get >>= g) s = exec (g s) s := rfl

/-- A handler starts from the state in which the exception was raised. -/
theorem exec_tryCatch (m : Effect S ε α) (h : ε → Effect S ε α) (s : S) :
    exec (tryCatch m h) s =
      match exec m s with
      | (.ok a, t) => (.ok a, t)
      | (.error e, t) => exec (h e) t := by
  change exec (ExceptT.tryCatch m h) s = _
  simp only [exec, ExceptT.run, ExceptT.tryCatch, ExceptT.mk, StateT.run, bind, StateT.bind]
  rcases m s with ⟨r, t⟩
  cases r <;> rfl

/-! ### Relations kept by every run -/

/-- Whatever the outcome, the states before and after a run are related by `R`. -/
def Keeps (R : S → S → Prop) (m : Effect S ε α) : Prop := ∀ s, R s (exec m s).2

section Keeps

variable {R : S → S → Prop}

theorem Keeps.bind (ht : ∀ s t u, R s t → R t u → R s u) {m : Effect S ε α}
    {f : α → Effect S ε β} (hm : Keeps R m) (hf : ∀ a, Keeps R (f a)) : Keeps R (m >>= f) := by
  intro s
  rw [exec_bind]
  have hs := hm s
  rcases hx : exec m s with ⟨r, t⟩
  rw [hx] at hs
  cases r with
  | ok a => exact ht s t _ hs (hf a t)
  | error e => exact hs

theorem keeps_pure (hrefl : ∀ s, R s s) (a : α) : Keeps R (pure a : Effect S ε α) := hrefl

theorem keeps_modify {f : S → S} (h : ∀ s, R s (f s)) : Keeps R (modify f : Effect S ε PUnit) := h

theorem keeps_get_bind {g : S → Effect S ε α} (h : ∀ s, Keeps R (g s)) : Keeps R (get >>= g) :=
  fun s => h s s

theorem keeps_raising_bind (hrefl : ∀ s, R s s) (r : Except ε α) {f : α → Effect S ε β}
    (h : ∀ a, Keeps R (f a)) : Keeps R (raising r >>= f) := by
  intro s
  rw [exec_raising_bind]
  cases r with
  | ok a => exact h a s
  | error e => exact hrefl s

theorem keeps_modify_bind (ht : ∀ s t u, R s t → R t u → R s u) {f : S → S}
    (hf : ∀ s, R s (f s)) {g : PUnit → Effect S ε α} (h : ∀ a, Keeps R (g a)) :
    Keeps R (modify f >>= g) := (keeps_modify hf).bind ht h

/-- As `Keeps.bind`, where the second half keeps `R` only after the results the first can have. -/
theorem Keeps.bind_of_exec (ht : ∀ s t u, R s t → R t u → R s u) {m : Effect S ε α}
    {f : α → Effect S ε β} (hm : Keeps R m)
    (hf : ∀ s a t, exec m s = (.ok a, t) → Keeps R (f a)) : Keeps R (m >>= f) := by
  intro s
  rw [exec_bind]
  have hs := hm s
  rcases hx : exec m s with ⟨r, t⟩
  rw [hx] at hs
  cases r with
  | ok a => exact ht s t _ hs (hf s a t hx t)
  | error e => exact hs

end Keeps

/-! ### A richer state that mirrors a poorer one -/

/-- Seen through `π`, the run of `m'` is the run of `m`. -/
def Mirrors (π : T → S) (m' : Effect T ε α) (m : Effect S ε α) : Prop :=
  ∀ t, exec m (π t) = ((exec m' t).1, π (exec m' t).2)

section Mirrors

variable {π : T → S}

theorem mirrors_pure (a : α) : Mirrors π (pure a : Effect T ε α) (pure a) := fun _ => rfl

theorem mirrors_raising (r : Except ε α) :
    Mirrors π (raising r : Effect T ε α) (raising r) := fun _ => rfl

theorem Mirrors.bind {m' : Effect T ε α} {m : Effect S ε α} {f' : α → Effect T ε β}
    {f : α → Effect S ε β} (hm : Mirrors π m' m) (hf : ∀ a, Mirrors π (f' a) (f a)) :
    Mirrors π (m' >>= f') (m >>= f) := by
  intro t
  rw [exec_bind, exec_bind, hm t]
  rcases exec m' t with ⟨r, t'⟩
  cases r with
  | ok a => exact hf a t'
  | error e => rfl

theorem Mirrors.tryCatch {m' : Effect T ε α} {m : Effect S ε α} {h' : ε → Effect T ε α}
    {h : ε → Effect S ε α} (hm : Mirrors π m' m) (hh : ∀ e, Mirrors π (h' e) (h e)) :
    Mirrors π (tryCatch m' h') (tryCatch m h) := by
  intro t
  rw [exec_tryCatch, exec_tryCatch, hm t]
  rcases exec m' t with ⟨r, t'⟩
  cases r with
  | ok a => rfl
  | error e => exact hh e t'

end Mirrors

/-! ### Sequences of calls -/

section Calls

variable {C : Type} (perform : C → Effect S ε Unit) (Allowed : S → C → Prop)

/-- The state after a sequence of calls, each returning or raising. -/
def afterCalls (s : S) (calls : List C) : S :=
  calls.foldl (fun t call => (exec (perform call) t).2) s

/-- Every call is allowed in the state it finds. -/
def CallsAllowed : S → List C → Prop
  | _, [] => True
  | s, call :: rest => Allowed s call ∧ CallsAllowed (exec (perform call) s).2 rest

variable {perform Allowed} {s : S} {calls : List C}

/-- An invariant of the allowed calls holds after a sequence of them, and what each of them does
to the state composes. -/
theorem afterCalls_related (Inv : S → Prop) (R : S → S → Prop) (hrefl : ∀ s, R s s)
    (htrans : ∀ s t u, R s t → R t u → R s u)
    (hstep : ∀ s call, Inv s → Allowed s call →
      Inv (exec (perform call) s).2 ∧ R s (exec (perform call) s).2)
    (hs : Inv s) (h : CallsAllowed perform Allowed s calls) :
    Inv (afterCalls perform s calls) ∧ R s (afterCalls perform s calls) := by
  induction calls generalizing s with
  | nil => exact ⟨hs, hrefl s⟩
  | cons call rest ih =>
    obtain ⟨hcall, hrest⟩ := h
    obtain ⟨hinv, hrelated⟩ := hstep s call hs hcall
    obtain ⟨hend, hafter⟩ := ih hinv hrest
    exact ⟨hend, htrans _ _ _ hrelated hafter⟩

theorem afterCalls_append (later : List C) :
    afterCalls perform s (calls ++ later) = afterCalls perform (afterCalls perform s calls) later :=
  List.foldl_append

theorem callsAllowed_append {later : List C} :
    CallsAllowed perform Allowed s (calls ++ later) ↔
      CallsAllowed perform Allowed s calls ∧
        CallsAllowed perform Allowed (afterCalls perform s calls) later := by
  induction calls generalizing s with
  | nil => exact ⟨fun h => ⟨trivial, h⟩, And.right⟩
  | cons call rest ih =>
    rw [List.cons_append, CallsAllowed, CallsAllowed, ih, and_assoc]
    rfl

theorem CallsAllowed.and {Allowed' : S → C → Prop} (h : CallsAllowed perform Allowed s calls)
    (h' : CallsAllowed perform Allowed' s calls) :
    CallsAllowed perform (fun t call => Allowed t call ∧ Allowed' t call) s calls := by
  induction calls generalizing s with
  | nil => trivial
  | cons call rest ih => exact ⟨⟨h.1, h'.1⟩, ih h.2 h'.2⟩

/-- A loop over the calls that returns has performed every one of them. -/
theorem afterCalls_of_forM {t : S} (h : exec (forM calls perform) s = (.ok (), t)) :
    CallsAllowed perform (fun u call => (exec (perform call) u).1 = .ok ()) s calls ∧
      t = afterCalls perform s calls := by
  induction calls generalizing s with
  | nil =>
    cases h
    exact ⟨trivial, rfl⟩
  | cons call rest ih =>
    rw [List.forM_cons] at h
    rcases exec_bind_cases h with ⟨e, _, hraised⟩ | ⟨_, u, hcall, hrest⟩
    · cases hraised
    · obtain ⟨hall, hafter⟩ := ih hrest
      have hstate : (exec (perform call) s).2 = u := congrArg Prod.snd hcall
      rw [← hstate] at hall hafter
      exact ⟨⟨congrArg Prod.fst hcall, hall⟩, hafter⟩

/-- Where the calls need no permission, a relation that every call keeps is kept by all of them. -/
theorem afterCalls_keeps {R : S → S → Prop} (hrefl : ∀ s, R s s)
    (htrans : ∀ s t u, R s t → R t u → R s u) (hstep : ∀ call, Keeps R (perform call)) :
    R s (afterCalls perform s calls) := by
  induction calls generalizing s with
  | nil => exact hrefl s
  | cons call rest ih => exact htrans _ _ _ (hstep call s) ih

end Calls
end Effect
end OptionResearch
