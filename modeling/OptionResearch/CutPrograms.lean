import Mathlib.Logic.Function.Basic

/-!
# Programs that are cut off

A program on a state passes through states on its way and may be cut off at each of them, so that
nothing of it runs any more, not even what it does finally. `Meets` says what holds of the outcome
and of every state on the way, and is proved along the steps of the program. The states of the last
section are files, by name; a file that is being written holds anything until it is done.
-/

namespace OptionResearch

/-- What a program does when it is not cut off, and the states it passes through. -/
structure CutProgram (S ε α : Type) where
  run : S → Except ε α × S
  Passes : S → S → Prop
  first : ∀ s, Passes s s
  last : ∀ s, Passes s (run s).2

namespace CutProgram

variable {S ε α β : Type}

/-- The program that goes on with `f` after it returned, and nowhere after it raised. -/
def andThen (m : CutProgram S ε α) (f : α → CutProgram S ε β) : CutProgram S ε β where
  run s :=
    match m.run s with
    | (.ok a, t) => (f a).run t
    | (.error e, t) => (.error e, t)
  Passes s t := m.Passes s t ∨ ∃ a u, m.run s = (.ok a, u) ∧ (f a).Passes u t
  first s := .inl (m.first s)
  last s := by
    cases hrun : m.run s with
    | mk outcome t =>
      cases outcome with
      | ok a => exact .inr ⟨a, t, rfl, (f a).last t⟩
      | error e =>
        have hlast := m.last s
        rw [hrun] at hlast
        exact .inl hlast

instance : Monad (CutProgram S ε) where
  pure a := ⟨fun s => (.ok a, s), fun s t => t = s, fun _ => rfl, fun _ => rfl⟩
  bind := andThen

def raise (e : ε) : CutProgram S ε α := ⟨fun s => (.error e, s), fun s t => t = s, fun _ => rfl,
  fun _ => rfl⟩

def read : CutProgram S ε S := ⟨fun s => (.ok s, s), fun s t => t = s, fun _ => rfl, fun _ => rfl⟩

/-- A change that is on its way through the states of `Part`. -/
def change (Part : S → S → Prop) (f : S → S) : CutProgram S ε Unit where
  run s := (.ok (), f s)
  Passes s t := t = s ∨ Part s t ∨ t = f s
  first _ := .inl rfl
  last _ := .inr (.inr rfl)

/-- A change at one stroke. -/
def write (f : S → S) : CutProgram S ε Unit := change (fun _ _ => False) f

/-- `try: body finally: cleanup`. -/
def tryFinally (body : CutProgram S ε α) (cleanup : S → S) : CutProgram S ε α where
  run s := ((body.run s).1, cleanup (body.run s).2)
  Passes s t := body.Passes s t ∨ t = cleanup (body.run s).2
  first s := .inl (body.first s)
  last _ := .inr rfl

/-- What holds of the outcome of a program from a state, and of every state on the way. -/
structure Meets (m : CutProgram S ε α) (s : S) (Q : Except ε α → S → Prop) (P : S → Prop) :
    Prop where
  ends : Q (m.run s).1 (m.run s).2
  passes : ∀ t, m.Passes s t → P t

/-- The program returns, and `Q` holds of what it returns and leaves. -/
def Returning (Q : α → S → Prop) (outcome : Except ε α) (t : S) : Prop :=
  ∃ a, outcome = .ok a ∧ Q a t

variable {m : CutProgram S ε α} {f : α → CutProgram S ε β} {s : S} {P P' : S → Prop}
  {Q Q' : Except ε α → S → Prop} {R : Except ε β → S → Prop}

theorem meets_pure {a : α} (hq : Q (.ok a) s) (hp : P s) :
    Meets (pure a : CutProgram S ε α) s Q P := by
  constructor
  · exact hq
  · rintro t rfl
    exact hp

theorem meets_raise {e : ε} (hq : Q (.error e) s) (hp : P s) :
    Meets (raise e : CutProgram S ε α) s Q P := by
  constructor
  · exact hq
  · rintro t rfl
    exact hp

theorem meets_change {Part : S → S → Prop} {g : S → S} {Q : Except ε Unit → S → Prop}
    (hq : Q (.ok ()) (g s)) (hp : P s) (hpart : ∀ t, Part s t → P t) (hg : P (g s)) :
    Meets (change Part g : CutProgram S ε Unit) s Q P := by
  constructor
  · exact hq
  · intro t ht
    rcases ht with rfl | ht | rfl
    · exact hp
    · exact hpart t ht
    · exact hg

theorem meets_write {g : S → S} {Q : Except ε Unit → S → Prop} (hq : Q (.ok ()) (g s)) (hp : P s)
    (hg : P (g s)) : Meets (write g : CutProgram S ε Unit) s Q P :=
  meets_change hq hp (fun _ h => h.elim) hg

/-- A program goes on from where it returned. -/
theorem Meets.bind (hm : Meets m s Q P) (hok : ∀ a t, Q (.ok a) t → Meets (f a) t R P)
    (herror : ∀ e t, Q (.error e) t → R (.error e) t) : Meets (m >>= f) s R P := by
  obtain ⟨hends, hpasses⟩ := hm
  cases hrun : m.run s with
  | mk outcome u =>
    rw [hrun] at hends
    cases outcome with
    | ok a =>
      have hrest := hok a u hends
      have hbind : (m >>= f).run s = (f a).run u := by
        change (match m.run s with | (.ok a, t) => (f a).run t | (.error e, t) => (.error e, t)) = _
        rw [hrun]
      constructor
      · rw [hbind]
        exact hrest.ends
      · intro t ht
        rcases ht with ht | ⟨a', u', hrun', ht⟩
        · exact hpasses t ht
        · rw [hrun] at hrun'
          cases hrun'
          exact hrest.passes t ht
    | error e =>
      have hbind : (m >>= f).run s = (.error e, u) := by
        change (match m.run s with | (.ok a, t) => (f a).run t | (.error e, t) => (.error e, t)) = _
        rw [hrun]
      constructor
      · rw [hbind]
        exact herror e u hends
      · intro t ht
        rcases ht with ht | ⟨a', u', hrun', -⟩
        · exact hpasses t ht
        · rw [hrun] at hrun'
          cases hrun'

theorem Meets.bind_of_returning {Q : α → S → Prop} (hm : Meets m s (Returning Q) P)
    (hok : ∀ a t, Q a t → Meets (f a) t R P) : Meets (m >>= f) s R P := by
  apply hm.bind
  · intro a t hreturned
    obtain ⟨a', hok', hq⟩ := hreturned
    cases hok'
    exact hok a t hq
  · intro e t hreturned
    obtain ⟨a', hok', -⟩ := hreturned
    cases hok'

theorem meets_read_bind {f : S → CutProgram S ε β} (h : Meets (f s) s R P) :
    Meets (read >>= f) s R P := by
  constructor
  · exact h.ends
  · intro t ht
    rcases ht with rfl | ⟨a, u, hrun, ht⟩
    · exact h.passes _ ((f _).first _)
    · cases hrun
      exact h.passes t ht

theorem Meets.mono (hm : Meets m s Q P) (hq : ∀ outcome t, Q outcome t → Q' outcome t)
    (hp : ∀ t, P t → P' t) : Meets m s Q' P' :=
  ⟨hq _ _ hm.ends, fun t ht => hp t (hm.passes t ht)⟩

/-- What is done finally is done after the body, whether it returned or raised. -/
theorem Meets.tryFinally {cleanup : S → S}
    (hm : Meets m s (fun outcome t => Q outcome (cleanup t) ∧ P (cleanup t)) P) :
    Meets (m.tryFinally cleanup) s Q P := by
  constructor
  · exact hm.ends.1
  · intro t ht
    rcases ht with ht | rfl
    · exact hm.passes t ht
    · exact hm.ends.2

/-- A loop whose passes return and keep an invariant of the items that are left. -/
theorem meets_foldlM {ι : Type} {f : α → ι → CutProgram S ε α} (Inv : List ι → S → Prop)
    (hstep : ∀ i rest acc s, Inv (i :: rest) s →
      Meets (f acc i) s (Returning fun _ t => Inv rest t) P)
    (hp : ∀ s, Inv [] s → P s) (items : List ι) (acc : α) (s : S) (h : Inv items s) :
    Meets (items.foldlM f acc) s (Returning fun _ t => Inv [] t) P := by
  induction items generalizing acc s with
  | nil => exact meets_pure ⟨acc, rfl, h⟩ (hp s h)
  | cons i rest ih =>
    rw [List.foldlM_cons]
    apply (hstep i rest acc s h).bind_of_returning
    intro acc' t hinv
    exact ih acc' t hinv

end CutProgram

/-! ### Files -/

section Files

variable {N C : Type} [DecidableEq N]

/-- The files by name. -/
abbrev FileStore (N C : Type) := N → Option C

namespace FileStore

def set (files : FileStore N C) (name : N) (content : Option C) : FileStore N C :=
  Function.update files name content

variable {files : FileStore N C} {name other : N} {content : Option C}

@[simp] theorem set_self : files.set name content name = content := Function.update_self ..

theorem set_of_ne (h : other ≠ name) : files.set name content other = files other :=
  Function.update_of_ne h ..

@[simp] theorem set_eq_self : files.set name (files name) = files := Function.update_eq_self ..

@[simp] theorem set_set {content' : Option C} :
    (files.set name content).set name content' = files.set name content' :=
  Function.update_idem ..

end FileStore

end Files

end OptionResearch
