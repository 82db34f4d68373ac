import Mathlib.Data.List.Forall2
import Mathlib.Data.List.Induction
import OptionResearch.PartialEffects

/-!
# Sifting rows

A sieve reads one row after the other, with a memory of those before. A row is refused, or it gives
an entry, which is accepted unless it is the same as one accepted before. The account of a run is
the list of its rows' fates: each row has one, no two accepted entries are the same, and a duplicate
comes after the entry that it repeats.
-/

namespace OptionResearch

theorem exists_of_forall₂ {α β : Type*} {R : α → β → Prop} {items : List α} {others : List β}
    (h : List.Forall₂ R items others) {other : β} (hmem : other ∈ others) :
    ∃ item ∈ items, R item other := by
  induction h with
  | nil => cases hmem
  | cons hrel _ ih =>
    rcases List.mem_cons.mp hmem with rfl | hrest
    · exact ⟨_, List.mem_cons_self, hrel⟩
    · obtain ⟨item, hitem, h⟩ := ih hrest
      exact ⟨item, List.mem_cons_of_mem _ hitem, h⟩

theorem forall₂_trans {α β γ : Type*} {R : α → β → Prop} {S : β → γ → Prop} {T : α → γ → Prop}
    {items : List α} {middle : List β} {others : List γ}
    (hcomp : ∀ item between other, R item between → S between other → T item other)
    (h : List.Forall₂ R items middle) (hnext : List.Forall₂ S middle others) :
    List.Forall₂ T items others := by
  induction h generalizing others with
  | nil =>
    cases hnext
    exact .nil
  | cons hrel _ ih =>
    cases hnext with
    | cons hother hrest => exact .cons (hcomp _ _ _ hrel hother) (ih hrest)

/-- The rows of pages are traversed exactly where those of each page are. -/
theorem exists_mapM_rows_iff {ε α β γ δ : Type} {f : γ → Except ε δ} {pages : List α}
    {rows : α → List β} {item : α → β → γ} :
    (∃ results, (pages.flatMap fun page => (rows page).map (item page)).mapM f = .ok results) ↔
      ∀ page ∈ pages, ∀ row ∈ rows page, ∃ result, f (item page row) = .ok result := by
  rw [exists_mapM_eq_ok_iff]
  simp only [List.mem_flatMap, List.mem_map]
  constructor
  · exact fun h page hpage row hrow => h _ ⟨page, hpage, row, hrow, rfl⟩
  · rintro h _ ⟨page, hpage, row, hrow, rfl⟩
    exact h page hpage row hrow

/-- A loop that may raise on an item, and otherwise takes what it makes of the item to its state, is
a loop over what is made of the items. -/
theorem foldlM_settle {α ι σ D ε : Type} {gather : D → α → Except ε D} {settle : α → Except ε ι}
    {step : σ → ι → σ} (view : σ → D)
    (hstep : ∀ state item,
      gather (view state) item = (settle item).map fun settled => view (step state settled))
    (items : List α) (state : σ) :
    items.foldlM gather (view state) =
      (items.mapM settle).map fun settled => view (settled.foldl step state) := by
  induction items generalizing state with
  | nil => rfl
  | cons item rest ih =>
    rw [List.foldlM_cons, List.mapM_cons, hstep]
    cases settle item with
    | error error => rfl
    | ok settled =>
      change rest.foldlM gather (view (step state settled)) = _
      rw [ih]
      cases rest.mapM settle <;> rfl

/-- A loop over pages whose body is a loop over their items is a loop over all items. -/
theorem foldlM_flatMap {α β D ε : Type} {gather : D → β → Except ε D} (items : α → List β)
    (pages : List α) (data : D) :
    pages.foldlM (fun data page => (items page).foldlM gather data) data =
      (pages.flatMap items).foldlM gather data := by
  induction pages generalizing data with
  | nil => rfl
  | cons page rest ih =>
    rw [List.foldlM_cons, List.flatMap_cons, List.foldlM_append]
    exact bind_congr ih

inductive Fate (β ε : Type*) where
  | accepted (entry : β)
  | duplicate (entry : β)
  | refused (reason : ε)

namespace Fate

variable {β ε : Type*}

def accepted? : Fate β ε → Option β
  | .accepted entry => some entry
  | _ => none

def duplicate? : Fate β ε → Option β
  | .duplicate entry => some entry
  | _ => none

def refused? : Fate β ε → Option ε
  | .refused reason => some reason
  | _ => none

/-- The entry of a row that is not refused. -/
def entry? : Fate β ε → Option β
  | .accepted entry => some entry
  | .duplicate entry => some entry
  | .refused _ => none

theorem entry?_eq_some_iff {fate : Fate β ε} {entry : β} :
    fate.entry? = some entry ↔ fate = .accepted entry ∨ fate = .duplicate entry := by
  cases fate <;> simp [ entry?]

end Fate

/-- The fates of rows, with no entry accepted twice and no duplicate without an accepted entry
before it. -/
structure Accounts {α β ε : Type*} (Fits : α → Fate β ε → Prop) (same : β → β → Bool)
    (items : List α) (fates : List (Fate β ε)) : Prop where
  fits : List.Forall₂ Fits items fates
  once : (fates.filterMap Fate.accepted?).Pairwise fun earlier later => same later earlier = false
  repeats : ∀ before entry after, fates = before ++ .duplicate entry :: after →
    ∃ earlier ∈ before.filterMap Fate.accepted?, same entry earlier = true

/-- The rows number as many as those of each fate together. -/
theorem Accounts.length_eq {α β ε : Type*} {Fits : α → Fate β ε → Prop} {same : β → β → Bool}
    {items : List α} {fates : List (Fate β ε)} (h : Accounts Fits same items fates) :
    items.length = (fates.filterMap Fate.accepted?).length +
      (fates.filterMap Fate.duplicate?).length + (fates.filterMap Fate.refused?).length := by
  rw [h.fits.length_eq]
  clear h
  induction fates with
  | nil => rfl
  | cons fate fates ih =>
    cases fate <;> simp only [List.filterMap_cons, Fate.accepted?, Fate.duplicate?, Fate.refused?,
      List.length_cons, ih] <;> omega

/-- The account of what becomes of items is one of the items. -/
theorem Accounts.of_settled {α ι β ε : Type*} {R : α → ι → Prop} {Fits : α → Fate β ε → Prop}
    {FitsSettled : ι → Fate β ε → Prop} {same : β → β → Bool} {items : List α} {settled : List ι}
    {fates : List (Fate β ε)} (hsettled : List.Forall₂ R items settled)
    (h : Accounts FitsSettled same settled fates)
    (hfits : ∀ item becomes fate, R item becomes → FitsSettled becomes fate → Fits item fate) :
    Accounts Fits same items fates where
  fits := forall₂_trans hfits hsettled h.fits
  once := h.once
  repeats := h.repeats

/-- One more row keeps the account, if its entry is new where it is accepted and one of those
accepted where it is a duplicate. -/
theorem Accounts.concat {α β ε : Type*} {Fits : α → Fate β ε → Prop} {same : β → β → Bool}
    {items : List α} {fates : List (Fate β ε)} {item : α} {fate : Fate β ε}
    (h : Accounts Fits same items fates) (hfits : Fits item fate)
    (hnew : ∀ entry, fate = .accepted entry →
      ∀ earlier ∈ fates.filterMap Fate.accepted?, same entry earlier = false)
    (hrepeat : ∀ entry, fate = .duplicate entry →
      ∃ earlier ∈ fates.filterMap Fate.accepted?, same entry earlier = true) :
    Accounts Fits same (items ++ [item]) (fates ++ [fate]) where
  fits := List.rel_append h.fits (.cons hfits .nil)
  once := by
    cases fate with
    | accepted entry =>
      rw [List.filterMap_append, List.pairwise_append]
      refine ⟨h.once, List.pairwise_singleton _ _, fun earlier hearlier later hlater => ?_⟩
      cases List.mem_singleton.mp hlater
      exact hnew entry rfl earlier hearlier
    | duplicate entry => simpa [List.filterMap_cons, Fate.accepted?] using h.once
    | refused reason => simpa [List.filterMap_cons, Fate.accepted?] using h.once
  repeats := by
    intro before entry after heq
    rcases List.eq_nil_or_concat after with rfl | ⟨after, last, rfl⟩
    · obtain ⟨rfl, hfate⟩ := List.append_inj' heq rfl
      exact hrepeat entry (List.singleton_inj.mp hfate)
    · rw [List.concat_eq_append, ← List.cons_append, ← List.append_assoc] at heq
      exact h.repeats before entry after (List.append_inj' heq rfl).1

/-- How rows are read, with a memory, and which entries count as the same. -/
structure Sieve (σ α β ε : Type*) where
  read : σ → α → Except ε (β × σ)
  same : β → β → Bool

/-- The fates so far, and the memory. -/
structure Sifted (σ β ε : Type*) where
  fates : List (Fate β ε)
  memory : σ

namespace Sieve

variable {σ α β ε : Type*} (sieve : Sieve σ α β ε)

def sift (sifted : Sifted σ β ε) (item : α) : Sifted σ β ε :=
  match sieve.read sifted.memory item with
  | .error reason => ⟨sifted.fates ++ [.refused reason], sifted.memory⟩
  | .ok (entry, memory) =>
    if (sifted.fates.filterMap Fate.accepted?).any (sieve.same entry) then
      ⟨sifted.fates ++ [.duplicate entry], memory⟩
    else ⟨sifted.fates ++ [.accepted entry], memory⟩

def run (start : σ) (items : List α) : Sifted σ β ε := items.foldl sieve.sift ⟨[], start⟩

variable {sieve} {start : σ} {items : List α} {item : α} {sifted : Sifted σ β ε}

@[simp] theorem run_nil : sieve.run start [] = ⟨[], start⟩ := rfl

theorem run_concat :
    sieve.run start (items ++ [item]) = sieve.sift (sieve.run start items) item := by
  rw [run, List.foldl_append]
  rfl

theorem sift_error {reason : ε} (h : sieve.read sifted.memory item = .error reason) :
    sieve.sift sifted item = ⟨sifted.fates ++ [.refused reason], sifted.memory⟩ := by
  rw [sift, h]

theorem sift_seen {entry : β} {memory : σ} (h : sieve.read sifted.memory item = .ok (entry, memory))
    (hseen : (sifted.fates.filterMap Fate.accepted?).any (sieve.same entry) = true) :
    sieve.sift sifted item = ⟨sifted.fates ++ [.duplicate entry], memory⟩ := by
  rw [sift, h]
  exact if_pos hseen

theorem sift_new {entry : β} {memory : σ} (h : sieve.read sifted.memory item = .ok (entry, memory))
    (hnew : ¬ (sifted.fates.filterMap Fate.accepted?).any (sieve.same entry) = true) :
    sieve.sift sifted item = ⟨sifted.fates ++ [.accepted entry], memory⟩ := by
  rw [sift, h]
  exact if_neg hnew

theorem memory_sift_ok {entry : β} {memory : σ}
    (h : sieve.read sifted.memory item = .ok (entry, memory)) :
    (sieve.sift sifted item).memory = memory := by
  by_cases hseen : (sifted.fates.filterMap Fate.accepted?).any (sieve.same entry) = true
  · rw [sift_seen h hseen]
  · rw [sift_new h hseen]

/-- Later rows leave the fates of earlier ones as they are. -/
theorem exists_fates_append (items others : List α) :
    ∃ later, (sieve.run start (items ++ others)).fates =
      (sieve.run start items).fates ++ later := by
  induction others using List.reverseRecOn with
  | nil => exact ⟨[], by rw [List.append_nil, List.append_nil]⟩
  | append_singleton others item ih =>
    obtain ⟨later, hlater⟩ := ih
    rw [← List.append_assoc, run_concat]
    cases hread : sieve.read (sieve.run start (items ++ others)).memory item with
    | error reason =>
      rw [sift_error hread, hlater]
      exact ⟨_, List.append_assoc ..⟩
    | ok read =>
      by_cases hseen : ((sieve.run start (items ++ others)).fates.filterMap Fate.accepted?).any
          (sieve.same read.1) = true
      · rw [sift_seen hread hseen, hlater]
        exact ⟨_, List.append_assoc ..⟩
      · rw [sift_new hread hseen, hlater]
        exact ⟨_, List.append_assoc ..⟩

/-- A row's fate goes with what is read of it. -/
def FateOf (sieve : Sieve σ α β ε) (item : α) (fate : Fate β ε) : Prop :=
  ∃ memory, match sieve.read memory item with
    | .error reason => fate = .refused reason
    | .ok (entry, _) => fate.entry? = some entry

/-- What sifting one more row does: it has the fate that what is read of it gives it. -/
theorem sift_cases :
    (∃ reason, sieve.read sifted.memory item = .error reason ∧
      sieve.sift sifted item = ⟨sifted.fates ++ [.refused reason], sifted.memory⟩) ∨
    ∃ entry memory, sieve.read sifted.memory item = .ok (entry, memory) ∧
      (((∃ earlier ∈ sifted.fates.filterMap Fate.accepted?, sieve.same entry earlier = true) ∧
        sieve.sift sifted item = ⟨sifted.fates ++ [.duplicate entry], memory⟩) ∨
      ((∀ earlier ∈ sifted.fates.filterMap Fate.accepted?, sieve.same entry earlier = false) ∧
        sieve.sift sifted item = ⟨sifted.fates ++ [.accepted entry], memory⟩)) := by
  cases hread : sieve.read sifted.memory item with
  | error reason => exact .inl ⟨reason, rfl, sift_error hread⟩
  | ok read =>
    obtain ⟨entry, memory⟩ := read
    refine .inr ⟨entry, memory, rfl, ?_⟩
    by_cases hsame : (sifted.fates.filterMap Fate.accepted?).any (sieve.same entry) = true
    · exact .inl ⟨List.any_eq_true.mp hsame, sift_seen hread hsame⟩
    · refine .inr ⟨?_, sift_new hread hsame⟩
      rw [Bool.not_eq_true, List.any_eq_false] at hsame
      intro earlier hearlier
      simpa using hsame earlier hearlier

/-- The account of a run. -/
theorem accounts_run : Accounts (FateOf sieve) sieve.same items (sieve.run start items).fates := by
  induction items using List.reverseRecOn with
  | nil => exact ⟨.nil, .nil, by simp⟩
  | append_singleton items item ih =>
    rw [run_concat]
    obtain ⟨reason, hread, hsift⟩ | ⟨entry, memory, hread, ⟨hsame, hsift⟩ | ⟨hnew, hsift⟩⟩ :=
      @sift_cases _ _ _ _ sieve item (sieve.run start items)
    all_goals
      rw [hsift]
      refine ih.concat ⟨(sieve.run start items).memory, by simp only [hread, Fate.entry?]⟩
        ?_ ?_ <;> rintro other ⟨⟩
    · exact hsame
    · exact hnew

/-- What a run refuses, it refused on reading a row. -/
theorem read_of_refused {reason : ε}
    (h : reason ∈ (sieve.run start items).fates.filterMap Fate.refused?) :
    ∃ item ∈ items, ∃ memory, sieve.read memory item = .error reason := by
  obtain ⟨fate, hfate, hrefused⟩ := List.mem_filterMap.mp h
  obtain ⟨item, hitem, memory, hread⟩ := exists_of_forall₂ accounts_run.fits hfate
  refine ⟨item, hitem, memory, ?_⟩
  cases hvalue : sieve.read memory item with
  | error other => simp_all [Fate.refused?]
  | ok read => cases fate <;> simp_all [Fate.refused?, Fate.entry?]

end Sieve
end OptionResearch
