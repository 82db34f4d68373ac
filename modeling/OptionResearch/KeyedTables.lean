import OptionResearch.PartialEffects
import Mathlib.Data.List.Induction
import Mathlib.Data.List.Nodup

/-!
# Tables with a key

A table is the list of its rows, in the order in which their keys first came. A new row is appended,
or merged into the row that has its key. With the merge that takes the new row the last row of a key
wins, and rows may be put into an empty table first and from there into the table; with the merge
that keeps the old row the first one wins. A database refuses rows that break a constraint, among
them rows with the primary key of another row.
-/

namespace OptionResearch.KeyedTables

variable {R P K ι : Type} [DecidableEq K]

/-! ### Putting rows -/

/-- Merge a row into the row of its key, or append it. -/
def put (key : R → K) (merge : R → R → R) : List R → R → List R
  | [], new => [new]
  | old :: rest, new =>
    if key old = key new then merge old new :: rest else old :: put key merge rest new

def putAll (key : R → K) (merge : R → R → R) (rows news : List R) : List R :=
  news.foldl (put key merge) rows

/-- The merge of which the new row is left, and the one of which the old row is left. -/
def takeNew (_ new : R) : R := new

def keepOld (old _ : R) : R := old

/-- The row of a key. -/
def rowOf (key : R → K) (k : K) (rows : List R) : Option R := rows.find? (key · = k)

variable {key : R → K} {merge : R → R → R} {rows news : List R} {new : R} {k : K}

theorem putAll_append (news later : List R) :
    putAll key merge rows (news ++ later) = putAll key merge (putAll key merge rows news) later :=
  List.foldl_append

theorem putAll_concat (news : List R) (new : R) :
    putAll key merge rows (news ++ [new]) = put key merge (putAll key merge rows news) new := by
  rw [putAll_append]
  rfl

/-- A view of the rows, under which merging is another merge, is put the same way. -/
theorem map_put {K' : Type} [DecidableEq K'] {key' : P → K'} {merge' : P → P → P} {view : R → P}
    (hkey : ∀ row ∈ rows, key row = key new ↔ key' (view row) = key' (view new))
    (hmerge : ∀ row ∈ rows, key row = key new →
      view (merge row new) = merge' (view row) (view new)) :
    (put key merge rows new).map view = put key' merge' (rows.map view) (view new) := by
  induction rows with
  | nil => rfl
  | cons old rest ih =>
    rw [put, List.map_cons, put]
    by_cases hsame : key old = key new
    · rw [if_pos hsame, if_pos ((hkey old List.mem_cons_self).mp hsame), List.map_cons,
        hmerge old List.mem_cons_self hsame]
    · rw [if_neg hsame, if_neg (fun h => hsame ((hkey old List.mem_cons_self).mpr h)), List.map_cons,
        ih (fun row hrow => hkey row (List.mem_cons_of_mem _ hrow))
          fun row hrow => hmerge row (List.mem_cons_of_mem _ hrow)]

/-- Every row of the table after a put is a row before, the new row, or a merge of the two. -/
theorem mem_put {row : R} (h : row ∈ put key merge rows new) :
    row ∈ rows ∨ row = new ∨ ∃ old ∈ rows, key old = key new ∧ row = merge old new := by
  induction rows with
  | nil => exact .inr (.inl (List.mem_singleton.mp h))
  | cons old rest ih =>
    rw [put] at h
    split_ifs at h with hsame
    · rcases List.mem_cons.mp h with rfl | hrest
      · exact .inr (.inr ⟨old, List.mem_cons_self, hsame, rfl⟩)
      · exact .inl (List.mem_cons_of_mem _ hrest)
    · rcases List.mem_cons.mp h with rfl | hrest
      · exact .inl List.mem_cons_self
      · rcases ih hrest with hmem | hnew | ⟨merged, hmem, hrow⟩
        · exact .inl (List.mem_cons_of_mem _ hmem)
        · exact .inr (.inl hnew)
        · exact .inr (.inr ⟨merged, List.mem_cons_of_mem _ hmem, hrow⟩)

/-- As `map_put`, for a view that keeps the keys apart and together everywhere. -/
theorem map_putAll {key' : P → K} {merge' : P → P → P} {view : R → P}
    (hkey : ∀ row, key' (view row) = key row)
    (hmerge : ∀ old new, key old = key new → view (merge old new) = merge' (view old) (view new))
    (rows news : List R) :
    (putAll key merge rows news).map view = putAll key' merge' (rows.map view) (news.map view) := by
  induction news using List.reverseRecOn with
  | nil => rfl
  | append_singleton news new ih =>
    have hkeys : ∀ row ∈ putAll key merge rows news,
        key row = key new ↔ key' (view row) = key' (view new) :=
      fun row _ => by rw [hkey, hkey]
    rw [putAll_concat, map_put hkeys fun row _ => hmerge row new, ih, List.map_append]
    exact (putAll_concat (news.map view) (view new)).symm

theorem length_put_le (rows : List R) (new : R) :
    (put key merge rows new).length ≤ rows.length + 1 := by
  induction rows with
  | nil => exact Nat.le_refl 1
  | cons old rest ih =>
    rw [put]
    split_ifs
    · exact Nat.le_succ _
    · exact Nat.succ_le_succ ih

theorem length_putAll_le (rows news : List R) :
    (putAll key merge rows news).length ≤ rows.length + news.length := by
  induction news using List.reverseRecOn with
  | nil => exact Nat.le_refl _
  | append_singleton news new ih =>
    rw [putAll_concat, List.length_append, List.length_singleton]
    have hput : (put key merge (putAll key merge rows news) new).length ≤
        (putAll key merge rows news).length + 1 := length_put_le _ new
    omega

theorem mem_putAll_takeNew {row : R} (h : row ∈ putAll key takeNew rows news) :
    row ∈ rows ∨ row ∈ news := by
  induction news generalizing rows with
  | nil => exact .inl h
  | cons new rest ih =>
    rcases ih h with hput | hrest
    · rcases mem_put hput with hold | rfl | ⟨_, _, _, rfl⟩
      · exact .inl hold
      · exact .inr List.mem_cons_self
      · exact .inr List.mem_cons_self
    · exact .inr (List.mem_cons_of_mem _ hrest)

/-- Rows that two keys tell apart alike are put into an empty table alike. -/
theorem map_putAll_nil {K' : Type} [DecidableEq K'] {key' : P → K'} {view : R → P}
    (h : ∀ row ∈ news, ∀ other ∈ news, key row = key other ↔ key' (view row) = key' (view other)) :
    (putAll key takeNew [] news).map view = putAll key' takeNew [] (news.map view) := by
  induction news using List.reverseRecOn with
  | nil => rfl
  | append_singleton news new ih =>
    have hbefore : ∀ row ∈ putAll key takeNew [] news, row ∈ news ++ [new] := fun row hrow =>
      List.mem_append_left _ ((mem_putAll_takeNew hrow).resolve_left List.not_mem_nil)
    have hlast : new ∈ news ++ [new] := List.mem_append_right _ List.mem_cons_self
    have hmerge : ∀ row ∈ putAll key takeNew [] news, key row = key new →
        view (takeNew row new) = takeNew (view row) (view new) := fun _ _ _ => rfl
    rw [putAll_concat, map_put (fun row hrow => h row (hbefore row hrow) new hlast) hmerge,
      List.map_append, ih fun row hrow other hother =>
        h row (List.mem_append_left _ hrow) other (List.mem_append_left _ hother)]
    exact (putAll_concat (news.map view) (view new)).symm

/-! ### The rows of the keys -/

/-- A merge leaves a row of the same key. -/
def KeepsKey (key : R → K) (merge : R → R → R) : Prop :=
  ∀ old new, key old = key new → key (merge old new) = key old

omit [DecidableEq K] in
theorem keepsKey_takeNew : KeepsKey key takeNew := fun _ _ h => h.symm

omit [DecidableEq K] in
theorem keepsKey_keepOld : KeepsKey key keepOld := fun _ _ _ => rfl

/-- The keys of a table only ever grow at its end. -/
theorem keys_put (hmerge : KeepsKey key merge) (rows : List R) (new : R) :
    (put key merge rows new).map key =
      if key new ∈ rows.map key then rows.map key else rows.map key ++ [key new] := by
  induction rows with
  | nil => rfl
  | cons old rest ih =>
    rw [put]
    by_cases hsame : key old = key new
    · rw [if_pos hsame, List.map_cons, hmerge old new hsame, if_pos (by simp [hsame])]
      rfl
    · have hmem : key new ∈ (old :: rest).map key ↔ key new ∈ rest.map key := by
        rw [List.map_cons, List.mem_cons, or_iff_right (Ne.symm hsame)]
      rw [if_neg hsame, List.map_cons, ih, List.map_cons]
      simp only [List.map_cons] at hmem
      simp only [hmem]
      split_ifs <;> rfl

/-- The keys do not depend on the merge. -/
theorem keys_putAll {merge' : R → R → R} (hmerge : KeepsKey key merge)
    (hmerge' : KeepsKey key merge') (rows news : List R) :
    (putAll key merge rows news).map key = (putAll key merge' rows news).map key := by
  induction news using List.reverseRecOn with
  | nil => rfl
  | append_singleton news new ih =>
    rw [putAll_concat, putAll_concat, keys_put hmerge, keys_put hmerge', ih]

theorem nodup_keys_putAll (hmerge : KeepsKey key merge) (hrows : (rows.map key).Nodup)
    (news : List R) : ((putAll key merge rows news).map key).Nodup := by
  induction news using List.reverseRecOn with
  | nil => exact hrows
  | append_singleton news new ih =>
    rw [putAll_concat, keys_put hmerge]
    split_ifs with hmem
    · exact ih
    · exact List.nodup_append.mpr ⟨ih, List.nodup_singleton _, fun a ha b hb =>
        fun hab => hmem (List.mem_singleton.mp hb ▸ hab ▸ ha)⟩

theorem rowOf_put (hmerge : KeepsKey key merge) (rows : List R) (new : R) (k : K) :
    rowOf key k (put key merge rows new) =
      if key new = k then some ((rowOf key k rows).elim new (merge · new))
      else rowOf key k rows := by
  induction rows with
  | nil =>
    rw [put, rowOf, List.find?_cons]
    by_cases hk : key new = k
    · simp [rowOf, hk]
    · simp [rowOf, hk]
  | cons old rest ih =>
    rw [put]
    by_cases hsame : key old = key new
    · have hmerged := hmerge old new hsame
      rw [if_pos hsame]
      by_cases hk : key new = k
      · simp [rowOf, hmerged, hsame, hk]
      · have hold : key old ≠ k := hsame ▸ hk
        simp [rowOf, hmerged, hold, hk]
    · rw [if_neg hsame]
      by_cases hold : key old = k
      · have hk : key new ≠ k := fun h => hsame (hold.trans h.symm)
        simp [rowOf, hold, hk]
      · simp only [rowOf, List.find?_cons, hold, decide_false] at ih ⊢
        exact ih

/-- With the merge that takes the new row, the last row of a key wins. -/
theorem rowOf_putAll_takeNew (rows news : List R) (k : K) :
    rowOf key k (putAll key takeNew rows news) =
      (rowOf key k news.reverse).or (rowOf key k rows) := by
  induction news using List.reverseRecOn with
  | nil => rfl
  | append_singleton news new ih =>
    rw [putAll_concat, rowOf_put keepsKey_takeNew, ih, List.reverse_append]
    by_cases hk : key new = k
    · rw [if_pos hk]
      simp only [rowOf, List.reverse_singleton, List.singleton_append, List.find?_cons, hk,
        decide_true, Option.some_or]
      cases List.find? (key · = k) news.reverse <;> cases List.find? (key · = k) rows <;> rfl
    · rw [if_neg hk]
      simp [rowOf, hk]

/-- With the merge that keeps the old row, the first row of a key wins. -/
theorem rowOf_putAll_keepOld (rows news : List R) (k : K) :
    rowOf key k (putAll key keepOld rows news) = (rowOf key k rows).or (rowOf key k news) := by
  induction news using List.reverseRecOn with
  | nil => simp [putAll, rowOf]
  | append_singleton news new ih =>
    rw [putAll_concat, rowOf_put keepsKey_keepOld, ih]
    by_cases hk : key new = k
    · rw [if_pos hk]
      simp only [rowOf, List.find?_append, List.find?_cons, hk, decide_true]
      cases List.find? (key · = k) rows <;> cases List.find? (key · = k) news <;> rfl
    · rw [if_neg hk]
      simp [rowOf, List.find?_append, hk]

theorem rowOf_map {key' : P → K} {view : R → P} (hkey : ∀ row, key' (view row) = key row) :
    rowOf key' k (rows.map view) = (rowOf key k rows).map view := by
  rw [rowOf, List.find?_map, rowOf]
  congr 2
  funext row
  rw [Function.comp_apply, hkey]

/-- Where no key occurs twice, a row is the row of its key. -/
theorem rowOf_of_mem (hnodup : (rows.map key).Nodup) {row : R} (hrow : row ∈ rows) :
    rowOf key (key row) rows = some row := by
  induction rows with
  | nil => exact absurd hrow List.not_mem_nil
  | cons first rest ih =>
    rw [List.map_cons, List.nodup_cons] at hnodup
    rw [rowOf, List.find?_cons]
    rcases List.mem_cons.mp hrow with rfl | hrest
    · rw [decide_eq_true rfl]
    · have hne : key first ≠ key row := fun h => hnodup.1 (h ▸ List.mem_map_of_mem hrest)
      rw [decide_eq_false hne]
      exact ih hnodup.2 hrest

/-- Two tables of the same keys are equal if they have the same rows of them. -/
theorem eq_of_rowOf {others : List R} (hkeys : rows.map key = others.map key)
    (hnodup : (rows.map key).Nodup) (h : ∀ k, rowOf key k rows = rowOf key k others) :
    rows = others := by
  induction rows generalizing others with
  | nil =>
    cases others with
    | nil => rfl
    | cons other rest => exact absurd hkeys nofun
  | cons row rest ih =>
    cases others with
    | nil => exact absurd hkeys nofun
    | cons other rest' =>
      rw [List.map_cons, List.map_cons, List.cons.injEq] at hkeys
      rw [List.map_cons, List.nodup_cons] at hnodup
      have hfirst := h (key row)
      simp only [rowOf, List.find?_cons, decide_true, hkeys.1, Option.some.injEq] at hfirst
      subst hfirst
      rw [ih hkeys.2 hnodup.2]
      intro k
      have hk := h k
      by_cases hrow : key row = k
      · have hnone : ∀ rows' : List R, rows'.map key = rest.map key → rowOf key k rows' = none := by
          intro rows' hrows'
          rw [rowOf, List.find?_eq_none]
          intro x hx hxk
          apply hnodup.1
          rw [hrow, ← of_decide_eq_true hxk, ← hrows']
          exact List.mem_map_of_mem hx
        rw [hnone rest rfl, hnone rest' hkeys.2.symm]
      · simpa only [rowOf, List.find?_cons, hrow, decide_false] using hk

/-! ### Putting rows aside first -/

/-- Two new rows of one key are as good as the second. -/
theorem put_put_takeNew (rows : List R) {first : R} (hkey : key first = key new) :
    put key takeNew (put key takeNew rows first) new = put key takeNew rows new := by
  induction rows with
  | nil => simp [put, takeNew, hkey]
  | cons old rest ih =>
    rw [put, put, hkey]
    by_cases hsame : key old = key new
    · rw [if_pos hsame, if_pos hsame, put, takeNew, if_pos hkey]
      rfl
    · rw [if_neg hsame, if_neg hsame, put, if_neg hsame, ih]

/-- A row whose key is there may be put before a row of another key. -/
theorem put_comm_takeNew {rows : List R} {other : R} (hmem : key new ∈ rows.map key)
    (hkey : key other ≠ key new) :
    put key takeNew (put key takeNew rows other) new =
      put key takeNew (put key takeNew rows new) other := by
  induction rows with
  | nil => exact absurd hmem List.not_mem_nil
  | cons old rest ih =>
    by_cases hnew : key old = key new
    · have hother : key old ≠ key other := fun h => hkey (h.symm.trans hnew)
      rw [put, if_neg hother, put, if_pos hnew, put, if_pos hnew, takeNew, put,
        if_neg (Ne.symm hkey)]
    · have hrest : key new ∈ rest.map key := by
        rw [List.map_cons] at hmem
        exact (List.mem_cons.mp hmem).resolve_left (Ne.symm hnew)
      by_cases hother : key old = key other
      · rw [put, if_pos hother, put, takeNew, if_neg hkey, put, if_neg hnew, put, if_pos hother,
          takeNew]
      · rw [put, if_neg hother, put, if_neg hnew, put, if_neg hnew, put, if_neg hother, ih hrest]

theorem put_putAll_comm {later : List R} (hmem : key new ∈ rows.map key)
    (hlater : key new ∉ later.map key) :
    put key takeNew (putAll key takeNew rows later) new =
      putAll key takeNew (put key takeNew rows new) later := by
  induction later generalizing rows with
  | nil => rfl
  | cons other later ih =>
    rw [List.map_cons, List.mem_cons, not_or] at hlater
    have hmem' : key new ∈ (put key takeNew rows other).map key := by
      rw [keys_put keepsKey_takeNew]
      split_ifs
      · exact hmem
      · exact List.mem_append_left _ hmem
    change put key takeNew (putAll key takeNew (put key takeNew rows other) later) new =
      putAll key takeNew (put key takeNew (put key takeNew rows new) other) later
    rw [ih hmem' hlater.2, put_comm_takeNew hmem (Ne.symm hlater.1)]

/-- Putting a row aside and then all of them is putting all of them and then the row. -/
theorem putAll_put_takeNew (rows : List R) {aside : List R} (hnodup : (aside.map key).Nodup)
    (new : R) :
    putAll key takeNew rows (put key takeNew aside new) =
      put key takeNew (putAll key takeNew rows aside) new := by
  induction aside generalizing rows with
  | nil => rfl
  | cons old rest ih =>
    rw [List.map_cons, List.nodup_cons] at hnodup
    rw [put]
    by_cases hsame : key old = key new
    · rw [if_pos hsame, takeNew]
      change putAll key takeNew (put key takeNew rows new) rest =
        put key takeNew (putAll key takeNew (put key takeNew rows old) rest) new
      have hmem : key new ∈ (put key takeNew rows old).map key := by
        rw [keys_put keepsKey_takeNew]
        split_ifs with h
        · rwa [← hsame]
        · rw [← hsame]
          exact List.mem_append_right _ List.mem_cons_self
      rw [put_putAll_comm hmem (hsame ▸ hnodup.1), put_put_takeNew rows hsame]
    · rw [if_neg hsame]
      exact ih (put key takeNew rows old) hnodup.2

/-- Rows may be put into an empty table first: the last row of a key wins all the same. -/
theorem putAll_putAll_takeNew (rows news : List R) :
    putAll key takeNew rows (putAll key takeNew [] news) = putAll key takeNew rows news := by
  induction news using List.reverseRecOn with
  | nil => rfl
  | append_singleton news new ih =>
    have hnil : (([] : List R).map key).Nodup := List.nodup_nil
    have hnodup : ((putAll key takeNew [] news).map key).Nodup :=
      nodup_keys_putAll keepsKey_takeNew hnil news
    rw [putAll_concat, putAll_put_takeNew rows hnodup, ih, putAll_concat]

/-- A row that changes nothing of the row of its key changes nothing. -/
theorem put_eq_self {old : R} (hold : rowOf key (key new) rows = some old)
    (hmerge : merge old new = old) : put key merge rows new = rows := by
  induction rows with
  | nil => cases hold
  | cons row rest ih =>
    rw [put]
    by_cases hsame : key row = key new
    · rw [rowOf, List.find?_cons_of_pos (by simpa using hsame)] at hold
      cases hold
      rw [if_pos hsame, hmerge]
    · rw [rowOf, List.find?_cons_of_neg (by simpa using hsame)] at hold
      rw [if_neg hsame, ih hold]

theorem putAll_eq_self
    (h : ∀ new ∈ news, ∃ old, rowOf key (key new) rows = some old ∧ merge old new = old) :
    putAll key merge rows news = rows := by
  induction news with
  | nil => rfl
  | cons new rest ih =>
    obtain ⟨old, hold, hmerge⟩ := h new List.mem_cons_self
    change putAll key merge (put key merge rows new) rest = rows
    rw [put_eq_self hold hmerge]
    exact ih fun later hlater => h later (List.mem_cons_of_mem _ hlater)

/-! ### Constraints -/

/-- A table of a database: the unique key, what an update leaves of an old row and a new one, the
primary key where rows bring one, and the other constraints. -/
structure Table (R K ι : Type) where
  key : R → K
  overwrite : R → R → R
  primary : R → Option ι
  accepts : R → Bool

variable {ε : Type} [DecidableEq ι] (table : Table R K ι) (refusal : ε)

/-- An insert of one row, which merges it into the row of its key. -/
def insertRow (merge : R → R → R) (rows : List R) (new : R) : Except ε (List R) :=
  if table.accepts new = false then .error refusal
  else if (rows.map table.key).contains (table.key new) then .ok (put table.key merge rows new)
  else if rows.any fun old => (table.primary new).isSome && table.primary old = table.primary new
    then .error refusal
  else .ok (put table.key merge rows new)

/-- An insert of several rows; one refusal refuses them all. -/
def insertRows (merge : R → R → R) (rows news : List R) : Except ε (List R) :=
  news.foldlM (insertRow table refusal merge) rows

/-- Rows with one primary key have one key. -/
def OneKeyEach (rows : List R) : Prop :=
  ∀ row ∈ rows, ∀ other ∈ rows, (table.primary row).isSome →
    table.primary row = table.primary other → table.key row = table.key other

/-- The merge leaves a row the two keys of the old one. -/
structure KeepsKeys (merge : R → R → R) : Prop where
  key : KeepsKey table.key merge
  primary : ∀ old new, table.primary (merge old new) = table.primary old

variable {table refusal}

omit [DecidableEq K] [DecidableEq ι] in
/-- Rows that have the two keys of rows with one key each. -/
theorem OneKeyEach.of_sources {rows others : List R} (h : OneKeyEach table rows)
    (hsource : ∀ other ∈ others, ∃ row ∈ rows, table.key other = table.key row ∧
      table.primary other = table.primary row) : OneKeyEach table others := by
  intro row hrow other hother hsome hprimary
  obtain ⟨source, hmem, hkey, hid⟩ := hsource row hrow
  obtain ⟨source', hmem', hkey', hid'⟩ := hsource other hother
  rw [hkey, hkey']
  exact h source hmem source' hmem' (hid ▸ hsome) ((hid.symm.trans hprimary).trans hid')

omit [DecidableEq K] [DecidableEq ι] in
theorem OneKeyEach.subset {rows others : List R} (h : OneKeyEach table rows)
    (hsub : others ⊆ rows) : OneKeyEach table others :=
  h.of_sources fun other hother => ⟨other, hsub hother, rfl, rfl⟩

omit [DecidableEq ι] in
/-- Rows that are put have the two keys of a row before or of a new one. -/
theorem source_putAll {merge : R → R → R} (hmerge : KeepsKeys table merge) {rows news : List R}
    {row : R} (h : row ∈ putAll table.key merge rows news) :
    ∃ source ∈ rows ++ news, table.key row = table.key source ∧
      table.primary row = table.primary source := by
  induction news generalizing rows with
  | nil => exact ⟨row, List.mem_append_left _ h, rfl, rfl⟩
  | cons new rest ih =>
    obtain ⟨source, hsource, hkey, hid⟩ := ih h
    rcases List.mem_append.mp hsource with hput | hrest
    · rcases mem_put hput with hold | rfl | ⟨old, hold, hsame, rfl⟩
      · exact ⟨source, List.mem_append_left _ hold, hkey, hid⟩
      · exact ⟨source, List.mem_append_right _ List.mem_cons_self, hkey, hid⟩
      · exact ⟨old, List.mem_append_left _ hold, hkey.trans (hmerge.key old new hsame),
          hid.trans (hmerge.primary old new)⟩
    · exact ⟨source, List.mem_append_right _ (List.mem_cons_of_mem _ hrest), hkey, hid⟩

omit [DecidableEq ι] in
theorem OneKeyEach.putAll {merge : R → R → R} (hmerge : KeepsKeys table merge)
    {rows news later : List R} (h : OneKeyEach table (rows ++ (news ++ later))) :
    OneKeyEach table (putAll table.key merge rows news ++ later) := by
  apply h.of_sources
  intro row hrow
  rcases List.mem_append.mp hrow with hput | hlater
  · obtain ⟨source, hsource, hkeys⟩ := source_putAll hmerge hput
    refine ⟨source, ?_, hkeys⟩
    rw [← List.append_assoc]
    exact List.mem_append_left _ hsource
  · exact ⟨row, List.mem_append_right _ (List.mem_append_right _ hlater), rfl, rfl⟩

/-- Rows that break no constraint are inserted. -/
theorem insertRows_eq_putAll {merge : R → R → R} (hmerge : KeepsKeys table merge)
    {rows news : List R} (haccepts : ∀ new ∈ news, table.accepts new = true)
    (hone : OneKeyEach table (rows ++ news)) :
    insertRows table refusal merge rows news = .ok (putAll table.key merge rows news) := by
  induction news generalizing rows with
  | nil => rfl
  | cons new rest ih =>
    have hnew : insertRow table refusal merge rows new = .ok (put table.key merge rows new) := by
      rw [insertRow, if_neg (by rw [haccepts new List.mem_cons_self]; decide)]
      split_ifs with hkey hclash
      · rfl
      · obtain ⟨old, hold, hsame⟩ := List.any_eq_true.mp hclash
        obtain ⟨hsome, hprimary⟩ := Bool.and_eq_true_iff.mp hsame
        have hkeys : table.key new = table.key old :=
          hone new (List.mem_append_right _ List.mem_cons_self) old (List.mem_append_left _ hold)
            hsome (of_decide_eq_true hprimary).symm
        exact absurd (List.contains_iff_mem.mpr (hkeys ▸ List.mem_map_of_mem hold)) hkey
      · rfl
    rw [insertRows, List.foldlM_cons, hnew]
    have hput : OneKeyEach table (put table.key merge rows new ++ rest) := by
      have hone' : OneKeyEach table (rows ++ ([new] ++ rest)) := hone
      exact hone'.putAll hmerge
    exact ih (fun later hlater => haccepts later (List.mem_cons_of_mem _ hlater)) hput

end OptionResearch.KeyedTables
