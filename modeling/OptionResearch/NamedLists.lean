import Mathlib.Logic.Function.Basic
import OptionResearch.InsertionDict

/-!
# Tables of mutable lists

A heap holds lists that are changed in place through references, and a table gives names to some of
them. Two names may share a list, and then an item appended under one shows under the other. Where
no two names do, the table is a function from names to lists, and storing a list or appending to
one changes that function at one name.
-/

namespace OptionResearch

/-- Lists that are changed in place; a reference is the index of a list. -/
structure ListHeap (α : Type*) where
  lists : List (List α)

namespace ListHeap

variable {α : Type*} {heap : ListHeap α} {ref other : Nat} {items : List α} {item : α}

def empty : ListHeap α := ⟨[]⟩

def read (heap : ListHeap α) (ref : Nat) : List α := heap.lists[ref]?.getD []

/-- The reference that the next new list gets. -/
def next (heap : ListHeap α) : Nat := heap.lists.length

/-- A new list. -/
def alloc (heap : ListHeap α) (items : List α) : ListHeap α := ⟨heap.lists ++ [items]⟩

/-- `list.append(item)`. -/
def push (heap : ListHeap α) (ref : Nat) (item : α) : ListHeap α :=
  ⟨heap.lists.modify ref (· ++ [item])⟩

@[simp] theorem next_alloc : (heap.alloc items).next = heap.next + 1 := List.length_append

@[simp] theorem next_push : (heap.push ref item).next = heap.next :=
  List.length_modify (· ++ [item]) heap.lists ref

theorem read_of_next_le (h : heap.next ≤ ref) : heap.read ref = [] := by
  rw [read, List.getElem?_eq_none h, Option.getD_none]

theorem read_alloc_next : (heap.alloc items).read heap.next = items := by
  rw [read, alloc, next, List.getElem?_concat_length, Option.getD_some]

theorem read_alloc_of_ne (h : other ≠ heap.next) :
    (heap.alloc items).read other = heap.read other := by
  by_cases hlt : other < heap.next
  · rw [read, alloc, List.getElem?_append_left hlt, read]
  · have hle : heap.next + 1 ≤ other := by omega
    rw [read_of_next_le (by simpa using hle), read_of_next_le (by omega)]

theorem read_push_self (h : ref < heap.next) :
    (heap.push ref item).read ref = heap.read ref ++ [item] := by
  have hread : heap.lists[ref]? = some heap.lists[ref] := List.getElem?_eq_getElem h
  rw [read, push, List.getElem?_modify_eq, read, hread]
  rfl

theorem read_push_of_ne (h : ref ≠ other) : (heap.push ref item).read other = heap.read other := by
  rw [read, push, List.getElem?_modify_ne _ _ h, read]

end ListHeap

/-- A dictionary whose values are mutable lists. -/
structure NamedLists (κ α : Type*) [DecidableEq κ] where
  refs : InsertionDict κ Nat
  heap : ListHeap α

namespace NamedLists

variable {κ α : Type*} [DecidableEq κ]

def empty : NamedLists κ α := ⟨.empty, .empty⟩

def contains (table : NamedLists κ α) (key : κ) : Bool := table.refs.contains key

/-- The items of `table.get(key, [])`. -/
def items (table : NamedLists κ α) (key : κ) : List α :=
  match table.refs.get? key with
  | some ref => table.heap.read ref
  | none => []

/-- `table[key] = items`, where `items` is a new list. -/
def store (table : NamedLists κ α) (key : κ) (items : List α) : NamedLists κ α where
  refs := table.refs.set key table.heap.next
  heap := table.heap.alloc items

/-- `table.setdefault(key, [])`: the table it leaves and the list it returns. -/
def setdefault (table : NamedLists κ α) (key : κ) : NamedLists κ α × Nat :=
  match table.refs.get? key with
  | some ref => (table, ref)
  | none => (table.store key [], table.heap.next)

/-- An item appended to a list that was reached through the table. -/
def push (table : NamedLists κ α) (ref : Nat) (item : α) : NamedLists κ α :=
  { table with heap := table.heap.push ref item }

/-- No two names share a list. -/
structure Separate (table : NamedLists κ α) : Prop where
  allocated : ∀ key ref, table.refs.get? key = some ref → ref < table.heap.next
  unshared : ∀ key other ref,
    table.refs.get? key = some ref → table.refs.get? other = some ref → key = other

variable {table : NamedLists κ α} {key other : κ} {ref : Nat} {listed : List α} {item : α}

theorem items_of_get? (h : table.refs.get? key = some ref) :
    table.items key = table.heap.read ref := by
  rw [items, h]

theorem items_of_not_contains (h : table.contains key = false) : table.items key = [] := by
  rw [items, InsertionDict.get?_eq_none_of_not_contains h]

theorem separate_empty : (empty : NamedLists κ α).Separate :=
  ⟨fun _ _ h => (nomatch h), fun _ _ _ h => (nomatch h)⟩

@[simp] theorem contains_store :
    (table.store key listed).contains other = (other = key || table.contains other) :=
  InsertionDict.contains_set

theorem Separate.store (h : table.Separate) : (table.store key listed).Separate := by
  have hcases : ∀ name place, (table.store key listed).refs.get? name = some place →
      name = key ∧ place = table.heap.next ∨
        name ≠ key ∧ table.refs.get? name = some place := by
    intro name place hget
    rw [NamedLists.store, InsertionDict.get?_set] at hget
    by_cases hkey : name = key
    · rw [if_pos hkey] at hget
      exact .inl ⟨hkey, (Option.some.inj hget).symm⟩
    · rw [if_neg hkey] at hget
      exact .inr ⟨hkey, hget⟩
  constructor
  · intro name place hget
    change place < (table.heap.alloc listed).next
    rw [ListHeap.next_alloc]
    rcases hcases name place hget with ⟨_, rfl⟩ | ⟨_, hold⟩
    · omega
    · have := h.allocated name place hold
      omega
  · intro name other' place hname hother
    -- the new list is no list that a name had before
    rcases hcases name place hname with ⟨hkey, hplace⟩ | ⟨_, hold⟩
    · rcases hcases other' place hother with ⟨hkey', _⟩ | ⟨_, hold'⟩
      · rw [hkey, hkey']
      · have := h.allocated other' place hold'
        omega
    · rcases hcases other' place hother with ⟨_, hplace⟩ | ⟨_, hold'⟩
      · have := h.allocated name place hold
        omega
      · exact h.unshared name other' place hold hold'

theorem Separate.push (h : table.Separate) : (table.push ref item).Separate := by
  constructor
  · intro name place hget
    change place < (table.heap.push ref item).next
    rw [ListHeap.next_push]
    exact h.allocated name place hget
  · exact h.unshared

theorem Separate.setdefault (h : table.Separate) (key : κ) : (table.setdefault key).1.Separate := by
  rw [NamedLists.setdefault]
  cases table.refs.get? key with
  | none => exact h.store
  | some ref => exact h

/-- Storing a list changes the table at one name. -/
theorem Separate.items_store (h : table.Separate) :
    (table.store key listed).items = Function.update table.items key listed := by
  funext name
  by_cases hkey : name = key
  · rw [hkey, Function.update_self]
    have hget : (table.store key listed).refs.get? key = some table.heap.next := by
      rw [NamedLists.store, InsertionDict.get?_set, if_pos rfl]
    rw [items_of_get? hget]
    exact ListHeap.read_alloc_next
  · rw [Function.update_of_ne hkey, items, items, NamedLists.store, InsertionDict.get?_set,
      if_neg hkey]
    cases hget : table.refs.get? name with
    | none => rfl
    | some place =>
      have hplace := h.allocated name place hget
      exact ListHeap.read_alloc_of_ne (by omega)

/-- A name that `setdefault` enters has no items, as before. -/
theorem Separate.items_setdefault (h : table.Separate) (key : κ) :
    (table.setdefault key).1.items = table.items := by
  rw [NamedLists.setdefault]
  cases hget : table.refs.get? key with
  | none =>
    have hnil : table.items key = [] := by rw [items, hget]
    change (table.store key []).items = table.items
    rw [h.items_store, ← hnil, Function.update_eq_self]
  | some ref => rfl

theorem get?_setdefault (table : NamedLists κ α) (key : κ) :
    (table.setdefault key).1.refs.get? key = some (table.setdefault key).2 := by
  rw [setdefault]
  cases hget : table.refs.get? key with
  | none =>
    change (table.store key []).refs.get? key = some table.heap.next
    rw [store, InsertionDict.get?_set, if_pos rfl]
  | some ref => exact hget

/-- The list that `setdefault` returns has the items of the name. -/
theorem read_setdefault (table : NamedLists κ α) (key : κ) :
    (table.setdefault key).1.heap.read (table.setdefault key).2 = table.items key := by
  rw [setdefault, items]
  cases table.refs.get? key with
  | none => exact ListHeap.read_alloc_next
  | some ref => rfl

theorem contains_setdefault :
    (table.setdefault key).1.contains other = (other = key || table.contains other) := by
  rw [setdefault]
  cases hget : table.refs.get? key with
  | none => exact contains_store
  | some ref =>
    by_cases hkey : other = key
    · simp [hkey, contains, InsertionDict.contains, hget]
    · simp [hkey]

/-- Appending to the list of a name changes the table at that name. -/
theorem Separate.items_push (h : table.Separate) (href : table.refs.get? key = some ref) :
    (table.push ref item).items = Function.update table.items key (table.items key ++ [item]) := by
  have hlt := h.allocated key ref href
  funext name
  by_cases hkey : name = key
  · have hget : (table.push ref item).refs.get? key = some ref := href
    rw [hkey, Function.update_self, items_of_get? hget, items_of_get? href]
    exact ListHeap.read_push_self hlt
  · rw [Function.update_of_ne hkey, items, items]
    change (match table.refs.get? name with
      | some place => (table.heap.push ref item).read place
      | none => []) = _
    cases hget : table.refs.get? name with
    | none => rfl
    | some place =>
      have hne : ref ≠ place := by
        intro heq
        rw [← heq] at hget
        exact hkey (h.unshared name key ref hget href)
      exact ListHeap.read_push_of_ne hne

/-- Appending to the list that `setdefault` returns changes the table at its name. -/
theorem Separate.items_append (h : table.Separate) (key : κ) (item : α) :
    ((table.setdefault key).1.push (table.setdefault key).2 item).items =
      Function.update table.items key (table.items key ++ [item]) := by
  rw [(h.setdefault key).items_push (get?_setdefault table key), h.items_setdefault]

end NamedLists
end OptionResearch
