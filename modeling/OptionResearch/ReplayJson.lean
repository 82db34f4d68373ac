import OptionResearch.ReplayEngine
import OptionResearch.StableSort
import Mathlib.Data.String.Basic

/-!
# What the JSON of a replay payload stands for

`json.dumps` with sorted keys and `default=str` writes the JSON form of a value, and `json.loads`
reads that form back. Freezing a form loses nothing of it.
-/

namespace OptionResearch

mutual

/-- What reading the JSON of a value gives: keys sorted, tuples as lists, and the text of what JSON
does not know. -/
def PyText.jsonForm (text : PyText) : PyValue → PyValue
  | .datetime time => .str (text.str (.datetime time))
  | .list items => .list (text.jsonItems items)
  | .tuple items => .list (text.jsonItems items)
  | .dict entries => .dict (StableSort.sortBy Prod.fst (text.jsonEntries entries))
  | value => value

def PyText.jsonItems (text : PyText) : List PyValue → List PyValue
  | [] => []
  | item :: rest => text.jsonForm item :: text.jsonItems rest

def PyText.jsonEntries (text : PyText) : List (String × PyValue) → List (String × PyValue)
  | [] => []
  | (key, item) :: rest => (key, text.jsonForm item) :: text.jsonEntries rest

end

mutual

/-- The values that JSON has. -/
def PyValue.isJson : PyValue → Bool
  | .datetime _ => false
  | .tuple _ => false
  | .list items => PyValue.allJson items
  | .dict entries => PyValue.entriesJson entries
  | _ => true

def PyValue.allJson : List PyValue → Bool
  | [] => true
  | item :: rest => item.isJson && PyValue.allJson rest

def PyValue.entriesJson : List (String × PyValue) → Bool
  | [] => true
  | (_, item) :: rest => item.isJson && PyValue.entriesJson rest

end

theorem PyValue.allJson_iff {items : List PyValue} :
    PyValue.allJson items = true ↔ ∀ item ∈ items, item.isJson = true := by
  induction items with
  | nil => simp [allJson]
  | cons item rest ih => rw [allJson, Bool.and_eq_true, ih, List.forall_mem_cons]

theorem PyValue.entriesJson_iff {entries : List (String × PyValue)} :
    PyValue.entriesJson entries = true ↔ ∀ entry ∈ entries, entry.2.isJson = true := by
  induction entries with
  | nil => simp [entriesJson]
  | cons entry rest ih =>
    rw [entriesJson, Bool.and_eq_true, ih, List.forall_mem_cons]

mutual

theorem PyText.isJson_jsonForm (text : PyText) (value : PyValue) :
    (text.jsonForm value).isJson = true := by
  cases value with
  | list items =>
    rw [PyText.jsonForm, PyValue.isJson]
    exact text.allJson_jsonItems items
  | tuple items =>
    rw [PyText.jsonForm, PyValue.isJson]
    exact text.allJson_jsonItems items
  | dict entries =>
    rw [PyText.jsonForm, PyValue.isJson, PyValue.entriesJson_iff]
    intro entry hentry
    have hall := PyValue.entriesJson_iff.mp (text.entriesJson_jsonEntries entries)
    exact hall entry (StableSort.mem_sortBy.mp hentry)
  | _ => rfl

theorem PyText.allJson_jsonItems (text : PyText) (items : List PyValue) :
    PyValue.allJson (text.jsonItems items) = true := by
  cases items with
  | nil => rfl
  | cons item rest =>
    rw [PyText.jsonItems, PyValue.allJson, text.isJson_jsonForm item, text.allJson_jsonItems rest]
    rfl

theorem PyText.entriesJson_jsonEntries (text : PyText) (entries : List (String × PyValue)) :
    PyValue.entriesJson (text.jsonEntries entries) = true := by
  cases entries with
  | nil => rfl
  | cons entry rest =>
    obtain ⟨key, item⟩ := entry
    rw [PyText.jsonEntries, PyValue.entriesJson, text.isJson_jsonForm item,
      text.entriesJson_jsonEntries rest]
    rfl

end

mutual

theorem freeze_injective {value other : PyValue} (hvalue : value.isJson = true)
    (hother : other.isJson = true) (h : freeze value = freeze other) : value = other := by
  cases value with
  | list items =>
    cases other <;> simp only [freeze, PyValue.tuple.injEq, reduceCtorEq] at h
    · rename_i others
      rw [freezeItems_injective hvalue hother h]
    · cases hother
  | dict entries =>
    cases other <;> simp only [freeze, PyValue.dict.injEq, reduceCtorEq] at h
    rename_i others
    rw [freezeEntries_injective hvalue hother h]
  | tuple items => cases hvalue
  | datetime time => cases hvalue
  | _ => cases other <;> simp_all [freeze, PyValue.isJson]

theorem freezeItems_injective {items others : List PyValue} (hitems : PyValue.allJson items = true)
    (hothers : PyValue.allJson others = true) (h : freezeItems items = freezeItems others) :
    items = others := by
  cases items with
  | nil =>
    cases others with
    | nil => rfl
    | cons _ _ => cases h
  | cons item rest =>
    cases others with
    | nil => cases h
    | cons other more =>
      rw [PyValue.allJson, Bool.and_eq_true] at hitems hothers
      rw [freezeItems, freezeItems, List.cons.injEq] at h
      rw [freeze_injective hitems.1 hothers.1 h.1, freezeItems_injective hitems.2 hothers.2 h.2]

theorem freezeEntries_injective {entries others : List (String × PyValue)}
    (hentries : PyValue.entriesJson entries = true) (hothers : PyValue.entriesJson others = true)
    (h : freezeEntries entries = freezeEntries others) : entries = others := by
  cases entries with
  | nil =>
    cases others with
    | nil => rfl
    | cons _ _ => cases h
  | cons entry rest =>
    obtain ⟨key, item⟩ := entry
    cases others with
    | nil => cases h
    | cons first more =>
      obtain ⟨name, other⟩ := first
      rw [PyValue.entriesJson, Bool.and_eq_true] at hentries hothers
      rw [freezeEntries, freezeEntries, List.cons.injEq, Prod.mk.injEq] at h
      rw [h.1.1, freeze_injective hentries.1 hothers.1 h.1.2,
        freezeEntries_injective hentries.2 hothers.2 h.2]

end

end OptionResearch
