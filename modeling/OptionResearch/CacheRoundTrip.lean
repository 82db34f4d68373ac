import OptionResearch.CacheCorruption

/-!
# What a cached value is read back as

The digest of an entry is taken of the value's JSON before it is written and of the JSON of what is
read. The first lists the members of a dictionary in the order of its keys, the second in the order
of their texts, so an entry survives its first reading exactly when the two orders agree in every
dictionary of the value.
-/

namespace OptionResearch

mutual

/-- In every dictionary of a document the keys increase. -/
def PyValue.keysIncrease : PyValue → Prop
  | .list items => PyValue.allKeysIncrease items
  | .dict entries => (entries.map Prod.fst).Pairwise (· < ·) ∧ PyValue.entriesKeysIncrease entries
  | _ => True

def PyValue.allKeysIncrease : List PyValue → Prop
  | [] => True
  | item :: rest => item.keysIncrease ∧ PyValue.allKeysIncrease rest

def PyValue.entriesKeysIncrease : List (String × PyValue) → Prop
  | [] => True
  | (_, item) :: rest => item.keysIncrease ∧ PyValue.entriesKeysIncrease rest

end

mutual

/-- In every dictionary of a value the texts of the keys, taken in the order of the keys,
increase. -/
def CacheValue.keysInTextOrder (text : CacheText) : CacheValue → Prop
  | .list items => CacheValue.allInTextOrder text items
  | .dict entries =>
    ((StableSort.sortBy CacheKey.rank (entries.map Prod.fst)).map fun key =>
        (key.text text).toOption.getD "").Pairwise (· < ·) ∧
      CacheValue.entriesInTextOrder text entries
  | _ => True

def CacheValue.allInTextOrder (text : CacheText) : List CacheValue → Prop
  | [] => True
  | item :: rest => item.keysInTextOrder text ∧ CacheValue.allInTextOrder text rest

def CacheValue.entriesInTextOrder (text : CacheText) : List (CacheKey × CacheValue) → Prop
  | [] => True
  | (_, item) :: rest => item.keysInTextOrder text ∧ CacheValue.entriesInTextOrder text rest

end

/-- What holds of a value as soon as it holds of its items holds of all values. -/
@[elab_as_elim]
theorem CacheValue.nested_induction {P : CacheValue → Prop} (none : P .none)
    (bool : ∀ b, P (.bool b)) (int : ∀ n, P (.int n)) (float : ∀ q, P (.float q))
    (str : ∀ s, P (.str s)) (list : ∀ items, (∀ item ∈ items, P item) → P (.list items))
    (dict : ∀ entries, (∀ entry ∈ entries, P entry.2) → P (.dict entries))
    (object : ∀ s, P (.object s)) (value : CacheValue) : P value :=
  @CacheValue.rec P (fun items => ∀ item ∈ items, P item)
    (fun entries => ∀ entry ∈ entries, P entry.2) (fun entry => P entry.2)
    none bool int float str list dict object
    (fun _ h => absurd h List.not_mem_nil)
    (fun _ _ hitem hrest => List.forall_mem_cons.mpr ⟨hitem, hrest⟩)
    (fun _ h => absurd h List.not_mem_nil)
    (fun _ _ hentry hrest => List.forall_mem_cons.mpr ⟨hentry, hrest⟩)
    (fun _ _ hitem => hitem) value

theorem CacheValue.allInTextOrder_iff {text : CacheText} {items : List CacheValue} :
    CacheValue.allInTextOrder text items ↔ ∀ item ∈ items, item.keysInTextOrder text := by
  induction items with
  | nil => simp [allInTextOrder]
  | cons item rest ih => rw [allInTextOrder, ih, List.forall_mem_cons]

theorem CacheValue.entriesInTextOrder_iff {text : CacheText}
    {entries : List (CacheKey × CacheValue)} :
    CacheValue.entriesInTextOrder text entries ↔
      ∀ entry ∈ entries, entry.2.keysInTextOrder text := by
  induction entries with
  | nil => simp [entriesInTextOrder]
  | cons entry rest ih => rw [entriesInTextOrder, ih, List.forall_mem_cons]

theorem PyValue.allKeysIncrease_iff {items : List PyValue} :
    PyValue.allKeysIncrease items ↔ ∀ item ∈ items, item.keysIncrease := by
  induction items with
  | nil => simp [allKeysIncrease]
  | cons item rest ih => rw [allKeysIncrease, ih, List.forall_mem_cons]

theorem PyValue.entriesKeysIncrease_iff {entries : List (String × PyValue)} :
    PyValue.entriesKeysIncrease entries ↔ ∀ entry ∈ entries, entry.2.keysIncrease := by
  induction entries with
  | nil => simp [entriesKeysIncrease]
  | cons entry rest ih => rw [entriesKeysIncrease, ih, List.forall_mem_cons]

namespace CacheText

theorem jsonEntries_eq_map (text : PyText) (entries : List (String × PyValue)) :
    text.jsonEntries entries = entries.map fun entry => (entry.1, text.jsonForm entry.2) := by
  induction entries with
  | nil => rfl
  | cons entry rest ih => rw [PyText.jsonEntries, ih, List.map_cons]

theorem collapseEntries_eq_map (entries : List (String × PyValue)) :
    collapseEntries entries = entries.map fun entry => (entry.1, collapse entry.2) := by
  induction entries with
  | nil => rfl
  | cons entry rest ih => rw [collapseEntries, ih, List.map_cons]

theorem map_fst_collapseEntries (entries : List (String × PyValue)) :
    (collapseEntries entries).map Prod.fst = entries.map Prod.fst := by
  rw [collapseEntries_eq_map, List.map_map]
  rfl

variable (text : PyText)

mutual

/-- A document with increasing keys is read as it stands. -/
theorem collapse_eq_self {doc : PyValue} (h : doc.keysIncrease) : collapse doc = doc := by
  cases doc with
  | list items => rw [collapse, collapseItems_eq_self h]
  | dict entries =>
    obtain ⟨hkeys, hentries⟩ := h
    have hnodup : ((collapseEntries entries).map Prod.fst).Nodup := by
      rw [map_fst_collapseEntries]
      exact hkeys.imp fun hlt => hlt.ne
    rw [collapse, InsertionDict.entries_ofEntries hnodup, collapseEntries_eq_self hentries]
  | _ => rfl

theorem collapseItems_eq_self {items : List PyValue} (h : PyValue.allKeysIncrease items) :
    collapseItems items = items := by
  cases items with
  | nil => rfl
  | cons item rest => rw [collapseItems, collapse_eq_self h.1, collapseItems_eq_self h.2]

theorem collapseEntries_eq_self {entries : List (String × PyValue)}
    (h : PyValue.entriesKeysIncrease entries) : collapseEntries entries = entries := by
  cases entries with
  | nil => rfl
  | cons entry rest =>
    obtain ⟨key, item⟩ := entry
    rw [collapseEntries, collapse_eq_self h.1, collapseEntries_eq_self h.2]

end

mutual

/-- And is its own JSON form. -/
theorem jsonForm_eq_self {doc : PyValue} (hjson : doc.isJson = true) (h : doc.keysIncrease) :
    text.jsonForm doc = doc := by
  cases doc with
  | list items => rw [PyText.jsonForm, jsonItems_eq_self hjson h]
  | dict entries =>
    obtain ⟨hkeys, hentries⟩ := h
    rw [PyText.jsonForm, jsonEntries_eq_self hjson hentries, StableSort.sortBy_eq_self]
    exact (List.pairwise_map.mp hkeys).imp fun hlt => hlt.le
  | tuple items => cases hjson
  | datetime time => cases hjson
  | _ => rfl

theorem jsonItems_eq_self {items : List PyValue} (hjson : PyValue.allJson items = true)
    (h : PyValue.allKeysIncrease items) : text.jsonItems items = items := by
  cases items with
  | nil => rfl
  | cons item rest =>
    rw [PyValue.allJson, Bool.and_eq_true] at hjson
    rw [PyText.jsonItems, jsonForm_eq_self hjson.1 h.1, jsonItems_eq_self hjson.2 h.2]

theorem jsonEntries_eq_self {entries : List (String × PyValue)}
    (hjson : PyValue.entriesJson entries = true) (h : PyValue.entriesKeysIncrease entries) :
    text.jsonEntries entries = entries := by
  cases entries with
  | nil => rfl
  | cons entry rest =>
    obtain ⟨key, item⟩ := entry
    rw [PyValue.entriesJson, Bool.and_eq_true] at hjson
    rw [PyText.jsonEntries, jsonForm_eq_self hjson.1 h.1, jsonEntries_eq_self hjson.2 h.2]

end

mutual

/-- The JSON form of what is read has increasing keys. -/
theorem keysIncrease_jsonForm {doc : PyValue} (hjson : doc.isJson = true) :
    (text.jsonForm (collapse doc)).keysIncrease := by
  cases doc with
  | list items => exact allKeysIncrease_jsonItems hjson
  | dict entries =>
    rw [collapse, PyText.jsonForm, jsonEntries_eq_map, PyValue.keysIncrease,
      PyValue.entriesKeysIncrease_iff]
    constructor
    · apply List.pairwise_map.mpr
      apply StableSort.sortBy_strict
      rw [List.map_map]
      exact (InsertionDict.ofEntries (collapseEntries entries)).nodup_keys
    · intro entry hentry
      obtain ⟨member, hmember, rfl⟩ := List.mem_map.mp (StableSort.mem_sortBy.mp hentry)
      have hread := InsertionDict.mem_ofEntries hmember
      exact entriesKeysIncrease_jsonEntries hjson member hread
  | tuple items => cases hjson
  | datetime time => cases hjson
  | _ => trivial

theorem allKeysIncrease_jsonItems {items : List PyValue} (hjson : PyValue.allJson items = true) :
    PyValue.allKeysIncrease (text.jsonItems (collapseItems items)) := by
  cases items with
  | nil => trivial
  | cons item rest =>
    rw [PyValue.allJson, Bool.and_eq_true] at hjson
    exact ⟨keysIncrease_jsonForm hjson.1, allKeysIncrease_jsonItems hjson.2⟩

theorem entriesKeysIncrease_jsonEntries {entries : List (String × PyValue)}
    (hjson : PyValue.entriesJson entries = true) :
    ∀ member ∈ collapseEntries entries, (text.jsonForm member.2).keysIncrease := by
  cases entries with
  | nil => exact fun _ h => absurd h List.not_mem_nil
  | cons entry rest =>
    obtain ⟨key, item⟩ := entry
    rw [PyValue.entriesJson, Bool.and_eq_true] at hjson
    intro member hmember
    rcases List.mem_cons.mp hmember with rfl | hrest
    · exact keysIncrease_jsonForm hjson.1
    · exact entriesKeysIncrease_jsonEntries hjson.2 member hrest

end

/-- A document is the JSON form of what is read of it exactly when its keys increase. -/
theorem jsonForm_collapse_iff {doc : PyValue} (hjson : doc.isJson = true) :
    text.jsonForm (collapse doc) = doc ↔ doc.keysIncrease := by
  constructor
  · exact fun h => h ▸ keysIncrease_jsonForm text hjson
  · exact fun h => by rw [collapse_eq_self h, jsonForm_eq_self text hjson h]

/-! ### The documents of a value -/

variable {text : CacheText} {sortKeys : Bool} {value : CacheValue} {doc : PyValue}

theorem writtenItems_eq_mapM (items : List CacheValue) :
    text.writtenItems sortKeys items = items.mapM (text.written sortKeys) := by
  induction items with
  | nil => rfl
  | cons item rest ih =>
    rw [writtenItems, ih, List.mapM_cons]

theorem writtenEntries_eq_map (entries : List (CacheKey × CacheValue)) :
    text.writtenEntries sortKeys entries =
      entries.map fun entry => (entry.1, text.written sortKeys entry.2) := by
  induction entries with
  | nil => rfl
  | cons entry rest ih => rw [writtenEntries, ih, List.map_cons]

theorem member_eq_ok {entry : CacheKey × Except Exc PyValue} {member : String × PyValue} :
    text.member entry = .ok member ↔
      entry.1.text text = .ok member.1 ∧ entry.2 = .ok member.2 := by
  constructor
  · intro h
    obtain ⟨key, hkey, h⟩ := except_bind_eq_ok.mp h
    obtain ⟨item, hitem, h⟩ := except_bind_eq_ok.mp h
    cases h
    exact ⟨hkey, hitem⟩
  · rintro ⟨hkey, hitem⟩
    rw [CacheText.member, hkey, hitem]
    rfl

/-- Sorted or not, the members are those of the items. -/
theorem perm_of_members {entries : List (CacheKey × Except Exc PyValue)}
    {listed : List (String × PyValue)} (h : text.members sortKeys entries = .ok listed) :
    ∃ unsorted, entries.mapM text.member = .ok unsorted ∧ listed.Perm unsorted := by
  cases sortKeys with
  | false => exact ⟨listed, h, .refl _⟩
  | true =>
    obtain ⟨items, hitems, h⟩ := except_bind_eq_ok.mp h
    rw [inKeyOrder] at hitems
    split_ifs at hitems
    cases hitems
    exact mapM_eq_ok_perm StableSort.sortBy_perm h

theorem keyText_of_member {entry : CacheKey × Except Exc PyValue} {listed : String × PyValue}
    (h : text.member entry = .ok listed) : listed.1 = (entry.1.text text).toOption.getD "" := by
  rw [(member_eq_ok.mp h).1]
  rfl

/-- The keys of an object that is written with sorted keys. -/
theorem keys_of_members {entries : List (CacheKey × CacheValue)}
    {listed : List (String × PyValue)}
    (h : text.members true (text.writtenEntries true entries) = .ok listed) :
    listed.map Prod.fst = (StableSort.sortBy CacheKey.rank (entries.map Prod.fst)).map
      fun key => (key.text text).toOption.getD "" := by
  obtain ⟨items, hitems, h⟩ := except_bind_eq_ok.mp h
  rw [inKeyOrder] at hitems
  split_ifs at hitems
  cases hitems
  have hkeys : (text.writtenEntries true entries).map Prod.fst = entries.map Prod.fst := by
    rw [writtenEntries_eq_map, List.map_map]
    rfl
  calc listed.map Prod.fst
      = (StableSort.sortBy (fun entry => entry.1.rank) (text.writtenEntries true entries)).map
          fun entry => (entry.1.text text).toOption.getD "" :=
        map_eq_of_mapM_eq_ok h fun _ _ => keyText_of_member
    _ = _ := by rw [← hkeys, ← StableSort.map_sortBy, List.map_map]; rfl

theorem isJson_written (h : text.written sortKeys value = .ok doc) : doc.isJson = true := by
  induction value using CacheValue.nested_induction generalizing doc with
  | list items ih =>
    obtain ⟨docs, hdocs, h⟩ := except_bind_eq_ok.mp h
    cases h
    rw [writtenItems_eq_mapM] at hdocs
    rw [PyValue.isJson, PyValue.allJson_iff]
    intro doc hdoc
    obtain ⟨item, hitem, hwritten⟩ := (mapM_eq_ok_mem hdocs).2 doc hdoc
    exact ih item hitem hwritten
  | dict entries ih =>
    obtain ⟨listed, hlisted, h⟩ := except_bind_eq_ok.mp h
    cases h
    obtain ⟨unsorted, hunsorted, hperm⟩ := perm_of_members hlisted
    rw [writtenEntries_eq_map, List.mapM_map] at hunsorted
    rw [PyValue.isJson, PyValue.entriesJson_iff]
    intro member hmember
    obtain ⟨entry, hentry, hwritten⟩ :=
      (mapM_eq_ok_mem hunsorted).2 member (hperm.mem_iff.mp hmember)
    exact ih entry hentry (member_eq_ok.mp hwritten).2
  | _ =>
    cases h
    rfl

/-- The keys of the document increase exactly where the texts of the value's keys do. -/
theorem keysIncrease_written (h : text.written true value = .ok doc) :
    doc.keysIncrease ↔ value.keysInTextOrder text := by
  induction value using CacheValue.nested_induction generalizing doc with
  | list items ih =>
    obtain ⟨docs, hdocs, h⟩ := except_bind_eq_ok.mp h
    cases h
    rw [writtenItems_eq_mapM] at hdocs
    rw [PyValue.keysIncrease, PyValue.allKeysIncrease_iff, CacheValue.keysInTextOrder,
      CacheValue.allInTextOrder_iff]
    exact forall_mapM_iff hdocs fun item hitem doc hwritten => ih item hitem hwritten
  | dict entries ih =>
    obtain ⟨listed, hlisted, h⟩ := except_bind_eq_ok.mp h
    cases h
    rw [PyValue.keysIncrease, PyValue.entriesKeysIncrease_iff, CacheValue.keysInTextOrder,
      CacheValue.entriesInTextOrder_iff]
    refine and_congr ?_ ?_
    · rw [keys_of_members hlisted]
    · obtain ⟨unsorted, hunsorted, hperm⟩ := perm_of_members hlisted
      rw [writtenEntries_eq_map, List.mapM_map] at hunsorted
      have hall : (∀ member ∈ listed, member.2.keysIncrease) ↔
          ∀ member ∈ unsorted, member.2.keysIncrease :=
        forall_congr' fun member => imp_congr_left hperm.mem_iff
      rw [hall]
      exact forall_mapM_iff hunsorted fun entry hentry member hwritten =>
        ih entry hentry (member_eq_ok.mp hwritten).2
  | _ =>
    cases h
    exact Iff.rfl

/-- The document written with sorted keys is the JSON form of what the other one is read as. -/
def Normalizes (text : PyText) (doc plain : PyValue) : Prop :=
  doc.keysIncrease → text.jsonForm (collapse plain) = doc

theorem jsonItems_of_normalizes {docs plains : List PyValue}
    (h : List.Forall₂ (Normalizes text.toPyText) docs plains)
    (hdocs : PyValue.allKeysIncrease docs) : text.jsonItems (collapseItems plains) = docs := by
  induction h with
  | nil => rfl
  | cons hitem _ ih => rw [collapseItems, PyText.jsonItems, hitem hdocs.1, ih hdocs.2]

theorem jsonEntries_of_normalizes {listed plains : List (String × PyValue)}
    (h : List.Forall₂ (fun member plain => plain.1 = member.1 ∧
      Normalizes text.toPyText member.2 plain.2) listed plains)
    (hlisted : PyValue.entriesKeysIncrease listed) :
    text.jsonEntries (collapseEntries plains) = listed := by
  induction h with
  | nil => rfl
  | @cons member plain _ _ hmember _ ih =>
    obtain ⟨key, item⟩ := member
    obtain ⟨key', plain⟩ := plain
    obtain ⟨hkey, hitem⟩ := hmember
    subst hkey
    rw [collapseEntries, PyText.jsonEntries, hitem hlisted.1, ih hlisted.2]

theorem written_normalizes (h : text.written true value = .ok doc) :
    ∃ plain, text.written false value = .ok plain ∧ Normalizes text.toPyText doc plain := by
  induction value using CacheValue.nested_induction generalizing doc with
  | list items ih =>
    obtain ⟨docs, hdocs, h⟩ := except_bind_eq_ok.mp h
    cases h
    rw [writtenItems_eq_mapM] at hdocs
    obtain ⟨plains, hplains, hall⟩ :=
      exists_mapM_forall₂ hdocs fun item hitem doc hwritten => ih item hitem hwritten
    refine ⟨.list plains, ?_, fun hincrease => ?_⟩
    · rw [written, writtenItems_eq_mapM, hplains]
      rfl
    · rw [collapse, PyText.jsonForm, jsonItems_of_normalizes hall hincrease]
  | dict entries ih =>
    obtain ⟨listed, hlisted, h⟩ := except_bind_eq_ok.mp h
    cases h
    obtain ⟨unsorted, hunsorted, hperm⟩ := perm_of_members hlisted
    rw [writtenEntries_eq_map, List.mapM_map] at hunsorted
    obtain ⟨plains, hplains, hall⟩ := exists_mapM_forall₂ (R := fun member plain =>
        plain.1 = member.1 ∧ Normalizes text.toPyText member.2 plain.2)
      (g := fun entry => text.member (entry.1, text.written false entry.2)) hunsorted (by
        intro entry hentry member hmember
        obtain ⟨hkey, hwritten⟩ := member_eq_ok.mp hmember
        obtain ⟨plain, hplain, hnormal⟩ := ih entry hentry hwritten
        exact ⟨(member.1, plain), member_eq_ok.mpr ⟨hkey, hplain⟩, rfl, hnormal⟩)
    refine ⟨.dict plains, ?_, fun hincrease => ?_⟩
    · have hmembers : text.members false (text.writtenEntries false entries) = .ok plains := by
        rw [members, writtenEntries_eq_map, List.mapM_map]
        exact hplains
      rw [written, hmembers]
      rfl
    · obtain ⟨hkeys, hentries⟩ := hincrease
      have hforms : PyValue.entriesKeysIncrease unsorted := by
        rw [PyValue.entriesKeysIncrease_iff] at hentries ⊢
        exact fun entry hentry => hentries entry (hperm.mem_iff.mpr hentry)
      have hjson := jsonEntries_of_normalizes hall hforms
      have hsame : plains.map Prod.fst = unsorted.map Prod.fst := by
        rw [← map_fst_collapseEntries plains, ← hjson, jsonEntries_eq_map, List.map_map]
        rfl
      have hnodup : ((collapseEntries plains).map Prod.fst).Nodup := by
        rw [map_fst_collapseEntries, hsame]
        exact (hperm.map Prod.fst).nodup_iff.mp (hkeys.imp fun hlt => hlt.ne)
      have hdistinct : ∀ a ∈ listed, ∀ b ∈ listed, a.1 = b.1 → a = b := by
        intro a ha b hb hab
        exact List.inj_on_of_nodup_map (hkeys.imp fun hlt => hlt.ne) ha hb hab
      rw [collapse, InsertionDict.entries_ofEntries hnodup, PyText.jsonForm, hjson,
        ← StableSort.sortBy_eq_of_perm hdistinct hperm, StableSort.sortBy_eq_self]
      exact (List.pairwise_map.mp hkeys).imp fun hlt => hlt.le
  | _ =>
    cases h
    exact ⟨_, rfl, fun _ => rfl⟩

/-- `json.loads(json.dumps(value, default=str))`. -/
def normalForm (text : CacheText) (value : CacheValue) : Except Exc PyValue := do
  text.loads (← text.dumps false value)

/-- JSON reads a document as it was written. -/
def Reads (text : CacheText) (doc : PyValue) : Prop := text.parse (text.render doc) = .ok doc

theorem Reads.loads (h : text.Reads doc) : text.loads (text.render doc) = .ok (collapse doc) := by
  rw [CacheText.loads, h]
  rfl

end CacheText

namespace CacheManager

/-- `get` returns what equals the value's normal form as a dictionary, and deletes nothing. -/
def RoundTrips (text : CacheText) (manager : CacheManager) (key : String) (value : CacheValue)
    (later : DateTime) (files : Directory) : Prop :=
  ∃ normal found, text.normalForm value = .ok normal ∧
    text.jsonForm found = text.jsonForm normal ∧
    Effect.exec (manager.get text key later) files = (.ok found, files)

/-- What is written of a text that may be missing. -/
def textOrNone : Option String → PyValue
  | none => .none
  | some s => .str s

/-- The document of an entry, for a payload that is written as `doc`. -/
def entryDocument (text : CacheText) (key : String) (doc : PyValue)
    (version manifestChecksum : Option String) (createdAt : DateTime)
    (expiresAt : Option DateTime) (hash : String) : PyValue :=
  .dict [("cache_key", .str key), ("created_at", .str (text.isoformat createdAt)),
    ("expires_at", textOrNone (expiresAt.map text.isoformat)), ("integrity_hash", .str hash),
    ("manifest_checksum", textOrNone manifestChecksum), ("payload", doc),
    ("version", textOrNone version)]

/-- What the libraries do with an entry: the documents and the times are read as they were written,
and the digest tells the value's document from that of what is read. -/
structure LibrariesRead (text : CacheText) (key : String) (value : CacheValue)
    (version manifestChecksum : Option String) (createdAt : DateTime)
    (expiresAt : Option DateTime) : Prop where
  payload : ∀ sortKeys doc, text.written sortKeys value = .ok doc → text.Reads doc
  again : ∀ doc, text.written true value = .ok doc →
    text.Reads (text.jsonForm (CacheText.collapse doc))
  entry : ∀ doc, text.written true value = .ok doc →
    text.Reads (entryDocument text key doc version manifestChecksum createdAt expiresAt
      (text.sha256 (text.render doc)))
  timestamps : ∀ time, time = createdAt ∨ expiresAt = some time →
    text.isoformat time ≠ "" ∧ text.fromisoformat (text.isoformat time) = some time
  digest : ∀ doc, text.written true value = .ok doc →
    text.sha256 (text.render doc) = text.payloadHash (CacheText.collapse doc) →
      text.render doc = text.render (text.jsonForm (CacheText.collapse doc))

variable {text : CacheText} {manager : CacheManager} {key hash : String} {value : CacheValue}
  {version manifestChecksum : Option String} {createdAt : DateTime} {expiresAt : Option DateTime}
  {doc entry : PyValue} {files files₁ files₂ : Directory} {ttlSeconds : Option ℚ} {now : Int}
  {later : DateTime}

theorem written_optional {sortKeys : Bool} (s : Option String) :
    text.written sortKeys (optional s) = .ok (textOrNone s) := by
  cases s with
  | none => rfl
  | some s => rfl

theorem written_entryValue (hdoc : text.written true value = .ok doc) :
    text.written true (entryValue text key value version manifestChecksum createdAt expiresAt
      hash) =
      .ok (entryDocument text key doc version manifestChecksum createdAt expiresAt hash) := by
  have hordered (a b c d e f g : Except Exc PyValue) : CacheText.inKeyOrder
      [(.str "payload", a), (.str "created_at", b), (.str "expires_at", c), (.str "version", d),
        (.str "integrity_hash", e), (.str "manifest_checksum", f), (.str "cache_key", g)] =
      .ok [(.str "cache_key", g), (.str "created_at", b), (.str "expires_at", c),
        (.str "integrity_hash", e), (.str "manifest_checksum", f), (.str "payload", a),
        (.str "version", d)] := by
    simp [CacheText.inKeyOrder, CacheKey.kind, CacheKey.rank, StableSort.sortBy,
      List.insertionSort, List.orderedInsert, Prod.Lex.toLex_le_toLex]
  simp only [entryValue, CacheText.written, CacheText.writtenEntries, hdoc, written_optional,
    CacheText.members, if_true, hordered]
  rfl

variable (key hash version manifestChecksum doc) in
/-- What is read of an entry that was written. -/
theorem fields_of_entry
    (htimes : ∀ time, time = createdAt ∨ expiresAt = some time →
      text.isoformat time ≠ "" ∧ text.fromisoformat (text.isoformat time) = some time)
    (haware : ∀ time, expiresAt = some time → time.utcoffset.isSome = true) :
    ∃ fields, CacheText.collapse (entryDocument text key doc version manifestChecksum createdAt
        expiresAt hash) = .dict fields ∧
      WellTimed text fields createdAt expiresAt ∧
      Payload.get fields "payload" .none = CacheText.collapse doc ∧
      expectedHash text fields = hash := by
  rw [entryDocument, CacheText.collapse, InsertionDict.entries_ofEntries (by
    rw [CacheText.map_fst_collapseEntries]
    simp only [List.map_cons, List.map_nil]
    decide)]
  refine ⟨_, rfl, ⟨⟨_, rfl, (htimes createdAt (.inl rfl)).2⟩, ?_⟩, rfl, rfl⟩
  cases expiresAt with
  | none => rfl
  | some time =>
    obtain ⟨hne, hiso⟩ := htimes time (.inr rfl)
    have htruth : (PyValue.str (text.isoformat time)).truth = true := by
      simpa [PyValue.truth] using hne
    exact (if_pos htruth).mpr ⟨_, time, rfl, hiso, haware time rfl, rfl⟩

theorem exec_set (hdoc : text.written true value = .ok doc) :
    Effect.exec (manager.set text key value version ttlSeconds manifestChecksum now) files =
      (.ok (), files.set (manager.entryPath text key)
        (text.render (entryDocument text key doc version manifestChecksum ⟨now, some 0⟩
          (manager.expiry ttlSeconds ⟨now, some 0⟩) (text.sha256 (text.render doc)))).toUTF8) := by
  have hdumps : text.dumps true value = .ok (text.render doc) := by
    rw [CacheText.dumps, hdoc]
    rfl
  rw [set, Effect.exec_raising_bind, hdumps]
  dsimp only
  rw [Effect.exec_raising_bind, CacheText.dumps, written_entryValue hdoc]
  rfl

theorem exists_written
    (hset : Effect.exec (manager.set text key value version ttlSeconds manifestChecksum now) files =
      (.ok (), files₁)) : ∃ doc, text.written true value = .ok doc := by
  cases hdoc : text.written true value with
  | ok doc => exact ⟨doc, rfl⟩
  | error e =>
    have hdumps : text.dumps true value = .error e := by
      rw [CacheText.dumps, hdoc]
      rfl
    rw [set, Effect.exec_raising_bind, hdumps] at hset
    cases congrArg Prod.fst hset

theorem utcoffset_of_expiry (h : manager.expiry ttlSeconds createdAt = some later) :
    later.utcoffset = createdAt.utcoffset := by
  cases ttlSeconds with
  | some ttl =>
    cases h
    rfl
  | none =>
    cases hdefault : manager.defaultTtlSeconds with
    | some ttl =>
      simp only [expiry, hdefault] at h
      cases h
      rfl
    | none => simp [expiry, hdefault] at h

/-- The first reading of an entry: the payload, if the digest is that of what is read. -/
theorem exec_get_of_set
    (hset : Effect.exec (manager.set text key value version ttlSeconds manifestChecksum now) files =
      (.ok (), files₁))
    (hfile : files₂.get? (manager.entryPath text key) = files₁.get? (manager.entryPath text key))
    (hlater : past later (manager.expiry ttlSeconds ⟨now, some 0⟩) = false)
    (hreads : LibrariesRead text key value version manifestChecksum ⟨now, some 0⟩
      (manager.expiry ttlSeconds ⟨now, some 0⟩)) (hdoc : text.written true value = .ok doc) :
    Effect.exec (manager.get text key later) files₂ =
      if text.sha256 (text.render doc) ≠ text.payloadHash (CacheText.collapse doc) then
        (.ok .none, files₂.pop (manager.entryPath text key))
      else (.ok (CacheText.collapse doc), files₂) := by
  obtain ⟨-, rfl⟩ := Prod.mk.inj ((exec_set hdoc).symm.trans hset)
  obtain ⟨fields, hfields, hwell, hpayload, hhash⟩ := fields_of_entry key
    (text.sha256 (text.render doc)) version manifestChecksum doc hreads.timestamps
    fun time htime => by rw [utcoffset_of_expiry htime]; rfl
  have hcontent := hfile.trans (InsertionDict.get?_set.trans (if_pos rfl))
  have hload := (load_toUTF8 text _).trans (hreads.entry doc hdoc).loads
  rw [hfields] at hload
  rw [CacheManager.get, Effect.exec_bind, exec_getMetadata hcontent, hload]
  dsimp only
  rw [metadataOf_of_wellTimed hwell, hlater, if_neg Bool.false_ne_true, hhash, hpayload]
  split_ifs
  · rfl
  · rfl

/-- The two digests agree exactly where the keys are in the order of their texts. -/
theorem digest_agrees_iff (hreads : LibrariesRead text key value version manifestChecksum createdAt
      expiresAt) (hdoc : text.written true value = .ok doc) :
    text.sha256 (text.render doc) = text.payloadHash (CacheText.collapse doc) ↔
      value.keysInTextOrder text := by
  rw [← CacheText.keysIncrease_written hdoc,
    ← CacheText.jsonForm_collapse_iff text.toPyText (CacheText.isJson_written hdoc)]
  constructor
  · intro hhash
    have hread : text.Reads doc := hreads.payload true doc hdoc
    have hagain : text.Reads (text.jsonForm (CacheText.collapse doc)) := hreads.again doc hdoc
    rw [CacheText.Reads, hreads.digest doc hdoc hhash] at hread
    exact Except.ok.inj (hagain.symm.trans hread)
  · intro hform
    rw [CacheText.payloadHash, hform]

/-- A reading that leaves the entry finds the digest of what it reads. -/
theorem digest_of_roundTrips
    (hset : Effect.exec (manager.set text key value version ttlSeconds manifestChecksum now) files =
      (.ok (), files₁))
    (hfile : files₂.get? (manager.entryPath text key) = files₁.get? (manager.entryPath text key))
    (hlater : past later (manager.expiry ttlSeconds ⟨now, some 0⟩) = false)
    (hreads : LibrariesRead text key value version manifestChecksum ⟨now, some 0⟩
      (manager.expiry ttlSeconds ⟨now, some 0⟩)) (hdoc : text.written true value = .ok doc)
    (h : RoundTrips text manager key value later files₂) :
    text.sha256 (text.render doc) = text.payloadHash (CacheText.collapse doc) := by
  obtain ⟨normal, found, -, -, hfound⟩ := h
  by_contra hdiffers
  rw [exec_get_of_set hset hfile hlater hreads hdoc, if_pos hdiffers] at hfound
  -- The entry is there, so that deleting it changes the directory.
  obtain ⟨-, rfl⟩ := Prod.mk.inj ((exec_set hdoc).symm.trans hset)
  have hleft : files₂.pop (manager.entryPath text key) = files₂ := congrArg Prod.snd hfound
  have hpopped : files₂.get? (manager.entryPath text key) = none := by
    rw [← hleft, InsertionDict.get?_pop, if_pos rfl]
  rw [hfile, InsertionDict.get?_set, if_pos rfl] at hpopped
  cases hpopped

/-- A value survives its first reading exactly where its keys are in the order of their texts. -/
theorem get_set_iff (text : CacheText) (manager : CacheManager) (key : String) (value : CacheValue)
    (version : Option String) (ttlSeconds : Option ℚ) (manifestChecksum : Option String) (now : Int)
    (later : DateTime) (files files₁ files₂ : Directory)
    (hset : Effect.exec (manager.set text key value version ttlSeconds manifestChecksum now) files =
      (.ok (), files₁))
    (hfile : files₂.get? (manager.entryPath text key) = files₁.get? (manager.entryPath text key))
    (hlater : past later (manager.expiry ttlSeconds ⟨now, some 0⟩) = false)
    (hreads : LibrariesRead text key value version manifestChecksum ⟨now, some 0⟩
      (manager.expiry ttlSeconds ⟨now, some 0⟩)) :
    RoundTrips text manager key value later files₂ ↔ value.keysInTextOrder text := by
  obtain ⟨doc, hdoc⟩ := exists_written hset
  rw [← digest_agrees_iff hreads hdoc]
  constructor
  · exact digest_of_roundTrips hset hfile hlater hreads hdoc
  · intro hagrees
    obtain ⟨plain, hplain, hnormal⟩ := CacheText.written_normalizes hdoc
    have hincrease : doc.keysIncrease :=
      (CacheText.keysIncrease_written hdoc).mpr ((digest_agrees_iff hreads hdoc).mp hagrees)
    have hjson : doc.isJson = true := CacheText.isJson_written hdoc
    refine ⟨CacheText.collapse plain, CacheText.collapse doc, ?_, ?_, ?_⟩
    · rw [CacheText.normalForm, CacheText.dumps, hplain]
      exact (hreads.payload false plain hplain).loads
    · rw [hnormal hincrease]
      exact (CacheText.jsonForm_collapse_iff text.toPyText hjson).mpr hincrease
    · rw [exec_get_of_set hset hfile hlater hreads hdoc, if_neg (not_not.mpr hagrees)]

/-! ### Two entries -/

mutual

/-- The JSON of a document without floats, whose texts need no escapes. -/
def jsonOf : PyValue → String
  | .none => "null"
  | .bool b => if b then "true" else "false"
  | .int n => toString n
  | .str s => "\"" ++ s ++ "\""
  | .list items => "[" ++ ", ".intercalate (jsonItemsOf items) ++ "]"
  | .dict entries => "\x7b" ++ ", ".intercalate (jsonEntriesOf entries) ++ "\x7d"
  | _ => ""

def jsonItemsOf : List PyValue → List String
  | [] => []
  | item :: rest => jsonOf item :: jsonItemsOf rest

def jsonEntriesOf : List (String × PyValue) → List String
  | [] => []
  | (key, item) :: rest => ("\"" ++ key ++ "\": " ++ jsonOf item) :: jsonEntriesOf rest

end

/-- A reader of the JSON of some documents. -/
def readAmong : List PyValue → String → Except Exc PyValue
  | [], _ => .error ⟨.other "JSONDecodeError", "Expecting value: line 1 column 1 (char 0)"⟩
  | doc :: docs, encoded => if encoded = jsonOf doc then .ok doc else readAmong docs encoded

/-- Texts at the epoch, with the digests of one key and three payloads. -/
def epochText (docs : List PyValue) : CacheText where
  sha256 encoded :=
    if encoded = "k" then "8254c329a92850f6d539dd376f4816ee2764517da5e0235514af433164480d7a"
    else if encoded = "\x7b\"a\": 1\x7d" then
      "f9d86028c6e0d64e225186f96acb69338b2c59764df79162107f5c4bb34d1310"
    else if encoded = "\x7b\"9\": \"a\", \"10\": \"b\"\x7d" then
      "407e1dd7ff8b80a5e69a85bace27d51a470ec7ffed38b1dc1b19e88fc58e1ebb"
    else if encoded = "\x7b\"10\": \"b\", \"9\": \"a\"\x7d" then
      "0e0f1c704ddf500336e90e9205050ea5056868cf7f83e92a7fc2c40909f73fa9"
    else encoded
  repr _ := ""
  isoformat _ := "1970-01-01T00:00:00+00:00"
  parseFloat _ := none
  floatRepr _ := ""
  render := jsonOf
  parse := readAmong docs
  fromisoformat encoded :=
    if encoded = "1970-01-01T00:00:00+00:00" then some ⟨0, some 0⟩ else none

theorem readAmong_jsonOf {docs : List PyValue} (hmem : doc ∈ docs)
    (hdistinct : (docs.map jsonOf).Nodup) : readAmong docs (jsonOf doc) = .ok doc := by
  induction docs with
  | nil => cases hmem
  | cons first rest ih =>
    obtain ⟨hfresh, hrest⟩ := List.nodup_cons.mp hdistinct
    rw [readAmong]
    rcases List.mem_cons.mp hmem with rfl | hmem
    · rw [if_pos rfl]
    · have hne : jsonOf doc ≠ jsonOf first := fun heq => hfresh (heq ▸ List.mem_map_of_mem hmem)
      rw [if_neg hne, ih hmem hrest]

/-- What the libraries do with a value that `set` keeps forever from the epoch on. -/
theorem librariesRead_epoch {docs : List PyValue}
    (hwritten : ∀ sortKeys, (epochText docs).written sortKeys value = .ok doc)
    (hdoc : doc ∈ docs) (hagain : (epochText docs).jsonForm (CacheText.collapse doc) ∈ docs)
    (hentry : entryDocument (epochText docs) "k" doc none none ⟨0, some 0⟩ none
      ((epochText docs).sha256 (jsonOf doc)) ∈ docs)
    (hdigest : (epochText docs).sha256 (jsonOf doc) =
        (epochText docs).payloadHash (CacheText.collapse doc) →
      jsonOf doc = jsonOf ((epochText docs).jsonForm (CacheText.collapse doc)))
    (hdistinct : (docs.map jsonOf).Nodup) :
    LibrariesRead (epochText docs) "k" value none none ⟨0, some 0⟩ none where
  payload sortKeys doc' hdoc' := by
    obtain rfl := Except.ok.inj ((hwritten sortKeys).symm.trans hdoc')
    exact readAmong_jsonOf hdoc hdistinct
  again doc' hdoc' := by
    obtain rfl := Except.ok.inj ((hwritten true).symm.trans hdoc')
    exact readAmong_jsonOf hagain hdistinct
  entry doc' hdoc' := by
    obtain rfl := Except.ok.inj ((hwritten true).symm.trans hdoc')
    exact readAmong_jsonOf hentry hdistinct
  timestamps time htime := by
    obtain rfl : time = ⟨0, some 0⟩ := htime.resolve_right fun h => (nomatch h)
    exact ⟨(by decide : "1970-01-01T00:00:00+00:00" ≠ ""), rfl⟩
  digest doc' hdoc' := by
    obtain rfl := Except.ok.inj ((hwritten true).symm.trans hdoc')
    exact hdigest

def namedDoc : PyValue := .dict [("a", .int 1)]

/-- The documents of the entry of a value with one key. -/
def namedDocs : List PyValue :=
  [namedDoc, entryDocument (epochText []) "k" namedDoc none none ⟨0, some 0⟩ none
    "f9d86028c6e0d64e225186f96acb69338b2c59764df79162107f5c4bb34d1310"]

/-- The run of `set` at the epoch that stores a value for good under the key `k`. -/
def stored (docs : List PyValue) (value : CacheValue) : Except Exc Unit × Directory :=
  Effect.exec (set (epochText docs) ⟨".cache", none⟩ "k" value none none none 0) .empty

theorem get_set_named :
    ∃ files, stored namedDocs (.dict [(.str "a", .int 1)]) = (.ok (), files) ∧
      past ⟨5, some 0⟩ (expiry ⟨".cache", none⟩ none ⟨0, some 0⟩) = false ∧
      LibrariesRead (epochText namedDocs) "k" (.dict [(.str "a", .int 1)]) none none ⟨0, some 0⟩
        (expiry ⟨".cache", none⟩ none ⟨0, some 0⟩) ∧
      RoundTrips (epochText namedDocs) ⟨".cache", none⟩ "k" (.dict [(.str "a", .int 1)]) ⟨5, some 0⟩
        files := by
  have hwritten (sortKeys : Bool) :
      (epochText namedDocs).written sortKeys (.dict [(.str "a", .int 1)]) = .ok namedDoc := by
    cases sortKeys <;> rfl
  have hset : stored namedDocs (.dict [(.str "a", .int 1)]) = (.ok (), _) :=
    exec_set (hwritten true)
  have hreads : LibrariesRead (epochText namedDocs) "k" (.dict [(.str "a", .int 1)]) none none
      ⟨0, some 0⟩ (expiry ⟨".cache", none⟩ none ⟨0, some 0⟩) :=
    librariesRead_epoch hwritten (.head _) (.head _) (.tail _ (.head _)) (fun _ => rfl)
      (by decide +kernel)
  have horder : (CacheValue.dict [(.str "a", .int 1)]).keysInTextOrder (epochText namedDocs) :=
    ⟨List.pairwise_singleton _ _, trivial, trivial⟩
  exact ⟨_, hset, rfl, hreads, (get_set_iff _ _ _ _ _ _ _ _ _ _ _ _ hset rfl rfl hreads).mpr horder⟩

def numberedDoc : PyValue := .dict [("9", .str "a"), ("10", .str "b")]

/-- The documents of the entry of a value with two numbers for keys. -/
def numberedDocs : List PyValue :=
  [numberedDoc, .dict [("10", .str "b"), ("9", .str "a")],
    entryDocument (epochText []) "k" numberedDoc none none ⟨0, some 0⟩ none
      "407e1dd7ff8b80a5e69a85bace27d51a470ec7ffed38b1dc1b19e88fc58e1ebb"]

/-- The first reading deletes the entry: 9 is less than 10, and the text of 10 less than that
of 9. -/
theorem get_deletes_numbered :
    ∃ files, stored numberedDocs (.dict [(.int 9, .str "a"), (.int 10, .str "b")]) =
        (.ok (), files) ∧
      LibrariesRead (epochText numberedDocs) "k" (.dict [(.int 9, .str "a"), (.int 10, .str "b")])
        none none ⟨0, some 0⟩ none ∧
      Effect.exec (get (epochText numberedDocs) ⟨".cache", none⟩ "k" ⟨5, some 0⟩) files =
        (.ok .none, files.pop (entryPath (epochText numberedDocs) ⟨".cache", none⟩ "k")) ∧
      ¬ RoundTrips (epochText numberedDocs) ⟨".cache", none⟩ "k"
        (.dict [(.int 9, .str "a"), (.int 10, .str "b")]) ⟨5, some 0⟩ files := by
  have hwritten (sortKeys : Bool) : (epochText numberedDocs).written sortKeys
      (.dict [(.int 9, .str "a"), (.int 10, .str "b")]) = .ok numberedDoc := by
    cases sortKeys <;> rfl
  have hset : stored numberedDocs (.dict [(.int 9, .str "a"), (.int 10, .str "b")]) =
      (.ok (), _) := exec_set (hwritten true)
  have hdiffers : (epochText numberedDocs).sha256 (jsonOf numberedDoc) ≠
      (epochText numberedDocs).payloadHash (CacheText.collapse numberedDoc) := by
    decide +kernel
  have hreads : LibrariesRead (epochText numberedDocs) "k"
      (.dict [(.int 9, .str "a"), (.int 10, .str "b")]) none none ⟨0, some 0⟩ none :=
    librariesRead_epoch hwritten (.head _) (.tail _ (.head _)) (.tail _ (.tail _ (.head _)))
      (fun heq => absurd heq hdiffers) (by decide +kernel)
  refine ⟨_, hset, hreads, ?_, fun h => hdiffers ?_⟩
  · exact (exec_get_of_set hset rfl rfl hreads (hwritten true)).trans (if_pos hdiffers)
  · exact digest_of_roundTrips hset rfl rfl hreads (hwritten true) h

end CacheManager
end OptionResearch
