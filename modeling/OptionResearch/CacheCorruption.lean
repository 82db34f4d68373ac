import OptionResearch.CacheManager

/-!
# Corrupt cache files

`get`, `contains` and `verify_integrity` against the directory scan on one file content. They agree
with the scan, up to expiry, exactly on the contents that both handlers of `get_metadata` are made
for; on the others they raise, or take an entry without a payload for one with a null.
-/

namespace OptionResearch
namespace CacheManager

variable (text : CacheText) (manager : CacheManager)

/-- The time has come and gone. -/
def past (now : DateTime) (expiresAt : Option DateTime) : Bool :=
  expiresAt.any fun t => decide (t < now)

/-- The entry that the directory scan treats as valid, unless it has expired. -/
def validEntry (key : String) (now : DateTime) (files : Directory) : Option CacheEntry :=
  match (Effect.exec (readEntryFile text (manager.entryPath text key)) files).1 with
  | .ok (some entry) => if past now entry.expiresAt then none else some entry
  | _ => none

/-- A valid entry leaves the directory as it is, any other one is removed. -/
def leaves (path : String) (files : Directory) (entry : Option CacheEntry) : Directory :=
  if entry.isSome then files else files.pop path

/-- The three readers return, treat as valid what the scan does and has not expired, and remove and
miss everything else. -/
structure CorruptAreMisses (key : String) (now : DateTime) (files : Directory) : Prop where
  get : Effect.exec (manager.get text key now) files =
    (.ok (match manager.validEntry text key now files with
      | none => .none
      | some entry => entry.payload),
      leaves (manager.entryPath text key) files (manager.validEntry text key now files))
  contains : Effect.exec (manager.contains text key now) files =
    (.ok (manager.validEntry text key now files).isSome,
      leaves (manager.entryPath text key) files (manager.validEntry text key now files))
  verifyIntegrity : ∀ manifestChecksum,
    Effect.exec (manager.verifyIntegrity text key manifestChecksum now) files =
      (.ok ((manager.validEntry text key now files).any (manifestMatches · manifestChecksum)),
        leaves (manager.entryPath text key) files (manager.validEntry text key now files))

/-- `created_at` is a timestamp, and `expires_at`, unless it is null or empty, one with an offset.
-/
structure WellTimed (fields : Payload) (createdAt : DateTime) (expiresAt : Option DateTime) :
    Prop where
  created : ∃ s, fields.lookup "created_at" = some (.str s) ∧
    text.fromisoformat s = some createdAt
  expires : if (fields.get "expires_at" .none).truth then
      ∃ s t, fields.get "expires_at" .none = .str s ∧ text.fromisoformat s = some t ∧
        t.utcoffset.isSome ∧ expiresAt = some t
    else expiresAt = none

/-- The content is UTF-8, and no JSON, or a JSON object with times that can be read and compared;
it has a payload, unless it has expired anyway or its digest is not that of a null. -/
def Handled (now : DateTime) (content : ByteArray) : Prop :=
  ∃ encoded, String.fromUTF8? content = some encoded ∧
    ((∃ e, text.loads encoded = .error e ∧ undecodable e = true) ∨
      ∃ fields createdAt expiresAt, text.loads encoded = .ok (.dict fields) ∧
        WellTimed text fields createdAt expiresAt ∧
        ((fields.lookup "payload").isSome ∨ past now expiresAt = true ∨
          expectedHash text fields ≠ text.payloadHash .none))

variable {text manager} {key : String} {now createdAt : DateTime} {expiresAt : Option DateTime}
  {files : Directory} {content : ByteArray} {entry : PyValue} {fields : Payload}

theorem fromIso_eq_ok {value : PyValue} {t : DateTime} :
    fromIso text value = .ok t ↔ ∃ s, value = .str s ∧ text.fromisoformat s = some t := by
  cases value with
  | str s =>
    cases hs : text.fromisoformat s with
    | none => simp [fromIso, hs]
    | some t' => simp [fromIso, hs]
  | _ => simp [fromIso]

/-- Only an object has members. -/
theorem subscript_eq_ok {value : PyValue} {name : String} :
    entry.subscript name = .ok value ↔
      ∃ fields, entry = .dict fields ∧ fields.lookup name = some value := by
  cases entry with
  | dict fields =>
    cases hname : fields.lookup name with
    | none => simp [PyValue.subscript, Payload.item, hname]
    | some value' => simp [PyValue.subscript, Payload.item, hname]
  | _ => simp [PyValue.subscript]

theorem readTimes_of_wellTimed (h : WellTimed text fields createdAt expiresAt) :
    readTimes text (.dict fields) = .ok (createdAt, expiresAt) := by
  obtain ⟨⟨s, hlookup, hs⟩, hexpires⟩ := h
  have hcreated : PyValue.subscript (.dict fields) "created_at" = .ok (.str s) :=
    subscript_eq_ok.mpr ⟨fields, rfl, hlookup⟩
  have hiso : fromIso text (.str s) = .ok createdAt := fromIso_eq_ok.mpr ⟨s, rfl, hs⟩
  rw [readTimes, hcreated]
  dsimp only [bind, Except.bind]
  rw [hiso]
  dsimp only [PyValue.asDict]
  by_cases htruth : (Payload.get fields "expires_at" .none).truth = true
  · rw [if_pos htruth] at hexpires ⊢
    obtain ⟨s', t, hvalue, hs', -, rfl⟩ := hexpires
    rw [fromIso_eq_ok.mpr ⟨s', hvalue, hs'⟩]
    rfl
  · rw [if_neg htruth] at hexpires ⊢
    subst hexpires
    rfl

theorem hasExpired_of_wellTimed (h : WellTimed text fields createdAt expiresAt) :
    hasExpired now expiresAt = .ok (past now expiresAt) := by
  have hexpires := h.expires
  split_ifs at hexpires
  · obtain ⟨-, t, -, -, haware, rfl⟩ := hexpires
    have hoffset : ¬ t.utcoffset.isNone = true := by
      rw [Option.isNone_iff_eq_none]
      exact Option.isSome_iff_ne_none.mp haware
    rw [hasExpired, if_neg hoffset]
    rfl
  · subst hexpires
    rfl

/-- The times are read and compared only where the entry is an object with good ones. -/
theorem wellTimed_of_readTimes {expired : Bool}
    (htimes : readTimes text entry = .ok (createdAt, expiresAt))
    (hexpired : hasExpired now expiresAt = .ok expired) :
    ∃ fields, entry = .dict fields ∧ WellTimed text fields createdAt expiresAt := by
  obtain ⟨created, hsubscript, htimes⟩ := except_bind_eq_ok.mp htimes
  obtain ⟨createdAt', hcreated, hrest⟩ := except_bind_eq_ok.mp htimes
  obtain ⟨fields, rfl, hlookup⟩ := subscript_eq_ok.mp hsubscript
  obtain ⟨s, rfl, hs⟩ := fromIso_eq_ok.mp hcreated
  refine ⟨fields, rfl, ?_⟩
  dsimp only [bind, Except.bind, PyValue.asDict] at hrest
  by_cases htruth : (Payload.get fields "expires_at" .none).truth = true
  · rw [if_pos htruth] at hrest
    obtain ⟨t, ht, hrest⟩ := except_bind_eq_ok.mp hrest
    cases hrest
    obtain ⟨s', hvalue, hs'⟩ := fromIso_eq_ok.mp ht
    refine ⟨⟨s, hlookup, hs⟩, ?_⟩
    rw [if_pos htruth]
    refine ⟨s', t, hvalue, hs', ?_, rfl⟩
    by_contra hnaive
    rw [hasExpired, if_pos (by simpa using hnaive)] at hexpired
    cases hexpired
  · rw [if_neg htruth] at hrest
    cases hrest
    exact ⟨⟨s, hlookup, hs⟩, by rw [if_neg htruth]⟩

/-- Where `get_metadata` comes to a verdict, the entry is an object with good times. -/
theorem wellTimed_of_metadataOf {found : Option CacheEntry}
    (h : metadataOf text now entry = .ok found) :
    ∃ fields createdAt expiresAt, entry = .dict fields ∧
      WellTimed text fields createdAt expiresAt := by
  obtain ⟨⟨createdAt, expiresAt⟩, htimes, h⟩ := except_bind_eq_ok.mp h
  obtain ⟨expired, hexpired, -⟩ := except_bind_eq_ok.mp h
  obtain ⟨fields, hdict, hwell⟩ := wellTimed_of_readTimes htimes hexpired
  exact ⟨fields, createdAt, expiresAt, hdict, hwell⟩

/-- The verdict of `get_metadata`; a payload that is missing counts as a null. -/
theorem metadataOf_of_wellTimed (h : WellTimed text fields createdAt expiresAt) :
    metadataOf text now (.dict fields) =
      .ok (if past now expiresAt then none
        else if expectedHash text fields ≠ text.payloadHash (fields.get "payload" .none) then none
        else some (entryOf text fields (fields.get "payload" .none) createdAt expiresAt)) := by
  rw [metadataOf, readTimes_of_wellTimed h]
  dsimp only [bind, Except.bind]
  rw [hasExpired_of_wellTimed h]
  dsimp only [PyValue.asDict]
  split_ifs
  · rfl
  · rfl
  · rfl

/-- The verdict of the scan; a payload that is missing makes the entry malformed. -/
theorem scannedEntry_of_wellTimed (h : WellTimed text fields createdAt expiresAt) :
    scannedEntry text (.dict fields) =
      match fields.lookup "payload" with
      | none => .error ⟨.other "KeyError", "'payload'"⟩
      | some payload =>
        .ok (if expectedHash text fields ≠ text.payloadHash payload then none
          else some (entryOf text fields payload createdAt expiresAt)) := by
  rw [scannedEntry, readTimes_of_wellTimed h]
  dsimp only [bind, Except.bind, PyValue.subscript, Payload.item]
  cases fields.lookup "payload" with
  | none => rfl
  | some payload =>
    dsimp only [PyValue.asDict]
    split_ifs
    · rfl
    · rfl

/-! ### Runs on one file -/

theorem exec_getMetadata (hfile : files.get? (manager.entryPath text key) = some content) :
    Effect.exec (manager.getMetadata text key now) files =
      match load text content with
      | .error e =>
        if undecodable e then (.ok none, files.pop (manager.entryPath text key))
        else (.error e, files)
      | .ok entry =>
        match metadataOf text now entry with
        | .error e => (.error e, files)
        | .ok none => (.ok none, files.pop (manager.entryPath text key))
        | .ok (some found) => (.ok (some found), files) := by
  rw [getMetadata, Effect.exec_get_bind]
  simp only [hfile]
  cases load text content with
  | error e =>
    dsimp only
    split_ifs
    · rfl
    · rfl
  | ok entry =>
    dsimp only
    cases metadataOf text now entry with
    | error e => rfl
    | ok found =>
      cases found with
      | none => rfl
      | some found => rfl

/-- The entry that the scan finds in a file, whatever it raises. -/
theorem exec_readEntryFile {path : String} (hfile : files.get? path = some content) :
    (Effect.exec (readEntryFile text path) files).1 =
      match load text content with
      | .error e => if undecodable e then .ok none else .error e
      | .ok entry =>
        match scannedEntry text entry with
        | .error e => if malformed e then .ok none else .error e
        | .ok found => .ok found := by
  rw [readEntryFile, Effect.exec_get_bind]
  simp only [hfile]
  cases load text content with
  | error e =>
    dsimp only
    split_ifs
    · rfl
    · rfl
  | ok entry =>
    dsimp only
    cases scannedEntry text entry with
    | error e =>
      dsimp only
      split_ifs
      · rfl
      · rfl
    | ok found =>
      cases found with
      | none => rfl
      | some found => rfl

/-- What the three readers return, once `get_metadata` does. -/
theorem corruptAreMisses_of_getMetadata
    (h : Effect.exec (manager.getMetadata text key now) files =
      (.ok (manager.validEntry text key now files),
        leaves (manager.entryPath text key) files (manager.validEntry text key now files))) :
    manager.CorruptAreMisses text key now files where
  get := by
    rw [CacheManager.get, Effect.exec_bind_of_ok h]
    cases manager.validEntry text key now files with
    | none => rfl
    | some entry => rfl
  contains := by
    rw [CacheManager.contains, Effect.exec_bind_of_ok h]
    rfl
  verifyIntegrity manifestChecksum := by
    rw [CacheManager.verifyIntegrity, Effect.exec_bind_of_ok h]
    cases manager.validEntry text key now files with
    | none => rfl
    | some entry => rfl

theorem load_of_decoded {encoded : String} (h : String.fromUTF8? content = some encoded) :
    load text content = text.loads encoded := by
  rw [load, h]

/-- The scan's verdict on an object with good times. -/
theorem validEntry_of_wellTimed (hfile : files.get? (manager.entryPath text key) = some content)
    (hload : load text content = .ok (.dict fields))
    (h : WellTimed text fields createdAt expiresAt) :
    manager.validEntry text key now files =
      match fields.lookup "payload" with
      | none => none
      | some payload =>
        if past now expiresAt then none
        else if expectedHash text fields ≠ text.payloadHash payload then none
        else some (entryOf text fields payload createdAt expiresAt) := by
  rw [validEntry, exec_readEntryFile hfile, hload]
  dsimp only
  rw [scannedEntry_of_wellTimed h]
  cases fields.lookup "payload" with
  | none => rfl
  | some payload =>
    dsimp only
    by_cases hhash : expectedHash text fields ≠ text.payloadHash payload
    · rw [if_pos hhash]
      exact (ite_self none).symm
    · rw [if_neg hhash]
      rfl

theorem getMetadata_of_handled (hfile : files.get? (manager.entryPath text key) = some content)
    (h : Handled text now content) :
    Effect.exec (manager.getMetadata text key now) files =
      (.ok (manager.validEntry text key now files),
        leaves (manager.entryPath text key) files (manager.validEntry text key now files)) := by
  obtain ⟨encoded, hdecoded, ⟨e, hloads, hcaught⟩ | ⟨fields, createdAt, expiresAt, hloads, hwell,
    hpayload⟩⟩ := h
  · have hload : load text content = .error e := (load_of_decoded hdecoded).trans hloads
    have hnone : manager.validEntry text key now files = none := by
      rw [validEntry, exec_readEntryFile hfile, hload]
      dsimp only
      rw [if_pos hcaught]
    rw [exec_getMetadata hfile, hload, hnone]
    dsimp only
    rw [if_pos hcaught]
    rfl
  · have hload : load text content = .ok (.dict fields) := (load_of_decoded hdecoded).trans hloads
    rw [exec_getMetadata hfile, hload, validEntry_of_wellTimed hfile hload hwell]
    dsimp only
    rw [metadataOf_of_wellTimed hwell, Payload.get]
    cases hlookup : fields.lookup "payload" with
    | some payload =>
      dsimp only [Option.getD]
      split_ifs
      · rfl
      · rfl
      · rfl
    | none =>
      rw [hlookup] at hpayload
      dsimp only [Option.getD]
      by_cases hpast : past now expiresAt = true
      · rw [if_pos hpast]
        rfl
      · have hhash : expectedHash text fields ≠ text.payloadHash .none := by
          simpa [hpast] using hpayload
        rw [if_neg hpast, if_pos hhash]
        rfl

/-- Corrupt contents are misses exactly where the content is one of those the handlers are made
for. -/
theorem corruptAreMisses_iff (text : CacheText) (manager : CacheManager) (key : String)
    (now : DateTime) (files : Directory) {content : ByteArray}
    (hfile : files.get? (manager.entryPath text key) = some content) :
    manager.CorruptAreMisses text key now files ↔ Handled text now content := by
  constructor
  · intro h
    have hcontains := h.contains
    rw [CacheManager.contains, Effect.exec_bind, exec_getMetadata hfile] at hcontains
    cases hdecoded : String.fromUTF8? content with
    | none =>
      simp only [load, hdecoded] at hcontains
      rw [if_neg (by decide)] at hcontains
      cases congrArg Prod.fst hcontains
    | some encoded =>
      rw [load_of_decoded hdecoded] at hcontains
      cases hloads : text.loads encoded with
      | error e =>
        refine ⟨encoded, hdecoded, .inl ⟨e, hloads, ?_⟩⟩
        by_contra hraises
        simp only [hloads, if_neg hraises] at hcontains
        cases congrArg Prod.fst hcontains
      | ok entry =>
        simp only [hloads] at hcontains
        cases hmetadata : metadataOf text now entry with
        | error e =>
          simp only [hmetadata] at hcontains
          cases congrArg Prod.fst hcontains
        | ok found =>
          obtain ⟨fields, createdAt, expiresAt, rfl, hwell⟩ := wellTimed_of_metadataOf hmetadata
          refine ⟨encoded, hdecoded, .inr ⟨fields, createdAt, expiresAt, hloads, hwell, ?_⟩⟩
          by_contra hnot
          rw [not_or, not_or] at hnot
          obtain ⟨hmissing, hpast, hhash⟩ := hnot
          have hlookup : fields.lookup "payload" = none :=
            Option.not_isSome_iff_eq_none.mp hmissing
          -- Without a payload the scan finds no entry, and `get_metadata` one with a null.
          have hload : load text content = .ok (.dict fields) :=
            (load_of_decoded hdecoded).trans hloads
          rw [validEntry_of_wellTimed hfile hload hwell, hlookup,
            metadataOf_of_wellTimed hwell, Payload.get, hlookup] at hcontains
          simp only [Option.getD, if_neg hpast, if_neg hhash] at hcontains
          cases congrArg Prod.fst hcontains
  · exact fun h => corruptAreMisses_of_getMetadata (getMetadata_of_handled hfile h)

/-- Texts for small runs of the model, in which nothing is JSON. -/
def noJsonText : CacheText where
  toPyText := plainText
  floatRepr _ := ""
  render _ := ""
  parse _ := .error ⟨.other "JSONDecodeError", "Expecting value: line 1 column 1 (char 0)"⟩
  fromisoformat _ := none

/-- The entry file of the key `k` with some content. -/
def oneFile (text : CacheText) (content : ByteArray) : Directory :=
  InsertionDict.empty.set (entryPath text ⟨".cache", none⟩ "k") content

theorem corruptAreMisses_noJson :
    (oneFile noJsonText "oops".toUTF8).get? (entryPath noJsonText ⟨".cache", none⟩ "k") =
        some "oops".toUTF8 ∧
      CorruptAreMisses noJsonText ⟨".cache", none⟩ "k" ⟨0, some 0⟩
        (oneFile noJsonText "oops".toUTF8) := by
  have hfile : (oneFile noJsonText "oops".toUTF8).get?
      (entryPath noJsonText ⟨".cache", none⟩ "k") = some "oops".toUTF8 :=
    InsertionDict.get?_set.trans (if_pos rfl)
  refine ⟨hfile, (corruptAreMisses_iff noJsonText ⟨".cache", none⟩ "k" ⟨0, some 0⟩ _ hfile).mpr ?_⟩
  exact ⟨"oops", by decide +kernel, .inl ⟨_, rfl, rfl⟩⟩

/-- One byte that is no UTF-8 leaves `contains` as an exception. -/
theorem contains_undecodable : String.fromUTF8? ⟨#[0xff]⟩ = none ∧ ∀ text : CacheText,
    (Effect.exec (contains text ⟨".cache", none⟩ "k" ⟨0, some 0⟩)
        (oneFile text ⟨#[0xff]⟩)).1 =
      .error ⟨.other "UnicodeDecodeError", "'utf-8' codec can't decode"⟩ ∧
    ¬ CorruptAreMisses text ⟨".cache", none⟩ "k" ⟨0, some 0⟩ (oneFile text ⟨#[0xff]⟩) := by
  have hdecoded : String.fromUTF8? ⟨#[0xff]⟩ = none := by decide +kernel
  refine ⟨hdecoded, fun text => ?_⟩
  have hfile : (oneFile text ⟨#[0xff]⟩).get? (entryPath text ⟨".cache", none⟩ "k") =
      some ⟨#[0xff]⟩ := InsertionDict.get?_set.trans (if_pos rfl)
  have hraises : (Effect.exec (contains text ⟨".cache", none⟩ "k" ⟨0, some 0⟩)
      (oneFile text ⟨#[0xff]⟩)).1 =
        .error ⟨.other "UnicodeDecodeError", "'utf-8' codec can't decode"⟩ := by
    rw [contains, Effect.exec_bind, exec_getMetadata hfile]
    simp only [load, hdecoded]
    rw [if_neg (by decide)]
  refine ⟨hraises, fun h => ?_⟩
  rw [h.contains] at hraises
  cases hraises

end CacheManager
end OptionResearch
