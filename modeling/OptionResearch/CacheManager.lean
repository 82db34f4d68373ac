import OptionResearch.AsOfQueries
import OptionResearch.PartialEffects
import OptionResearch.ReplayJson
import OptionResearch.ResearchFills

/-!
# A cache of JSON files

`CacheManager` of `cache/manager.py`: one file for each key, which holds the payload with its times
and a digest of its JSON. An entry is read by `get_metadata` for one key and by `_read_entry_file`
in a directory scan, two routines that treat malformed files differently: what the scan takes for
corrupt may leave `get_metadata` as an exception.
-/

namespace OptionResearch

/-- A key of a dictionary that is handed to `json.dumps`. -/
inductive CacheKey where
  | none
  | bool (b : Bool)
  | int (n : Int)
  | float (q : ℚ)
  | str (s : String)
  | other (typeName : String)
  deriving DecidableEq, Repr

/-- A value that is handed to `json.dumps`; lists and tuples are one, and an object that JSON does
not know is what `str` makes of it. -/
inductive CacheValue where
  | none
  | bool (b : Bool)
  | int (n : Int)
  | float (q : ℚ)
  | str (s : String)
  | list (items : List CacheValue)
  | dict (entries : List (CacheKey × CacheValue))
  | object (text : String)

/-- The texts of values. `render` writes a JSON document member by member as it stands, and `parse`
reads one so, with an exception where `json.loads` raises one. -/
structure CacheText extends PyText where
  floatRepr : ℚ → String
  render : PyValue → String
  parse : String → Except Exc PyValue
  fromisoformat : String → Option DateTime

namespace CacheKey

/-- The keys that `<` compares with each other. -/
def kind : CacheKey → String
  | .none => "NoneType"
  | .bool _ => "number"
  | .int _ => "number"
  | .float _ => "number"
  | .str _ => "str"
  | .other typeName => typeName

/-- What keys of one kind are sorted by. -/
def rank : CacheKey → ℚ ×ₗ String
  | .bool b => toLex (if b then 1 else 0, "")
  | .int n => toLex (n, "")
  | .float q => toLex (q, "")
  | .str s => toLex (0, s)
  | .none => toLex (0, "")
  | .other _ => toLex (0, "")

/-- The text of a key. -/
def text (texts : CacheText) : CacheKey → Except Exc String
  | .none => .ok "null"
  | .bool b => .ok (if b then "true" else "false")
  | .int n => .ok (toString n)
  | .float q => .ok (texts.floatRepr q)
  | .str s => .ok s
  | .other typeName =>
    .error ⟨.typeError, s!"keys must be str, int, float, bool or None, not {typeName}"⟩

end CacheKey

namespace CacheText

variable (text : CacheText)

def member (entry : CacheKey × Except Exc PyValue) : Except Exc (String × PyValue) := do
  let key ← entry.1.text text
  let value ← entry.2
  return (key, value)

/-- The items of a dictionary in the order of their keys, which have to be comparable. -/
def inKeyOrder (entries : List (CacheKey × Except Exc PyValue)) :
    Except Exc (List (CacheKey × Except Exc PyValue)) :=
  if ∃ a ∈ entries, ∃ b ∈ entries, a.1.kind ≠ b.1.kind then
    .error ⟨.typeError, "'<' not supported between instances"⟩
  else .ok (StableSort.sortBy (fun entry => entry.1.rank) entries)

def members (sortKeys : Bool) (entries : List (CacheKey × Except Exc PyValue)) :
    Except Exc (List (String × PyValue)) :=
  if sortKeys then do
    let items ← inKeyOrder entries
    items.mapM text.member
  else entries.mapM text.member

mutual

/-- The document that `json.dumps(value, sort_keys=sortKeys, default=str)` writes. -/
def written (sortKeys : Bool) : CacheValue → Except Exc PyValue
  | .none => .ok .none
  | .bool b => .ok (.bool b)
  | .int n => .ok (.int n)
  | .float q => .ok (.float q)
  | .str s => .ok (.str s)
  | .list items => do return .list (← writtenItems sortKeys items)
  | .dict entries => do return .dict (← text.members sortKeys (writtenEntries sortKeys entries))
  | .object s => .ok (.str s)

def writtenItems (sortKeys : Bool) : List CacheValue → Except Exc (List PyValue)
  | [] => .ok []
  | item :: rest => do
    let item ← written sortKeys item
    let rest ← writtenItems sortKeys rest
    return item :: rest

def writtenEntries (sortKeys : Bool) :
    List (CacheKey × CacheValue) → List (CacheKey × Except Exc PyValue)
  | [] => []
  | (key, item) :: rest => (key, written sortKeys item) :: writtenEntries sortKeys rest

end

/-- `json.dumps(value, sort_keys=sortKeys, default=str)`. -/
def dumps (sortKeys : Bool) (value : CacheValue) : Except Exc String := do
  return text.render (← text.written sortKeys value)

mutual

/-- A document as the dictionaries that it is read into: of equal keys the last one counts. -/
def collapse : PyValue → PyValue
  | .list items => .list (collapseItems items)
  | .dict entries => .dict (InsertionDict.ofEntries (collapseEntries entries)).entries
  | value => value

def collapseItems : List PyValue → List PyValue
  | [] => []
  | item :: rest => collapse item :: collapseItems rest

def collapseEntries : List (String × PyValue) → List (String × PyValue)
  | [] => []
  | (key, item) :: rest => (key, collapse item) :: collapseEntries rest

end

/-- `json.loads(encoded)`. -/
def loads (encoded : String) : Except Exc PyValue := do return collapse (← text.parse encoded)

/-- The digest of a payload that was read. -/
def payloadHash (payload : PyValue) : String :=
  text.sha256 (text.render (text.jsonForm payload))

end CacheText

/-- `entry[key]` of a JSON value. -/
def PyValue.subscript (entry : PyValue) (key : String) : Except Exc PyValue :=
  match entry with
  | .dict entries => Payload.item entries key
  | .str _ => .error ⟨.typeError, "string indices must be integers, not 'str'"⟩
  | .list _ => .error ⟨.typeError, "list indices must be integers or slices, not str"⟩
  | value => .error ⟨.typeError, s!"'{value.typeName}' object is not subscriptable"⟩

/-- A directory, by the names of its files. -/
abbrev Directory := InsertionDict String ByteArray

structure CacheEntry where
  payload : PyValue
  createdAt : DateTime
  expiresAt : Option DateTime
  version : PyValue
  integrityHash : String
  manifestChecksum : PyValue
  cacheKey : PyValue

structure CacheManager where
  baseDir : String
  defaultTtlSeconds : Option ℚ := none

namespace CacheManager

variable (text : CacheText) (manager : CacheManager)

/-- `_entry_path`. -/
def entryPath (key : String) : String := manager.baseDir ++ "/" ++ text.sha256 key ++ ".json"

/-- `json.loads(path.read_text(encoding="utf-8"))`, the file being there. -/
def load (content : ByteArray) : Except Exc PyValue :=
  match String.fromUTF8? content with
  | some encoded => text.loads encoded
  | none => .error ⟨.other "UnicodeDecodeError", "'utf-8' codec can't decode"⟩

theorem load_toUTF8 (encoded : String) : load text encoded.toUTF8 = text.loads encoded := by
  have hdecoded : String.fromUTF8? encoded.toUTF8 = some encoded := by
    rw [String.fromUTF8?, String.toUTF8_eq_toByteArray, dif_pos encoded.isValidUTF8]
    rfl
  rw [load, hdecoded]

/-- What the first handler of both routines catches; reading a file that is there raises no
`OSError`. -/
def undecodable (e : Exc) : Bool :=
  e.kind = .other "JSONDecodeError" || e.kind = .other "OSError"

/-- What the second handler of `_read_entry_file` catches. -/
def malformed (e : Exc) : Bool :=
  e.kind = .other "KeyError" || e.kind = .typeError || e.kind = .valueError

/-- `datetime.fromisoformat(value)`. -/
def fromIso (value : PyValue) : Except Exc DateTime :=
  match value with
  | .str s => match text.fromisoformat s with
    | some t => .ok t
    | none => .error ⟨.valueError, s!"Invalid isoformat string: {text.repr (.str s)}"⟩
  | _ => .error ⟨.typeError, "fromisoformat: argument must be str"⟩

/-- The two times of an entry. -/
def readTimes (entry : PyValue) : Except Exc (DateTime × Option DateTime) := do
  let created ← entry.subscript "created_at"
  let createdAt ← fromIso text created
  let fields ← entry.asDict
  let expires := fields.get "expires_at" .none
  if expires.truth then
    let expiresAt ← fromIso text expires
    return (createdAt, some expiresAt)
  else return (createdAt, none)

/-- `expires_at is not None and datetime.now(tz=UTC) > expires_at`. -/
def hasExpired (now : DateTime) (expiresAt : Option DateTime) : Except Exc Bool :=
  match expiresAt with
  | none => .ok false
  | some t =>
    if t.utcoffset.isNone then
      .error ⟨.typeError, "can't compare offset-naive and offset-aware datetimes"⟩
    else .ok (decide (t < now))

/-- `str(entry.get("integrity_hash", ""))`. -/
def expectedHash (fields : Payload) : String := text.str (fields.get "integrity_hash" (.str ""))

def entryOf (fields : Payload) (payload : PyValue) (createdAt : DateTime)
    (expiresAt : Option DateTime) : CacheEntry where
  payload := payload
  createdAt := createdAt
  expiresAt := expiresAt
  version := fields.get "version" .none
  integrityHash := expectedHash text fields
  manifestChecksum := fields.get "manifest_checksum" .none
  cacheKey := fields.get "cache_key" .none

/-- The part of `get_metadata` after the file is loaded; `none` where it deletes the file. -/
def metadataOf (now : DateTime) (entry : PyValue) : Except Exc (Option CacheEntry) := do
  let (createdAt, expiresAt) ← readTimes text entry
  let expired ← hasExpired now expiresAt
  let fields ← entry.asDict
  let payload := fields.get "payload" .none
  if expired then return none
  else if expectedHash text fields ≠ text.payloadHash payload then return none
  else return some (entryOf text fields payload createdAt expiresAt)

def getMetadata (key : String) (now : DateTime) : Effect Directory Exc (Option CacheEntry) := do
  let path := manager.entryPath text key
  let files ← get
  match files.get? path with
  | none => pure none
  | some content =>
    match load text content with
    | .error e =>
      if undecodable e then do
        modify fun files => files.pop path
        pure none
      else Effect.raising (.error e)
    | .ok entry =>
      match metadataOf text now entry with
      | .error e => Effect.raising (.error e)
      | .ok none => do
        modify fun files => files.pop path
        pure none
      | .ok (some found) => pure (some found)

/-- `get`. -/
def get (key : String) (now : DateTime) : Effect Directory Exc PyValue := do
  let entry ← manager.getMetadata text key now
  match entry with
  | none => pure .none
  | some entry => pure entry.payload

/-- `contains`. -/
def contains (key : String) (now : DateTime) : Effect Directory Exc Bool := do
  let entry ← manager.getMetadata text key now
  pure entry.isSome

/-- `manifest_checksum is None or entry.manifest_checksum == manifest_checksum`. -/
def manifestMatches (entry : CacheEntry) : Option String → Bool
  | none => true
  | some checksum => match entry.manifestChecksum with
    | .str s => s = checksum
    | _ => false

def verifyIntegrity (key : String) (manifestChecksum : Option String) (now : DateTime) :
    Effect Directory Exc Bool := do
  let entry ← manager.getMetadata text key now
  match entry with
  | none => pure false
  | some entry => pure (manifestMatches entry manifestChecksum)

/-- The part of `_read_entry_file` after the file is loaded. -/
def scannedEntry (entry : PyValue) : Except Exc (Option CacheEntry) := do
  let (createdAt, expiresAt) ← readTimes text entry
  let payload ← entry.subscript "payload"
  let fields ← entry.asDict
  if expectedHash text fields ≠ text.payloadHash payload then return none
  else return some (entryOf text fields payload createdAt expiresAt)

/-- `_read_entry_file`. -/
def readEntryFile (path : String) : Effect Directory Exc (Option CacheEntry) := do
  let files ← MonadState.get
  match files.get? path with
  | none => pure none
  | some content =>
    match load text content with
    | .error e =>
      if undecodable e then do
        modify fun files => files.pop path
        pure none
      else Effect.raising (.error e)
    | .ok entry =>
      match scannedEntry text entry with
      | .error e =>
        if malformed e then do
          modify fun files => files.pop path
          pure none
        else Effect.raising (.error e)
      | .ok none => do
        modify fun files => files.pop path
        pure none
      | .ok (some found) => pure (some found)

/-- A text, or null where there is none. -/
def optional : Option String → CacheValue
  | none => .none
  | some s => .str s

/-- The entry that `_write_entry` dumps. -/
def entryValue (key : String) (value : CacheValue) (version manifestChecksum : Option String)
    (createdAt : DateTime) (expiresAt : Option DateTime) (integrityHash : String) : CacheValue :=
  .dict [(.str "payload", value), (.str "created_at", .str (text.isoformat createdAt)),
    (.str "expires_at", optional (expiresAt.map text.isoformat)),
    (.str "version", optional version), (.str "integrity_hash", .str integrityHash),
    (.str "manifest_checksum", optional manifestChecksum), (.str "cache_key", .str key)]

def expiry (ttlSeconds : Option ℚ) (createdAt : DateTime) : Option DateTime :=
  match ttlSeconds with
  | some ttl => some (createdAt.addSeconds ttl)
  | none => match manager.defaultTtlSeconds with
    | some ttl => some (createdAt.addSeconds ttl)
    | none => none

/-- `set`, at the microsecond `now` of the UTC clock. -/
def set (key : String) (value : CacheValue) (version : Option String) (ttlSeconds : Option ℚ)
    (manifestChecksum : Option String) (now : Int) : Effect Directory Exc Unit := do
  let payload ← Effect.raising (text.dumps true value)
  let createdAt : DateTime := ⟨now, some 0⟩
  let serialized ← Effect.raising (text.dumps true (entryValue text key value version
    manifestChecksum createdAt (manager.expiry ttlSeconds createdAt) (text.sha256 payload)))
  modify fun files => files.set (manager.entryPath text key) serialized.toUTF8

end CacheManager
end OptionResearch
