import Qualigence.Mission.Plan
import Qualigence.Protocol.JsonData
import Qualigence.Protocol.TornText

/-! # The ledger file of observation migrations

Each migration appends one line to the ledger, the JSON text of its record. Every lookup reads the
whole file again and skips the lines that are no JSON, and an append writes nothing when its key is
recorded already. A crash leaves any beginning of the line that was written.
-/

namespace Qualigence.Migration

open Protocol JsValue

/-! ## Records -/

inductive ObservationMigrationStatus where
  | migrated
  | deprecated_
  | needsHuman
  | failed
  deriving DecidableEq

def ObservationMigrationStatus.text : ObservationMigrationStatus → String
  | migrated => "migrated"
  | deprecated_ => "deprecated"
  | needsHuman => "needs_human"
  | failed => "failed"

inductive AssetKind where
  | observation
  | skill
  deriving DecidableEq

def AssetKind.text : AssetKind → String
  | observation => "observation"
  | skill => "skill"

structure ObservationMigrationLookupIdentity where
  skillSourceHash : Option String
  skillVersion : Option ℤ
  skillAssetHash : Option String
  deriving DecidableEq

structure ObservationMigrationResult extends ObservationMigrationLookupIdentity where
  assetId : String
  assetKind : Option AssetKind
  sourceHash : String
  status : ObservationMigrationStatus
  outputRef : Option String
  reasonCode : Option String
  migratorVersion : String
  sourceTraceRefs : Option (List String)
  expectedSourceHash : Option String
  computedSkillSourceHash : Option String
  locatorSchemaVersion : Option String
  skillCompilerVersion : Option String
  deriving DecidableEq

structure PreV1AssetMetadata where
  sourceSchemaVersion : String
  locatorSchemaVersion : Option String
  skillCompilerVersion : Option String
  sourceArtifactRefs : List String
  deriving DecidableEq

structure StoredObservationMigration where
  result : ObservationMigrationResult
  projection : Option JsValue
  metadata : Option PreV1AssetMetadata

/-- The properties of an object literal that are not left out. -/
def present (fields : List (String × Option JsValue)) : List (String × JsValue) :=
  fields.filterMap fun f => f.2.map fun v => (f.1, v)

def textValue (text : Option String) : Option JsValue := text.map JsValue.str

def textsValue (texts : List String) : JsValue := .arr (texts.map JsValue.str)

def ObservationMigrationResult.toValue (r : ObservationMigrationResult) : JsValue :=
  .obj (present [("assetId", some (.str r.assetId)),
    ("assetKind", textValue (r.assetKind.map AssetKind.text)),
    ("sourceHash", some (.str r.sourceHash)), ("status", some (.str r.status.text)),
    ("outputRef", textValue r.outputRef), ("reasonCode", textValue r.reasonCode),
    ("migratorVersion", some (.str r.migratorVersion)),
    ("sourceTraceRefs", r.sourceTraceRefs.map textsValue),
    ("expectedSourceHash", textValue r.expectedSourceHash),
    ("skillSourceHash", textValue r.skillSourceHash),
    ("skillVersion", r.skillVersion.map JsValue.int),
    ("skillAssetHash", textValue r.skillAssetHash),
    ("computedSkillSourceHash", textValue r.computedSkillSourceHash),
    ("locatorSchemaVersion", textValue r.locatorSchemaVersion),
    ("skillCompilerVersion", textValue r.skillCompilerVersion)])

def PreV1AssetMetadata.toValue (m : PreV1AssetMetadata) : JsValue :=
  .obj (present [("observationSchemaEpoch", some (.str "pre-v1")),
    ("sourceSchemaVersion", some (.str m.sourceSchemaVersion)),
    ("locatorSchemaVersion", textValue m.locatorSchemaVersion),
    ("skillCompilerVersion", textValue m.skillCompilerVersion),
    ("sourceArtifactRefs", some (textsValue m.sourceArtifactRefs))])

def StoredObservationMigration.toValue (r : StoredObservationMigration) : JsValue :=
  .obj (present [("result", some r.result.toValue), ("projection", r.projection),
    ("metadata", r.metadata.map PreV1AssetMetadata.toValue)])

/-- A record whose graph is JSON data. -/
structure LedgerRecord extends StoredObservationMigration where
  printed : ∀ graph ∈ projection, Printed graph

/-! ## Keys -/

def skillIdentityKeyParts (identity : ObservationMigrationLookupIdentity) : List String :=
  if identity.skillSourceHash = none ∧ identity.skillVersion = none ∧
      identity.skillAssetHash = none then []
  else ["skill", identity.skillSourceHash.getD "", (identity.skillVersion.map toString).getD "",
    identity.skillAssetHash.getD ""]

/-- The digest of the parts with a NUL between them. -/
def ledgerKey (P : Platform) (assetId sourceHash : String) (migratorVersion : Option String)
    (parts : List String) : String :=
  P.sha256 ("\x00".intercalate ([assetId, sourceHash] ++ migratorVersion.toList ++ parts))

def StoredObservationMigration.key (P : Platform) (r : StoredObservationMigration) : String :=
  ledgerKey P r.result.assetId r.result.sourceHash (some r.result.migratorVersion)
    (skillIdentityKeyParts r.result.toObservationMigrationLookupIdentity)

/-- A property of a value; `undefined` and `null` have none, which raises a `TypeError`. -/
def property (key : String) : JsValue → Option JsValue
  | .undefined | .null => none
  | .obj fields => some (field key fields)
  | _ => some .undefined

/-- What `update` takes; it raises a `TypeError` for anything but a text. -/
def hashed : JsValue → Option String
  | .str text => some text
  | _ => none

/-- `value ?? ""`, hashed. -/
def hashedOrEmpty : JsValue → Option String
  | .undefined | .null => some ""
  | v => hashed v

mutual
/-- `String(value)`. -/
def jsText : JsValue → String
  | .undefined => "undefined"
  | .null => "null"
  | .bool b => toString b
  | .int n => toString n
  | .real text => text
  | .str s => s
  | .arr items => ",".intercalate (jsTexts items)
  | .obj _ => "[object Object]"

def jsTexts : List JsValue → List String
  | [] => []
  | .undefined :: items | .null :: items => "" :: jsTexts items
  | item :: items => jsText item :: jsTexts items
end

/-- The parts of the key that a parsed result gives. -/
def parsedKeyParts (sourceHash version assetHash : JsValue) : Option (List String) :=
  if sourceHash = .undefined ∧ version = .undefined ∧ assetHash = .undefined then some []
  else do
    let source ← hashedOrEmpty sourceHash
    let asset ← hashedOrEmpty assetHash
    some ["skill", source, if version = .undefined then "" else jsText version, asset]

/-- `recordKey` of a parsed line, which is taken for a record without a check. -/
def recordKey (P : Platform) (record : JsValue) : Option String := do
  let result ← property "result" record
  let assetId ← (property "assetId" result).bind hashed
  let sourceHash ← (property "sourceHash" result).bind hashed
  let version ← property "migratorVersion" result
  let migratorVersion ← if version = .undefined then some none else (hashed version).map some
  let parts ← parsedKeyParts ((property "skillSourceHash" result).getD .undefined)
    ((property "skillVersion" result).getD .undefined)
    ((property "skillAssetHash" result).getD .undefined)
  some (ledgerKey P assetId sourceHash migratorVersion parts)

/-! ## The file -/

/-- The text of the ledger; at first there is no file. Half of a character at its end is read as
the replacement character. -/
abbrev LedgerFile := Option (List Char)

/-- The records by their keys, in the order of their first lines. -/
abbrev LedgerCache := List (String × JsValue)

def LedgerCache.set (cache : LedgerCache) (key : String) (record : JsValue) : LedgerCache :=
  if cache.any fun e => e.1 = key then
    cache.map fun e => if e.1 = key then (key, record) else e
  else cache ++ [(key, record)]

def LedgerCache.get (cache : LedgerCache) (key : String) : Option JsValue :=
  (cache.find? fun e => e.1 = key).map Prod.snd

/-- What a line is parsed to. An empty line and a torn one are skipped. -/
def readLine (line : List Char) : Option JsValue :=
  if Mission.trimChars line = [] then none else parseJson (Mission.trimChars line)

/-- The loop over the lines; it ends with an error at a line that has no key. -/
def loadLines (P : Platform) : LedgerCache → List (List Char) → Option LedgerCache
  | cache, [] => some cache
  | cache, line :: lines =>
    match readLine line with
    | none => loadLines P cache lines
    | some record => do
      let key ← recordKey P record
      loadLines P (cache.set key record) lines

def reload (P : Platform) : LedgerFile → Option LedgerCache
  | none => some []
  | some raw => loadLines P [] (raw.splitOn '\n')

/-- `find`, which may end with the error of `reload`. -/
def find (P : Platform) (file : LedgerFile) (assetId sourceHash : String)
    (migratorVersion : Option String) (identity : ObservationMigrationLookupIdentity) :
    Option (Option JsValue) :=
  (reload P file).map fun cache =>
    cache.get (ledgerKey P assetId sourceHash migratorVersion (skillIdentityKeyParts identity))

def list (P : Platform) (file : LedgerFile) : Option (List JsValue) :=
  (reload P file).map fun cache => cache.map Prod.snd

def ledgerLine (record : StoredObservationMigration) : List Char := textOf record.toValue ++ ['\n']

/-- What of the line of a record is to be written: nothing when its key is recorded. -/
def lineFor (P : Platform) (file : LedgerFile) (record : StoredObservationMigration) :
    Option (List Char) :=
  (reload P file).map fun cache =>
    if (cache.get (record.key P)).isSome then [] else ledgerLine record

/-- `appendFile`, which creates the file when there is none. -/
def LedgerFile.write (file : LedgerFile) (text : List Char) : LedgerFile :=
  if text = [] then file else some (file.getD [] ++ text)

/-- `append`, which may end with the error of `reload`. -/
def append (P : Platform) (file : LedgerFile) (record : StoredObservationMigration) :
    Option LedgerFile :=
  (lineFor P file record).map file.write

/-- What is read of the first bytes of a text: `torn` when the cut is inside of a character. -/
def cutText (text : List Char) (cut : ℕ) (torn : Bool) : List Char :=
  text.take cut ++ match text.drop cut with
    | c :: _ => if torn ∧ 0x80 ≤ c.toNat then [Char.ofNat 0xFFFD] else []
    | [] => []

inductive LedgerEvent where
  | append (record : LedgerRecord)
  /-- An append that crashes when it has written a beginning of its line. -/
  | crash (record : LedgerRecord) (cut : ℕ) (torn : Bool)

def LedgerEvent.record : LedgerEvent → LedgerRecord
  | append record => record
  | crash record _ _ => record

def ledgerStep (P : Platform) (file : LedgerFile) : LedgerEvent → LedgerFile
  | .append record => (append P file record.toStoredObservationMigration).getD file
  | .crash record cut torn =>
    match lineFor P file record.toStoredObservationMigration with
    | some line => file.write (cutText line cut torn)
    | none => file

/-- The file after a history of appends. -/
def ledgerAfter (P : Platform) (events : List LedgerEvent) : LedgerFile :=
  events.foldl (ledgerStep P) none

/-- The file has no last line without an end. -/
def Terminated (file : LedgerFile) : Prop :=
  ∀ raw ∈ file, raw = [] ∨ raw.getLast? = some '\n'

end Qualigence.Migration
