import Qualigence.Foundation.Pattern
import Qualigence.Protocol.Job
import Qualigence.Protocol.Json

/-! # Test plans

A proposal of the planner is parsed, checked against the document it cites and turned into
a draft with allocated identities; a draft is approved once. The checks reject proposals
without provenance, with contradictory claims and with selectors in their semantic texts.
-/

namespace Qualigence.Mission

open Foundation Protocol

/-- What planning uses of its environment beside the digests and URLs: `toLowerCase`, and
the text of the URL that a text is parsed to. -/
structure PlanningPlatform extends Platform where
  toLowerCase : String → String
  href : String → String

/-! ## Documents -/

structure PrdDocument where
  prdId : String
  projectId : String
  revision : Int
  title : String
  content : String
  contentSha256 : String
  deriving DecidableEq

structure PrdSourceRef where
  prdId : String
  revision : Int
  startOffset : Int
  endOffset : Int
  quotedTextSha256 : String
  deriving DecidableEq

def replacementChar : Char := Char.ofNat 0xFFFD

/-- The characters of UTF-16 code units, after a first half of a pair that waits for its
second half; a half without the other half becomes the replacement character. -/
def charsOfUtf16 : Option ℕ → List ℕ → List Char
  | none, [] => []
  | some _, [] => [replacementChar]
  | high, unit :: units =>
    if 0xDC00 ≤ unit ∧ unit < 0xE000 then
      (match high with
        | some high => Char.ofNat (0x10000 + (high - 0xD800) * 0x400 + (unit - 0xDC00))
        | none => replacementChar) :: charsOfUtf16 none units
    else
      let lone := if high.isSome then [replacementChar] else []
      if 0xD800 ≤ unit ∧ unit < 0xDC00 then lone ++ charsOfUtf16 (some unit) units
      else lone ++ Char.ofNat unit :: charsOfUtf16 none units

/-- The digest of `text.slice(start, end)`. -/
def sliceHash (P : Platform) (text : String) (start stop : ℕ) : String :=
  P.sha256Hex (utf8Encode (charsOfUtf16 none (((utf16 text).take stop).drop start)))

def verifySourceRef (P : Platform) (document : PrdDocument) (ref : PrdSourceRef) : Bool :=
  ref.prdId = document.prdId ∧ ref.revision = document.revision ∧ 0 ≤ ref.startOffset ∧
    ref.startOffset ≤ ref.endOffset ∧ ref.endOffset ≤ jsLength document.content ∧
    sliceHash P document.content ref.startOffset.toNat ref.endOffset.toNat =
      ref.quotedTextSha256

/-! ## Proposals -/

structure SemanticTarget where
  purpose : String
  role : Option String
  name : Option String
  deriving DecidableEq

inductive Priority where
  | low
  | medium
  | high
  deriving DecidableEq

/-- A claim before it has an identity; its confidence is a number. -/
structure ProposedExpectedClaim where
  semanticKey : String
  statement : String
  sourceRefs : NonEmptyList PrdSourceRef
  confidence : JsValue
  deriving DecidableEq

inductive ProposedIntentStep where
  | navigate (path : String)
  | click (target : SemanticTarget)
  | input (target : SemanticTarget) (valueRef : String)
  | verify (claimSemanticKeys : NonEmptyList String)
  deriving DecidableEq

structure ProposedTestCase where
  title : String
  objective : String
  preconditions : List String
  steps : NonEmptyList ProposedIntentStep
  expectedClaimSemanticKeys : NonEmptyList String
  sourceRefs : NonEmptyList PrdSourceRef
  priority : Priority
  deriving DecidableEq

structure TestPlanProposal where
  expectedClaims : List ProposedExpectedClaim
  testCases : List ProposedTestCase
  deriving DecidableEq

/-! ## Errors -/

inductive TestPlanServiceErrorCode where
  | invalidPlanningProposal
  | prdSourceMismatch
  | selectorLeakRejected
  | prdIdempotencyConflict
  | planNotFound
  | planProjectMismatch
  deriving DecidableEq

inductive PlanningValidationReason where
  | emptyProposal
  | missingProvenance
  | sourceRefOutOfBounds
  | duplicateSemanticKey
  | confidenceOutOfRange
  | emptySteps
  | unknownAction
  | unknownClaimReference
  | contradictoryAssertions
  | selectorLeak
  deriving DecidableEq

structure PlanningValidationError where
  code : TestPlanServiceErrorCode
  reason : PlanningValidationReason
  message : String
  deriving DecidableEq

/-- What the plan service raises: its own error, an error of a draft that has no claim for a
key, or an error of its store. -/
inductive PlanError where
  | service (code : TestPlanServiceErrorCode) (message : String)
  | compile (message : String)
  | planVersionConflict (currentVersion : ℕ)
  | planAlreadyApproved (currentVersion : ℕ)
  | idempotencyConflict (currentVersion : ℕ)
  | constraintViolation (table : String)
  deriving DecidableEq

abbrev Planning (α : Type) := Except PlanError α

def invalidProposal {α : Type} (message : String) : Planning α :=
  .error (.service .invalidPlanningProposal message)

/-! ## Parsing proposals -/

def nonEmpty {α : Type} (values : List α) (field : String) : Planning (NonEmptyList α) :=
  match values with
  | [] => invalidProposal (field ++ " must not be empty")
  | first :: rest => .ok ⟨first, rest⟩

def nonEmptyStrings (values : List String) : Planning (NonEmptyList String) :=
  nonEmpty values "claim references"

def record : JsValue → Option (List (String × JsValue))
  | .obj fields => some fields
  | _ => none

/-- A list of texts. -/
def textArray : JsValue → Option (List String)
  | .arr items => items.mapM fun item =>
    match item with
    | .str s => some s
    | _ => none
  | _ => none

def parseSourceRef (value : JsValue) : Planning PrdSourceRef :=
  match value with
  | .obj ref =>
    match JsValue.field "prdId" ref, JsValue.field "revision" ref,
        JsValue.field "startOffset" ref, JsValue.field "endOffset" ref,
        JsValue.field "quotedTextSha256" ref with
    | .str prdId, .int revision, .int startOffset, .int endOffset, .str quotedTextSha256 =>
      .ok { prdId, revision, startOffset, endOffset, quotedTextSha256 }
    | _, _, _, _, _ => invalidProposal "source reference shape is invalid"
  | _ => invalidProposal "source reference shape is invalid"

/-- A text that may be absent. -/
def optionalText : JsValue → Option (Option String)
  | .undefined => some none
  | .str s => some (some s)
  | _ => none

def parseTarget (target : List (String × JsValue)) : Planning SemanticTarget :=
  match JsValue.field "purpose" target, optionalText (JsValue.field "role" target),
      optionalText (JsValue.field "name" target) with
  | .str purpose, some role, some name => .ok { purpose, role, name }
  | _, _, _ => invalidProposal "semantic target shape is invalid"

def isReferenceChar (c : Char) : Bool := c.isAlphanum || c ∈ ['.', '_', '/', '-']

/-- A letter or digit, then letters, digits and marks, of which a mark is not the last. -/
def opaqueReference : Pattern :=
  .all [.start, .char Char.isAlphanum, .many (.char isReferenceChar),
    .char fun c => c ∈ ['.', '_', '/', '-'], .some1 (.char isReferenceChar), .stop]

def parseStep (value : JsValue) : Planning ProposedIntentStep :=
  match value with
  | .obj step =>
    match JsValue.field "kind" step with
    | .str kind =>
      match kind, JsValue.field "path" step, JsValue.field "target" step,
          textArray (JsValue.field "claimSemanticKeys" step) with
      | "navigate", .str path, _, _ => .ok (.navigate path)
      | "click", _, .obj target, _ => .click <$> parseTarget target
      | "input", _, .obj target, _ => do
        let target ← parseTarget target
        match JsValue.field "valueRef" step with
        | .str valueRef =>
          if opaqueReference.test valueRef then .ok (.input target valueRef)
          else invalidProposal "input valueRef must be an opaque reference, not plaintext"
        | _ => invalidProposal "input valueRef must be an opaque reference, not plaintext"
      | "verify", _, _, some keys => .verify <$> nonEmptyStrings keys
      | _, _, _, _ => invalidProposal "unknown or malformed step"
    | _ => invalidProposal "step shape is invalid"
  | _ => invalidProposal "step shape is invalid"

def isNumber : JsValue → Bool
  | .int _ | .real _ => true
  | _ => false

def parseClaim (value : JsValue) : Planning ProposedExpectedClaim :=
  match value with
  | .obj claim =>
    match JsValue.field "semanticKey" claim, JsValue.field "statement" claim,
        JsValue.field "sourceRefs" claim with
    | .str semanticKey, .str statement, .arr refs =>
      if isNumber (JsValue.field "confidence" claim) then do
        let sourceRefs ← nonEmpty (← refs.mapM parseSourceRef) "sourceRefs"
        .ok { semanticKey, statement, sourceRefs, confidence := JsValue.field "confidence" claim }
      else invalidProposal "claim shape is invalid"
    | _, _, _ => invalidProposal "claim shape is invalid"
  | _ => invalidProposal "claim shape is invalid"

def parsePriority : JsValue → Option Priority
  | .str "low" => some .low
  | .str "medium" => some .medium
  | .str "high" => some .high
  | _ => none

def parseTestCase (value : JsValue) : Planning ProposedTestCase :=
  match value with
  | .obj testCase =>
    match JsValue.field "title" testCase, JsValue.field "objective" testCase,
        textArray (JsValue.field "preconditions" testCase), JsValue.field "steps" testCase,
        textArray (JsValue.field "expectedClaimSemanticKeys" testCase),
        JsValue.field "sourceRefs" testCase, parsePriority (JsValue.field "priority" testCase) with
    | .str title, .str objective, some preconditions, .arr steps, some keys, .arr refs,
        some priority => do
      let steps ← nonEmpty (← steps.mapM parseStep) "steps"
      let expectedClaimSemanticKeys ← nonEmptyStrings keys
      let sourceRefs ← nonEmpty (← refs.mapM parseSourceRef) "sourceRefs"
      .ok { title, objective, preconditions, steps, expectedClaimSemanticKeys, sourceRefs,
            priority }
    | _, _, _, _, _, _, _ => invalidProposal "test case shape is invalid"
  | _ => invalidProposal "test case shape is invalid"

def parseProposal (value : JsValue) : Planning TestPlanProposal :=
  match value with
  | .obj proposal =>
    match JsValue.field "expectedClaims" proposal, JsValue.field "testCases" proposal with
    | .arr claims, .arr cases => do
      let expectedClaims ← claims.mapM parseClaim
      let testCases ← cases.mapM parseTestCase
      .ok { expectedClaims, testCases }
    | _, _ => invalidProposal "proposal claims and test cases are required"
  | _ => invalidProposal "proposal claims and test cases are required"

/-! ## Semantic texts -/

section Leaks

open Pattern

def space : Pattern := char isJsSpace
def spaces : Pattern := many space
def digit : Pattern := char Char.isDigit
def minus : Pattern := optional (literal "-")

/-- `css\s*=`, in either case. -/
def cssSelector : Pattern := all [literalIgnoreCase "css", spaces, literal "="]

/-- `(xpath\s*=)|((^|[^:])\/\/)`. -/
def xpathExpr : Pattern :=
  alt (all [literal "xpath", spaces, literal "="])
    (seq (alt start (char (· != ':'))) (literal "//"))

/-- A pair of numbers with a comma between them. -/
def numberPair : Pattern :=
  all [optional (literal "("), spaces, minus, some1 digit, spaces, literal ",", spaces, minus,
    some1 digit]

/-- `(\bx\s*=\s*-?\d)|(\by\s*=\s*-?\d)|(@\s*\(?\s*-?\d+\s*,\s*-?\d+)|`
`(\bat\s+\(?\s*-?\d+\s*,\s*-?\d+)`, in either case. -/
def coordinate : Pattern :=
  oneOf [all [boundary, literalIgnoreCase "x", spaces, literal "=", spaces, minus, digit],
    all [boundary, literalIgnoreCase "y", spaces, literal "=", spaces, minus, digit],
    all [literal "@", spaces, numberPair],
    all [boundary, literalIgnoreCase "at", some1 space, numberPair]]

/-- `(javascript:)|(<\s*script)|(\beval\s*\()|(=>)|(\bfunction\s*\()`, in either case. -/
def scriptInjection : Pattern :=
  oneOf [literalIgnoreCase "javascript:", all [literal "<", spaces, literalIgnoreCase "script"],
    all [boundary, literalIgnoreCase "eval", spaces, literal "("], literal "=>",
    all [boundary, literalIgnoreCase "function", spaces, literal "("]]

/-- A character of a user name or password in a URL. -/
def credentialChar : Pattern := char fun c => c != '/' && c != '@' && !isJsSpace c

/-- `:\/\/[^/@\s]+:[^/@\s]+@`. -/
def urlCredentials : Pattern :=
  all [literal "://", some1 credentialChar, literal ":", some1 credentialChar, literal "@"]

def selectorLeakReason (text : String) : Option String :=
  if cssSelector.test text then some "css selector"
  else if xpathExpr.test text then some "xpath expression"
  else if coordinate.test text then some "coordinate"
  else if scriptInjection.test text then some "script"
  else if urlCredentials.test text then some "url credentials"
  else none

end Leaks

abbrev Validation (α : Type) := Except PlanningValidationError α

def fail {α : Type} (code : TestPlanServiceErrorCode) (reason : PlanningValidationReason)
    (message : String) : Validation α :=
  .error ⟨code, reason, message⟩

def fieldLeak (value : String) : Validation Unit :=
  match selectorLeakReason value with
  | some reason => fail .selectorLeakRejected .selectorLeak
    ("Rejected " ++ reason ++ " in a semantic field.")
  | none => .ok ()

def targetStrings (target : SemanticTarget) : List String :=
  target.purpose :: (target.role.toList ++ target.name.toList)

def targetLeak (target : SemanticTarget) : Validation Unit :=
  (targetStrings target).forM fieldLeak

def navigateLeak (path : String) : Validation Unit :=
  if urlCredentials.test path then
    fail .selectorLeakRejected .selectorLeak "Navigation path must not embed url credentials."
  else if path.toList.take 2 = ['/', '/'] ∨ cssSelector.test path ∨ scriptInjection.test path ∨
      coordinate.test path then
    fail .selectorLeakRejected .selectorLeak
      "Navigation path must not contain selectors, scripts or coordinates."
  else .ok ()

/-! ## Keys and statements -/

/-- `text.trim()`. -/
def trimChars (cs : List Char) : List Char :=
  ((cs.dropWhile isJsSpace).reverse.dropWhile isJsSpace).reverse

/-- Every run of spaces becomes one dash; `inRun` says whether the character before is one. -/
def dashSpaces : (inRun : Bool) → List Char → List Char
  | _, [] => []
  | inRun, c :: cs =>
    if isJsSpace c then (if inRun then [] else ['-']) ++ dashSpaces true cs
    else c :: dashSpaces false cs

/-- The words of a text between spaces. -/
def splitSpaces : List Char → List Char → List (List Char)
  | [], word => [word.reverse]
  | c :: cs, word =>
    if isJsSpace c then word.reverse :: splitSpaces cs [] else splitSpaces cs (c :: word)

section Validator

variable (P : PlanningPlatform)

def normalizeSemanticKey (key : String) : String :=
  String.ofList (dashSpaces false
    (P.toLowerCase (String.ofList (trimChars key.toList))).toList)

def negationTokens : List String := ["not", "no", "never", "cannot", "without"]

/-- A statement without its negations, and whether it has one. -/
def statementTokens (statement : String) : String × Bool :=
  let chars := (P.toLowerCase (String.ofList (trimChars statement.toList))).toList
  let words := ((splitSpaces (chars.map fun c =>
    if c ∈ ['.', ',', ';', ':', '!', '?'] then ' ' else c) []).filter (· ≠ [])).map String.ofList
  (" ".intercalate (words.filter fun word => !negationTokens.contains word),
    words.any fun word => negationTokens.contains word)

/-- A number in [0, 1]. A number that is no integer is in the range when its shortest text has
no sign and either starts with a zero or has a negative exponent. -/
def inUnitRange : JsValue → Bool
  | .int n => 0 ≤ n ∧ n ≤ 1
  | .real text => text.toList.head? ≠ some '-' ∧
    (text.toList.take 2 = ['0', '.'] ∨ (Pattern.literal "e-").test text)
  | _ => false

def validateSourceRefs (document : PrdDocument) (sourceRefs : NonEmptyList PrdSourceRef) :
    Validation Unit :=
  if sourceRefs.toList.all (verifySourceRef P.toPlatform document) then .ok ()
  else fail .prdSourceMismatch .sourceRefOutOfBounds
    "Source reference does not match the PRD offsets or hash."

def validateClaim (document : PrdDocument) (seenKeys : List String)
    (claim : ProposedExpectedClaim) : Validation ProposedExpectedClaim :=
  if claim.semanticKey = "" ∨ claim.statement = "" then
    fail .invalidPlanningProposal .missingProvenance
      "Every claim requires a semantic key and statement."
  else
    let key := normalizeSemanticKey P claim.semanticKey
    if key ∈ seenKeys then
      fail .invalidPlanningProposal .duplicateSemanticKey
        ("Duplicate claim semantic key \"" ++ key ++ "\".")
    else if ¬ inUnitRange claim.confidence then
      fail .invalidPlanningProposal .confidenceOutOfRange
        ("Claim \"" ++ key ++ "\" confidence must be within [0, 1].")
    else do
      validateSourceRefs P document claim.sourceRefs
      .ok { claim with semanticKey := key }

/-- The claims one after another, with the keys of those before. -/
def validateClaims (document : PrdDocument) :
    List String → List ProposedExpectedClaim → Validation (List ProposedExpectedClaim)
  | _, [] => .ok []
  | seenKeys, claim :: claims => do
    let validated ← validateClaim P document seenKeys claim
    let rest ← validateClaims document (validated.semanticKey :: seenKeys) claims
    .ok (validated :: rest)

/-- Two statements that differ only in a negation. -/
def contradicts (a b : ProposedExpectedClaim) : Bool :=
  let x := statementTokens P a.statement
  let y := statementTokens P b.statement
  x.1 ≠ "" ∧ x.1 = y.1 ∧ x.2 ≠ y.2

def detectContradiction : List ProposedExpectedClaim → Validation Unit
  | [] => .ok ()
  | a :: claims =>
    match claims.find? (contradicts P a) with
    | some b => fail .invalidPlanningProposal .contradictoryAssertions
      ("Claims \"" ++ a.semanticKey ++ "\" and \"" ++ b.semanticKey ++
        "\" assert contradictory statements.")
    | none => detectContradiction claims

/-- The normalized form of a key that some claim has. -/
def knownKey (claimKeys : List String) (message : String → String) (rawKey : String) :
    Validation String :=
  let key := normalizeSemanticKey P rawKey
  if key ∈ claimKeys then .ok key
  else fail .invalidPlanningProposal .unknownClaimReference (message key)

def knownKeys (claimKeys : List String) (message : String → String)
    (rawKeys : NonEmptyList String) : Validation (NonEmptyList String) := do
  let first ← knownKey P claimKeys message rawKeys.first
  let rest ← rawKeys.rest.mapM (knownKey P claimKeys message)
  .ok ⟨first, rest⟩

def validateStep (claimKeys : List String) (step : ProposedIntentStep) :
    Validation ProposedIntentStep :=
  match step with
  | .navigate path => do
    navigateLeak path
    .ok (.navigate path)
  | .click target => do
    targetLeak target
    .ok (.click target)
  | .input target valueRef => do
    targetLeak target
    fieldLeak valueRef
    .ok (.input target valueRef)
  | .verify rawKeys => do
    let keys ← knownKeys P claimKeys
      (fun key => "Verify step references unknown claim \"" ++ key ++ "\".") rawKeys
    .ok (.verify keys)

def validateTestCase (document : PrdDocument) (claimKeys : List String)
    (testCase : ProposedTestCase) : Validation ProposedTestCase := do
  validateSourceRefs P document testCase.sourceRefs
  let keys ← knownKeys P claimKeys (fun key => "Test case \"" ++ testCase.title ++
    "\" references unknown claim \"" ++ key ++ "\".") testCase.expectedClaimSemanticKeys
  let first ← validateStep P claimKeys testCase.steps.first
  let rest ← testCase.steps.rest.mapM (validateStep P claimKeys)
  .ok { testCase with steps := ⟨first, rest⟩, expectedClaimSemanticKeys := keys }

/-- The deterministic validator. -/
def validate (document : PrdDocument) (proposal : TestPlanProposal) :
    Validation TestPlanProposal :=
  if proposal.expectedClaims = [] ∨ proposal.testCases = [] then
    fail .invalidPlanningProposal .emptyProposal
      "A proposal must contain at least one expected claim and test case."
  else do
    let expectedClaims ← validateClaims P document [] proposal.expectedClaims
    detectContradiction P expectedClaims
    let testCases ← proposal.testCases.mapM
      (validateTestCase P document (expectedClaims.map (·.semanticKey)))
    .ok { expectedClaims, testCases }

end Validator

/-! ## Revisions -/

structure ExpectedClaim where
  claimId : String
  semanticKey : String
  statement : String
  sourceRefs : NonEmptyList PrdSourceRef
  confidence : JsValue
  deriving DecidableEq

inductive IntentStep where
  | navigate (path : String)
  | click (target : SemanticTarget)
  | input (target : SemanticTarget) (valueRef : String)
  | verify (claimIds : NonEmptyList String)
  deriving DecidableEq

structure TestCase where
  id : String
  title : String
  objective : String
  preconditions : List String
  steps : NonEmptyList IntentStep
  expectedClaims : NonEmptyList ExpectedClaim
  sourceRefs : NonEmptyList PrdSourceRef
  priority : Priority
  deriving DecidableEq

inductive TestPlanStatus where
  | draft
  | approved
  deriving DecidableEq

structure TestPlanApproval where
  reviewerId : String
  approvedAt : Timestamp
  idempotencyKey : String
  deriving DecidableEq

structure TestPlanRevision where
  planId : String
  projectId : String
  prdId : String
  prdRevision : Int
  version : ℕ
  status : TestPlanStatus
  expectedClaims : NonEmptyList ExpectedClaim
  testCases : NonEmptyList TestCase
  approval : Option TestPlanApproval
  deriving DecidableEq

/-! The objects of a revision, in the order of their properties. -/

def PrdSourceRef.toValue (r : PrdSourceRef) : JsValue :=
  .obj [("prdId", .str r.prdId), ("revision", .int r.revision),
    ("startOffset", .int r.startOffset), ("endOffset", .int r.endOffset),
    ("quotedTextSha256", .str r.quotedTextSha256)]

def ExpectedClaim.toValue (c : ExpectedClaim) : JsValue :=
  .obj [("claimId", .str c.claimId), ("semanticKey", .str c.semanticKey),
    ("statement", .str c.statement),
    ("sourceRefs", .arr (c.sourceRefs.toList.map (·.toValue))), ("confidence", c.confidence)]

def SemanticTarget.toValue (t : SemanticTarget) : JsValue :=
  .obj (("purpose", .str t.purpose) :: JsValue.optional "role" (t.role.map .str) ++
    JsValue.optional "name" (t.name.map .str))

def IntentStep.toValue : IntentStep → JsValue
  | .navigate path => .obj [("kind", .str "navigate"), ("path", .str path)]
  | .click target => .obj [("kind", .str "click"), ("target", target.toValue)]
  | .input target valueRef =>
    .obj [("kind", .str "input"), ("target", target.toValue), ("valueRef", .str valueRef)]
  | .verify claimIds =>
    .obj [("kind", .str "verify"), ("claimIds", AppTarget.strings claimIds.toList)]

def Priority.text : Priority → String
  | .low => "low"
  | .medium => "medium"
  | .high => "high"

def TestCase.toValue (t : TestCase) : JsValue :=
  .obj [("id", .str t.id), ("title", .str t.title), ("objective", .str t.objective),
    ("preconditions", AppTarget.strings t.preconditions),
    ("steps", .arr (t.steps.toList.map (·.toValue))),
    ("expectedClaims", .arr (t.expectedClaims.toList.map (·.toValue))),
    ("sourceRefs", .arr (t.sourceRefs.toList.map (·.toValue))),
    ("priority", .str t.priority.text)]

def TestPlanStatus.text : TestPlanStatus → String
  | .draft => "draft"
  | .approved => "approved"

def TestPlanApproval.toValue (a : TestPlanApproval) : JsValue :=
  .obj [("reviewerId", .str a.reviewerId), ("approvedAt", .str a.approvedAt),
    ("idempotencyKey", .str a.idempotencyKey)]

def TestPlanRevision.toValue (p : TestPlanRevision) : JsValue :=
  .obj ([("planId", .str p.planId), ("projectId", .str p.projectId), ("prdId", .str p.prdId),
    ("prdRevision", .int p.prdRevision), ("version", .int p.version),
    ("status", .str p.status.text),
    ("expectedClaims", .arr (p.expectedClaims.toList.map (·.toValue))),
    ("testCases", .arr (p.testCases.toList.map (·.toValue)))] ++
    JsValue.optional "approval" (p.approval.map (·.toValue)))

/-! ## Drafts -/

/-- `hash.slice(0, 32)`. -/
def shortHash (P : Platform) (text : String) : String :=
  String.ofList ((P.sha256 text).toList.take 32)

/-- The identity that the factory of a key gives at its nth call. -/
def deterministicId (P : Platform) (key : String) (index : ℕ) : String :=
  shortHash P ("test-plan\u0000" ++ key ++ "\u0000" ++ toString index)

def toFinalClaim (claim : ProposedExpectedClaim) (claimId : String) : ExpectedClaim where
  claimId := claimId
  semanticKey := claim.semanticKey
  statement := claim.statement
  sourceRefs := claim.sourceRefs
  confidence := claim.confidence

/-- The claim that a key was set to last. -/
def claimOfKey (claims : List ExpectedClaim) (key : String) : Option ExpectedClaim :=
  claims.reverse.find? fun claim => claim.semanticKey = key

def claimIdOfKey (claims : List ExpectedClaim) (key : String) : Planning String :=
  match claimOfKey claims key with
  | some claim => .ok claim.claimId
  | none => .error (.compile ("No claim id allocated for semantic key \"" ++ key ++ "\"."))

def compileStep (claims : List ExpectedClaim) : ProposedIntentStep → Planning IntentStep
  | .navigate path => .ok (.navigate path)
  | .click target => .ok (.click target)
  | .input target valueRef => .ok (.input target valueRef)
  | .verify keys => do
    let first ← claimIdOfKey claims keys.first
    let rest ← keys.rest.mapM (claimIdOfKey claims)
    .ok (.verify ⟨first, rest⟩)

def expectedClaim (claims : List ExpectedClaim) (key : String) : Planning ExpectedClaim :=
  match claimOfKey claims key with
  | some claim => .ok claim
  | none => .error (.compile ("No claim for semantic key \"" ++ key ++ "\"."))

def compileTestCase (claims : List ExpectedClaim) (id : String) (testCase : ProposedTestCase) :
    Planning TestCase := do
  let firstStep ← compileStep claims testCase.steps.first
  let restSteps ← testCase.steps.rest.mapM (compileStep claims)
  let firstClaim ← expectedClaim claims testCase.expectedClaimSemanticKeys.first
  let restClaims ← testCase.expectedClaimSemanticKeys.rest.mapM (expectedClaim claims)
  .ok { id, title := testCase.title, objective := testCase.objective,
        preconditions := testCase.preconditions, steps := ⟨firstStep, restSteps⟩,
        expectedClaims := ⟨firstClaim, restClaims⟩, sourceRefs := testCase.sourceRefs,
        priority := testCase.priority }

/-- The draft of a validated proposal. The factory numbers the claims, then the test cases,
then the plan. -/
def createDraftTestPlan (projectId prdId : String) (prdRevision : Int)
    (proposal : TestPlanProposal) (id : ℕ → String) : Planning TestPlanRevision := do
  let claims := proposal.expectedClaims.zipIdx.map fun entry => toFinalClaim entry.1 (id entry.2)
  let testCases ← (proposal.testCases.zipIdx proposal.expectedClaims.length).mapM fun entry =>
    compileTestCase claims (id entry.2) entry.1
  match claims, testCases with
  | firstClaim :: restClaims, firstTestCase :: restTestCases =>
    .ok { planId := id (proposal.expectedClaims.length + proposal.testCases.length)
          projectId, prdId, prdRevision, version := 1, status := .draft
          expectedClaims := ⟨firstClaim, restClaims⟩
          testCases := ⟨firstTestCase, restTestCases⟩, approval := none }
  | _, _ => invalidProposal "A test plan needs at least one claim and test case."

/-! ## Approval -/

structure ApproveTestPlanInput where
  planId : String
  expectedVersion : ℕ
  reviewerId : String
  idempotencyKey : String
  deriving DecidableEq

inductive ApprovalError where
  | planVersionConflict
  | planAlreadyApproved
  deriving DecidableEq

def approveTestPlan (plan : TestPlanRevision) (command : ApproveTestPlanInput)
    (now : Timestamp) : Except ApprovalError TestPlanRevision :=
  if plan.status = .approved then
    if plan.approval.map (·.idempotencyKey) = some command.idempotencyKey then .ok plan
    else .error .planAlreadyApproved
  else if command.expectedVersion ≠ plan.version then .error .planVersionConflict
  else .ok { plan with
    version := plan.version + 1
    status := .approved
    approval := some ⟨command.reviewerId, now, command.idempotencyKey⟩ }

/-- The key of a claim; an unknown claim has the empty key. -/
def keyOfClaimId (claims : NonEmptyList ExpectedClaim) (claimId : String) : String :=
  ((claims.toList.reverse.find? fun claim => claim.claimId = claimId).map
    (·.semanticKey)).getD ""

def NonEmptyList.map {α β : Type} (f : α → β) (xs : NonEmptyList α) : NonEmptyList β :=
  ⟨f xs.first, xs.rest.map f⟩

def toProposedStep (claims : NonEmptyList ExpectedClaim) : IntentStep → ProposedIntentStep
  | .navigate path => .navigate path
  | .click target => .click target
  | .input target valueRef => .input target valueRef
  | .verify claimIds => .verify (NonEmptyList.map (keyOfClaimId claims) claimIds)

/-- The proposal that a plan is validated as once more. -/
def proposalFromPlan (plan : TestPlanRevision) : TestPlanProposal where
  expectedClaims := plan.expectedClaims.toList.map fun claim =>
    ⟨claim.semanticKey, claim.statement, claim.sourceRefs, claim.confidence⟩
  testCases := plan.testCases.toList.map fun testCase =>
    { title := testCase.title, objective := testCase.objective
      preconditions := testCase.preconditions
      steps := NonEmptyList.map (toProposedStep plan.expectedClaims) testCase.steps
      expectedClaimSemanticKeys :=
        NonEmptyList.map (fun claim => claim.semanticKey) testCase.expectedClaims
      sourceRefs := testCase.sourceRefs, priority := testCase.priority }

end Qualigence.Mission
