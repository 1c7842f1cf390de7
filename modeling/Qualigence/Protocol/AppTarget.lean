import Qualigence.Protocol.Value

/-! # Desktop application targets

The desktop target of a job and its validation. Every violation is reported with a stable
code and the path of the offending field.
-/

namespace Qualigence.Protocol

structure AppTargetLaunch where
  executable : String
  args : List String
  workingDirectory : Option String
  deriving DecidableEq

structure AppTargetProcess where
  expectedImageName : String
  allowedChildImageNames : List String
  deriving DecidableEq

structure AppTargetWindow where
  titlePattern : Option String
  automationId : Option String
  deriving DecidableEq

structure AppTargetReset where
  command : String
  args : List String
  timeoutMs : ℕ
  deriving DecidableEq

structure AppTargetShutdown where
  gracefulTimeoutMs : ℕ
  forceAfterTimeout : Bool
  deriving DecidableEq

/-- A desktop application with its launch, reset and shutdown; the platform is always
`windows`. -/
structure AppTarget where
  targetId : String
  launch : AppTargetLaunch
  process : AppTargetProcess
  window : AppTargetWindow
  reset : AppTargetReset
  shutdown : AppTargetShutdown
  deriving DecidableEq

inductive AppTargetErrorCode where
  | invalidAppTargetShape
  | invalidPlatform
  | invalidTargetId
  | invalidLaunchConfiguration
  | invalidProcessConfiguration
  | invalidWindowConfiguration
  | invalidResetConfiguration
  | invalidShutdownConfiguration
  deriving DecidableEq

structure AppTargetError where
  code : AppTargetErrorCode
  message : String
  deriving DecidableEq

namespace AppTarget

def maxTargetIdLength : ℕ := 200
def maxExecutableLength : ℕ := 4096
def maxWorkingDirectoryLength : ℕ := 4096
def maxArgLength : ℕ := 8192
def maxArgs : ℕ := 128
def maxImageNameLength : ℕ := 260
def maxAllowedChildImages : ℕ := 64
def maxTitlePatternLength : ℕ := 512
def maxAutomationIdLength : ℕ := 512
def minTimeoutMs : ℕ := 0
def maxTimeoutMs : ℕ := 600000

abbrev Check (α : Type) := Except AppTargetError α

/-- Refuse a candidate. -/
def invalid {α : Type} (code : AppTargetErrorCode) (message : String) : Check α :=
  .error ⟨code, message⟩

/-- The properties of an object; arrays and `null` are none. -/
def requireRecord (value : JsValue) (code : AppTargetErrorCode) (message : String) :
    Check (List (String × JsValue)) :=
  match value with
  | .obj fields => .ok fields
  | _ => invalid code message

def requireString (value : JsValue) (code : AppTargetErrorCode) (field : String)
    (maxLength : ℕ) : Check String :=
  match value with
  | .str s =>
    if jsLength s = 0 then invalid code (field ++ " must be a non-empty string")
    else if jsLength s > maxLength then
      invalid code (field ++ " exceeds " ++ toString maxLength ++ " characters")
    else .ok s
  | _ => invalid code (field ++ " must be a non-empty string")

/-- A string that may be absent. -/
def optionalString (value : JsValue) (code : AppTargetErrorCode) (field : String)
    (maxLength : ℕ) : Check (Option String) :=
  match value with
  | .undefined => .ok none
  | v => some <$> requireString v code field maxLength

def isShellMetacharacter (c : Char) : Bool :=
  isJsSpace c || "\"'`;&|<>$()\x7b\x7d*?!~".toList.contains c

def containsDots : List Char → Bool
  | '.' :: '.' :: _ => true
  | _ :: cs => containsDots cs
  | [] => false

def isCanonicalAbsolutePath (candidate : String) : Bool :=
  !candidate.toList.any isShellMetacharacter && !containsDots candidate.toList &&
    match candidate.toList with
    | '\\' :: '\\' :: _ => true
    | d :: ':' :: sep :: _ => d.isAlpha && (sep == '\\' || sep == '/')
    | _ => false

/-- A bare executable path; also for `reset.command`, under the same name and code. -/
def requireCanonicalExecutable (value : JsValue) : Check String := do
  let executable ← requireString value .invalidLaunchConfiguration "launch.executable"
    maxExecutableLength
  if isCanonicalAbsolutePath executable then .ok executable
  else
    invalid .invalidLaunchConfiguration
      "launch.executable must be a canonical absolute path with no shell metacharacters"

def requireArg (code : AppTargetErrorCode) (field : String) (entry : JsValue × ℕ) :
    Check String :=
  match entry.1 with
  | .str s =>
    if jsLength s > maxArgLength then
      invalid code (field ++ "[" ++ toString entry.2 ++ "] exceeds " ++ toString maxArgLength ++
        " characters")
    else .ok s
  | _ => invalid code (field ++ "[" ++ toString entry.2 ++ "] must be a string")

def requireArgs (value : JsValue) (code : AppTargetErrorCode) (field : String) :
    Check (List String) :=
  match value with
  | .arr items =>
    if items.length > maxArgs then
      invalid code (field ++ " exceeds " ++ toString maxArgs ++ " entries")
    else items.zipIdx.mapM (requireArg code field)
  | _ => invalid code (field ++ " must be an array")

def requireImageName (value : JsValue) (field : String) : Check String := do
  let name ← requireString value .invalidProcessConfiguration field maxImageNameLength
  if name.toList.any fun c => "/\\*?".toList.contains c then
    invalid .invalidProcessConfiguration
      (field ++ " must be a bare image name without path separators or wildcards")
  else .ok name

def requireTimeoutMs (value : JsValue) (code : AppTargetErrorCode) (field : String) : Check ℕ :=
  match value with
  | .int n =>
    if n < minTimeoutMs ∨ n > maxTimeoutMs then
      invalid code (field ++ " must be between " ++ toString minTimeoutMs ++ " and " ++
        toString maxTimeoutMs ++ " ms")
    else .ok n.toNat
  | _ => invalid code (field ++ " must be an integer number of milliseconds")

def validateLaunch (value : JsValue) : Check AppTargetLaunch := do
  let launchRaw ← requireRecord value .invalidLaunchConfiguration
    "launch must be an object with executable + args"
  if launchRaw.any fun f => f.1 == "command" then
    invalid .invalidLaunchConfiguration
      "launch.command (shell string) is not permitted; use executable + args array"
  else
    let executable ← requireCanonicalExecutable (JsValue.field "executable" launchRaw)
    let args ← requireArgs (JsValue.field "args" launchRaw) .invalidLaunchConfiguration
      "launch.args"
    let workingDirectory ← optionalString (JsValue.field "workingDirectory" launchRaw)
      .invalidLaunchConfiguration "launch.workingDirectory" maxWorkingDirectoryLength
    if workingDirectory.all isCanonicalAbsolutePath then
      .ok ⟨executable, args, workingDirectory⟩
    else
      invalid .invalidLaunchConfiguration
        "launch.workingDirectory must be a canonical absolute path"

def validateProcess (value : JsValue) : Check AppTargetProcess := do
  let processRaw ← requireRecord value .invalidProcessConfiguration "process must be an object"
  let expectedImageName ← requireImageName (JsValue.field "expectedImageName" processRaw)
    "process.expectedImageName"
  match JsValue.field "allowedChildImageNames" processRaw with
  | .arr items =>
    if items.length > maxAllowedChildImages then
      invalid .invalidProcessConfiguration ("process.allowedChildImageNames exceeds " ++
        toString maxAllowedChildImages ++ " entries")
    else
      let allowedChildImageNames ← items.zipIdx.mapM fun entry =>
        requireImageName entry.1
          ("process.allowedChildImageNames[" ++ toString entry.2 ++ "]")
      .ok ⟨expectedImageName, allowedChildImageNames⟩
  | _ => invalid .invalidProcessConfiguration "process.allowedChildImageNames must be an array"

def validateWindow (value : JsValue) : Check AppTargetWindow := do
  let windowRaw ← requireRecord value .invalidWindowConfiguration "window must be an object"
  let titlePattern ← optionalString (JsValue.field "titlePattern" windowRaw)
    .invalidWindowConfiguration "window.titlePattern" maxTitlePatternLength
  let automationId ← optionalString (JsValue.field "automationId" windowRaw)
    .invalidWindowConfiguration "window.automationId" maxAutomationIdLength
  .ok ⟨titlePattern, automationId⟩

def validateReset (value : JsValue) : Check AppTargetReset := do
  let resetRaw ← requireRecord value .invalidResetConfiguration "reset must be an object"
  let command ← requireCanonicalExecutable (JsValue.field "command" resetRaw)
  let args ← requireArgs (JsValue.field "args" resetRaw) .invalidResetConfiguration "reset.args"
  match JsValue.field "timeoutMs" resetRaw with
  | .undefined => invalid .invalidResetConfiguration "reset.timeoutMs is required"
  | timeout =>
    let timeoutMs ← requireTimeoutMs timeout .invalidResetConfiguration "reset.timeoutMs"
    .ok ⟨command, args, timeoutMs⟩

def validateShutdown (value : JsValue) : Check AppTargetShutdown := do
  let shutdownRaw ← requireRecord value .invalidShutdownConfiguration
    "shutdown must be an object"
  let gracefulTimeoutMs ← requireTimeoutMs (JsValue.field "gracefulTimeoutMs" shutdownRaw)
    .invalidShutdownConfiguration "shutdown.gracefulTimeoutMs"
  match JsValue.field "forceAfterTimeout" shutdownRaw with
  | .bool b => .ok ⟨gracefulTimeoutMs, b⟩
  | _ => invalid .invalidShutdownConfiguration "shutdown.forceAfterTimeout must be a boolean"

/-- Validate an untrusted candidate. -/
def validateAppTarget (candidate : JsValue) : Check AppTarget := do
  let raw ← requireRecord candidate .invalidAppTargetShape "AppTarget must be an object"
  let targetId ← requireString (JsValue.field "targetId" raw) .invalidTargetId "targetId"
    maxTargetIdLength
  match JsValue.field "platform" raw with
  | .str "windows" =>
    let launch ← validateLaunch (JsValue.field "launch" raw)
    let process ← validateProcess (JsValue.field "process" raw)
    let window ← validateWindow (JsValue.field "window" raw)
    let reset ← validateReset (JsValue.field "reset" raw)
    let shutdown ← validateShutdown (JsValue.field "shutdown" raw)
    .ok ⟨targetId, launch, process, window, reset, shutdown⟩
  | _ => invalid .invalidPlatform "platform must be \"windows\""

def strings (items : List String) : JsValue := .arr (items.map .str)

/-- The object a target is written as. -/
def toValue (t : AppTarget) : JsValue :=
  .obj [("targetId", .str t.targetId), ("platform", .str "windows"),
    ("launch", .obj ([("executable", .str t.launch.executable),
      ("args", strings t.launch.args)] ++
      JsValue.optional "workingDirectory" (t.launch.workingDirectory.map .str))),
    ("process", .obj [("expectedImageName", .str t.process.expectedImageName),
      ("allowedChildImageNames", strings t.process.allowedChildImageNames)]),
    ("window", .obj (JsValue.optional "titlePattern" (t.window.titlePattern.map .str) ++
      JsValue.optional "automationId" (t.window.automationId.map .str))),
    ("reset", .obj [("command", .str t.reset.command), ("args", strings t.reset.args),
      ("timeoutMs", .int t.reset.timeoutMs)]),
    ("shutdown", .obj [("gracefulTimeoutMs", .int t.shutdown.gracefulTimeoutMs),
      ("forceAfterTimeout", .bool t.shutdown.forceAfterTimeout)])]

end AppTarget

end Qualigence.Protocol
