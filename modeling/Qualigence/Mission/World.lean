import Mathlib.Algebra.Group.Nat.Defs
import Qualigence.Mission.Store

/-! # Runs of the mission services

The services write to one database, one transaction after another. A start of a mission
takes three turns: it asks for a stored result, loads the mission and schedules it, and
other requests take their turns between them.
-/

namespace Qualigence.Mission

open Foundation Protocol

/-- How far a start has come. -/
inductive StartPhase where
  | unanswered (command : StartMissionCommand)
  | loaded (command : StartMissionCommand) (mission : SchedulingMission)
      (binding : MissionBinding)

structure MissionWorld where
  db : MissionDb
  requests : ℕ → Option StartPhase

def MissionWorld.initial : MissionWorld := ⟨.empty, fun _ => none⟩

inductive MissionEvent where
  | savePrdDocument (document : PrdDocument)
  | createPlan (command : CreateTestPlanCommand)
  | approvePlan (command : ApproveTestPlanInput) (now : Timestamp)
  | createTarget (input : CreateTargetRevisionInput) (idempotencyKey : String)
  | createMission (now : Timestamp) (command : CreateMissionCommand)
  | replay (request : ℕ) (command : StartMissionCommand)
  | load (request : ℕ)
  | schedule (request : ℕ) (scheduledAt : Timestamp) (ids : ℕ → AllocatedIds)
  | markAccepted (attemptId : String) (receipt : MissionDispatchAcceptanceReceipt)
      (expectedVersion : ℕ)
  | markBlocked (attemptId : String) (expectedVersion : ℕ)
  | setMissionStatus (missionId : String) (revision : ℕ) (status : MissionStatus)
  | restart

namespace MissionWorld

variable (P : PlanningPlatform)

def setRequest (w : MissionWorld) (request : ℕ) (phase : Option StartPhase) : MissionWorld :=
  { w with requests := fun i => if i = request then phase else w.requests i }

/-- The first turn of a start. -/
def replay (request : ℕ) (command : StartMissionCommand) (w : MissionWorld) :
    Option (Scheduling ScheduledMission) × MissionWorld :=
  match replayMissionSchedule P.toPlatform command w.db with
  | .error e => (some (.error e), w.setRequest request none)
  | .ok (some result) => (some (.ok result), w.setRequest request none)
  | .ok none => (none, w.setRequest request (some (.unanswered command)))

/-- The second turn, which reads the mission. -/
def load (request : ℕ) (w : MissionWorld) :
    Option (Scheduling ScheduledMission) × MissionWorld :=
  match w.requests request with
  | some (.unanswered command) =>
    match loadMissionForScheduling w.db command.missionId with
    | .error e => (some (.error e), w.setRequest request none)
    | .ok none => (some (conflict .missionNotFound none), w.setRequest request none)
    | .ok (some mission) => match mission.dispatch.binding with
      | none => (some (conflict .missionHashConflict none), w.setRequest request none)
      | some binding => (none, w.setRequest request (some (.loaded command mission binding)))
  | _ => (none, w)

/-- The third turn, one transaction. -/
def schedule (request : ℕ) (scheduledAt : Timestamp) (ids : ℕ → AllocatedIds)
    (w : MissionWorld) : Option (Scheduling ScheduledMission) × MissionWorld :=
  match w.requests request with
  | some (.loaded command mission binding) =>
    let (reply, db) := transact
      (scheduleMission P.toPlatform command mission binding scheduledAt ids) w.db
    (some reply, { (w.setRequest request none) with db := db })
  | _ => (none, w)

/-- Run a transaction whose reply is not looked at. -/
def onDb {ε α : Type} (body : MissionDb → Except ε (α × MissionDb)) (w : MissionWorld) :
    MissionWorld :=
  { w with db := (transact body w.db).2 }

/-- The reply to a start, when the event ends one, and the world after the event. -/
def respond (w : MissionWorld) :
    MissionEvent → Option (Scheduling ScheduledMission) × MissionWorld
  | .savePrdDocument document =>
    (none, { w with db := { w.db with
      documents := (w.db.documents.insert document).getD w.db.documents } })
  | .createPlan command => (none, w.onDb (createPlan P command))
  | .approvePlan command now => (none, w.onDb (approvePlan P command now))
  | .createTarget input key => (none, w.onDb (createTarget P input key))
  | .createMission now command => (none, w.onDb (createMission P now command))
  | .replay request command => replay P request command w
  | .load request => load request w
  | .schedule request scheduledAt ids => schedule P request scheduledAt ids w
  | .markAccepted attemptId receipt version =>
    (none, w.onDb (markDispatchAccepted P.toPlatform attemptId receipt version))
  | .markBlocked attemptId version =>
    (none, w.onDb (markDispatchBlocked P.toPlatform attemptId version))
  | .setMissionStatus missionId revision status =>
    (none, { w with db := Mission.setMissionStatus missionId revision status w.db })
  | .restart => (none, { w with requests := fun _ => none })

def step (w : MissionWorld) (e : MissionEvent) : MissionWorld := (w.respond P e).2

/-- The world after a history of events. -/
def after (events : List MissionEvent) : MissionWorld := events.foldl (step P) initial

end MissionWorld

/-! ## What a transaction leaves -/

section Transact

variable {ε α : Type} {body : MissionDb → Except ε (α × MissionDb)} {db : MissionDb}

/-- A property of databases that a successful body keeps is kept by its transaction. -/
theorem transact_keeps {I : MissionDb → Prop} (h : ∀ a db', body db = .ok (a, db') → I db')
    (hdb : I db) : I (transact body db).2 := by
  unfold transact
  split
  · next a db' hb => exact h a db' hb
  · exact hdb

theorem transact_error {e : ε} (h : (transact body db).1 = .error e) :
    (transact body db).2 = db := by
  unfold transact at *
  split at h
  · cases h
  · rfl

theorem transact_ok {a : α} (h : (transact body db).1 = .ok a) :
    body db = .ok (a, (transact body db).2) := by
  unfold transact at *
  split at h
  · next a' db' hb =>
    cases h
    rw [hb]
  · cases h

end Transact

/-! ## A concrete environment and run -/

/-- The digests of the texts that the samples hash, which the sums of their bytes tell apart. -/
def sampleDigests : List (ℕ × ℕ) :=
  [(1361, 0xd4f02908f87fdda43c2e34c5f7187ae61d04c8852143614281853d8757a31d8f),
    (1769, 0xd74977c23e88996dcaca8aba14db4cb814a209f578f5b717d0970ada746e3368),
    (1770, 0x7f3d7ae11d82f0b3968efab93376782472ae3fa849f5cc1ecf4404fd9df51b18),
    (1771, 0xcc1569be079aa16e97db80db1c977589b8aaef11e753fe36568542b34e8d74ac),
    (1914, 0x9a6c09716ec5d7f748d3822c258628a833402c8dc35a0d1475a4b45030f8fde0),
    (3102, 0xa873e7915f939df24f8ae068447c1e78a7a39011318dbfbdb6afc253d0e0a1b1),
    (4496, 0xd9560b7406cd167e9ab478968de6bf2c9f9451a9e284b17b21a50e6dcdac4515),
    (19344, 0x986692e1cbcef37a3e99088a1b2ed86b80782e1557f701c774fc45dd86389ef8),
    (48179, 0x8b10f99de092fbdd0597868947b952000036c64c87ab15dd783eada3f35b4c75),
    (49379, 0x14a30a8f03c4ac75febda5899958a5e3a5919643ccad9d58d7bbc04922070947),
    (56509, 0x336ef2dbdeab673be5cab60d6b4a5d3812c8a53a3f717353099531222bcc1d36),
    (92639, 0x9d16d454466319aa1d2dfca810d55295f298ecd719733e16cb45db4bbaa23d19),
    (93839, 0xfa01596824468f69071d157f84c82523f2eebf6eb4dac7b142410b49e66cf2ce),
    (98724, 0x28b1296b3232e0518c2a64341b1cf2e935341c0a9b6d75bdc011257e78049324),
    (98734, 0x83d44413fd5eea9ad800ed79c578e932d00ae57d865957f7c686b6525f07315f),
    (100115, 0xe786cc968ef3c2a048ba523ce3c0a8e7ae08674017ffdc2e27e4016c475cff39),
    (100969, 0x92cb5db0a435e4c0565f31910ef0f60b47dfa52b74d1ba4137b101561ae4771f)]

/-- A number as hexadecimal digits. -/
def hexText (width n : ℕ) : String :=
  String.ofList ((List.range width).map fun i => Nat.digitChar (n / 16 ^ (width - 1 - i) % 16))

def sampleOrigin : String := "https://shop.test"
def sampleUrl : String := "https://shop.test/"

def samplePlanning : PlanningPlatform where
  sha256Hex bytes := hexText 64 (((sampleDigests.find? fun e =>
    e.1 = bytes.foldl (fun n b => n + b.toNat) 0).map (·.2)).getD 0)
  sha256Base64url _ := ""
  newUrl text :=
    if text = sampleUrl ∨ text = sampleOrigin then some ⟨"https:", "", "", sampleOrigin⟩ else none
  bindText
    | .str s => some s
    | _ => none
  toLowerCase s := String.ofList (s.toList.map Char.toLower)
  href text := if text = sampleOrigin then sampleUrl else text

def sampleContent : String := "The page opens."
def sampleContentHash : String := "d4f02908f87fdda43c2e34c5f7187ae61d04c8852143614281853d8757a31d8f"

def sampleDocument : PrdDocument :=
  ⟨"prd", "project", 1, "Shop", sampleContent, sampleContentHash⟩

def sampleRef : JsValue :=
  .obj [("prdId", .str "prd"), ("revision", .int 1), ("startOffset", .int 0),
    ("endOffset", .int 15), ("quotedTextSha256", .str sampleContentHash)]

/-- A proposal with one claim and one test case. -/
def sampleProposal (objective : String) (steps : List JsValue) : JsValue :=
  .obj [("expectedClaims", .arr [.obj [("semanticKey", .str "page-opens"),
      ("statement", .str "The page opens"), ("sourceRefs", .arr [sampleRef]),
      ("confidence", .int 1)]]),
    ("testCases", .arr [.obj [("title", .str "Open"), ("objective", .str objective),
      ("preconditions", .arr []), ("steps", .arr steps),
      ("expectedClaimSemanticKeys", .arr [.str "page-opens"]),
      ("sourceRefs", .arr [sampleRef]), ("priority", .str "high")]])]

def sampleSteps : List JsValue := [.obj [("kind", .str "navigate"), ("path", .str "/")]]

def sampleTarget : CreateTargetRevisionInput where
  targetId := .str "target"
  projectId := .str "project"
  displayName := .str "Shop"
  runnerId := .str "runner"
  expectedVersion := 0
  configuration := .obj [("kind", .str "web"), ("startUrl", .str sampleUrl),
    ("allowedOrigins", .arr [.str sampleOrigin]), ("browser", .str "chromium")]

def sampleNow : Timestamp := "2026-01-01T00:00:00.000Z"

def sampleMissionCommand : CreateMissionCommand where
  projectId := "project"
  targetId := "target"
  targetVersion := 1
  targetSnapshotHash := "986692e1cbcef37a3e99088a1b2ed86b80782e1557f701c774fc45dd86389ef8"
  planId := "cc1569be079aa16e97db80db1c977589"
  planVersion := 2
  idempotencyKey := "mission-key"

def sampleStart : StartMissionCommand := ⟨"9a6c09716ec5d7f748d3822c258628a8", 1, "start-key"⟩

/-- A plan is created and approved, compiled into a mission for a web target, and started. -/
def sampleEvents (objective : String) (steps : List JsValue) : List MissionEvent :=
  [.savePrdDocument sampleDocument,
    .createPlan ⟨"project", "prd", 1, sampleContentHash,
      sampleProposal objective steps, "plan-key"⟩,
    .approvePlan ⟨sampleMissionCommand.planId, 1, "reviewer", "approve-key"⟩ sampleNow,
    .createTarget sampleTarget "target-key",
    .createMission sampleNow sampleMissionCommand,
    .replay 0 sampleStart,
    .load 0,
    .schedule 0 sampleNow fun i =>
      ⟨"attempt-" ++ toString i, "job-" ++ toString i, "run-" ++ toString i⟩]

end Qualigence.Mission
