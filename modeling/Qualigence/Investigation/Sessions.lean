import Qualigence.Foundation.Optimistic
import Qualigence.Investigation.Persistence
import Qualigence.Investigation.Rejection

/-! # Cases in sessions

Workers open cases or read them from the database, command them in memory and write them back. The
database is a store of optimistic sessions, as long as ids are not used twice, so that what is
stored of a case is one sequence of commands and reloads.
-/

namespace Qualigence.Investigation

open Foundation Foundation.Optimistic InvestigationCase InvestigationBudgetLedger

/-- The resources that an attempt reports are finite and not negative. -/
def InvestigationCommand.Reports : InvestigationCommand → Prop
  | .appendAttempt _ draft => ValidConsumption draft.budgetConsumed
  | _ => True

/-- A command with amounts that the ledger takes. -/
abbrev SoundCommand := { command : InvestigationCommand // command.Reports }

structure InvestigationOpenInput where
  findingId : String
  projectId : String
  budget : InvestigationBudget
  deriving DecidableEq

namespace InvestigationCase

theorem valid_of_reports {c : InvestigationCase} {command : InvestigationCommand}
    (h : command.Reports) : c.Valid command := by
  cases command with
  | appendAttempt base draft => exact fun _ => h
  | _ => trivial

theorem version_next (c : InvestigationCase) (command : SoundCommand) :
    c.next command.1 = c ∨ c.version < (c.next command.1).version := by
  have hdoes := does_apply c command.1
  have hunharmed := unharmed_iff.mpr (valid_of_reports (c := c) command.2)
  rw [InvestigationCase.next]
  rw [Unharmed, InvestigationCase.next] at hunharmed
  generalize c.apply command.1 = outcome at hdoes hunharmed ⊢
  cases hdoes with
  | answers _ => exact .inl rfl
  | refuses error _ _ => exact .inl (hunharmed error rfl)
  | commits ht =>
    right
    rw [ht.version, ht.number]
    omega

theorem caseId_next (c : InvestigationCase) (command : InvestigationCommand) :
    (c.next command).caseId = c.caseId := by
  have hdoes := does_apply c command
  rw [InvestigationCase.next]
  generalize c.apply command = outcome at hdoes ⊢
  cases hdoes with
  | answers _ => rfl
  | refuses _ _ hr => exact hr.caseId
  | commits ht => exact ht.caseId

end InvestigationCase

def aggregate : Aggregate String InvestigationOpenInput InvestigationCase SoundCommand where
  key c := c.caseId
  version c := c.version
  opened caseId input :=
    InvestigationCase.opened caseId input.findingId input.projectId input.budget
  next c command := c.next command.1
  restored := InvestigationCase.restored
  key_opened _ _ := rfl
  key_next c command := caseId_next c command.1
  key_restored _ := rfl
  version_opened _ _ := Nat.zero_lt_one
  version_next := InvestigationCase.version_next
  version_restored _ := rfl
  restored_restored _ := rfl

def investigationStore : Store InvestigationTables String InvestigationCase StoreError where
  load := InvestigationTables.load
  save := InvestigationTables.save

abbrev InvestigationWorld (ω : Type) :=
  World InvestigationTables ω String InvestigationOpenInput InvestigationCase SoundCommand

namespace InvestigationWorld

variable {ω : Type} [DecidableEq ω]

/-- A case that can be written has ids of its own. -/
def Identifies (w : InvestigationWorld ω) :
    Op ω String InvestigationOpenInput SoundCommand → Prop
  | .save worker => ∀ s ∈ w.sessions worker,
    w.db.storedVersion s.object.caseId = s.expected → w.db.Identified s.object
  | _ => True

instance (w : InvestigationWorld ω) (op : Op ω String InvestigationOpenInput SoundCommand) :
    Decidable (w.Identifies op) :=
  match op with
  | .save worker => inferInstanceAs (Decidable (∀ s ∈ w.sessions worker, _ → _))
  | .create _ _ _ | .load _ _ | .command _ _ => isTrue trivial

abbrev step : InvestigationWorld ω → Op ω String InvestigationOpenInput SoundCommand →
    InvestigationWorld ω :=
  Optimistic.step aggregate investigationStore

/-- The sessions are serial and no stored bug episode is missing. -/
structure Kept (w : InvestigationWorld ω) : Prop where
  serial : Serial aggregate investigationStore w
  complete : w.db.Complete

variable {w : InvestigationWorld ω}
  {s : Session InvestigationOpenInput InvestigationCase SoundCommand}

omit [DecidableEq ω] in
theorem version_eq (w : InvestigationWorld ω) (caseId : String) :
    w.version aggregate investigationStore caseId = w.db.storedVersion caseId := by
  change ((w.db.load caseId).map fun c => c.version).getD 0 = _
  rw [InvestigationTables.load, InvestigationTables.storedVersion, Option.map_map]
  rfl

theorem storable_of_replay {caseId : String}
    {deeds : List (Deed InvestigationOpenInput SoundCommand)} {c : InvestigationCase}
    (h : aggregate.replay caseId deeds = some c) : c.Storable :=
  Aggregate.of_replay (I := Storable) (fun _ => storable_opened _ _ _ _)
    (fun _ hc => hc.restored) (fun _ command hc => (hc.next command.1).1) h

theorem extends_of_resume {deeds : List (Deed InvestigationOpenInput SoundCommand)}
    {c c' : InvestigationCase} (hc : c.Storable) (h : aggregate.resume c deeds = some c') :
    c.restored.Extends c' := by
  have hboth : c'.Storable ∧ c.restored.Extends c' := by
    refine Aggregate.of_resume (I := fun c' => c'.Storable ∧ c.restored.Extends c') ?_ ?_ ?_ h
    · exact fun c' hc' => ⟨hc'.1.restored, hc'.2.trans (extends_restored c')⟩
    · intro c' command hc'
      obtain ⟨hstorable, hextends⟩ := hc'.1.next command.1
      exact ⟨hstorable, hc'.2.trans hextends⟩
    · exact ⟨hc, rfl, rfl, rfl, List.prefix_rfl, fun _ => rfl, fun _ => rfl⟩
  exact hboth.2

omit [DecidableEq ω] in
/-- The object of a session that can write continues what is stored. -/
theorem Kept.extends (h : w.Kept) (hs : s.Sound aggregate investigationStore w)
    (hv : w.db.storedVersion s.object.caseId = s.expected) :
    s.object.Storable ∧
      ∀ c₀, w.db.load s.object.caseId = some c₀ → c₀.Extends s.object := by
  have hreplay : aggregate.replay s.object.caseId (w.log s.object.caseId ++ s.pending) =
      some s.object := hs.continues ((version_eq w _).trans hv)
  refine ⟨storable_of_replay hreplay, ?_⟩
  intro c₀ hload
  obtain ⟨c, hc, rfl⟩ := Option.map_eq_some_iff.mp ((h.serial.stored _).symm.trans hload)
  rw [Aggregate.replay_append hc] at hreplay
  exact extends_of_resume (storable_of_replay hc) hreplay

omit [DecidableEq ω] in
/-- A session with the stored version writes its case. -/
theorem Kept.writes (h : w.Kept) (hs : s.Sound aggregate investigationStore w)
    (hv : w.db.storedVersion s.object.caseId = s.expected) (hid : w.db.Identified s.object) :
    ∃ db, w.db.save s.object s.expected = .ok db ∧ db.Complete ∧
      Stores aggregate investigationStore w.db s.object db := by
  obtain ⟨hstorable, hextends⟩ := h.extends hs hv
  obtain ⟨db, hdb, hcomplete, hown, hother⟩ :=
    InvestigationTables.save_stores h.complete hstorable hid hextends
  exact ⟨db, hv ▸ hdb, hcomplete, hown, hother⟩

theorem save_stale {db : InvestigationTables} {c : InvestigationCase} {expectedVersion : ℕ}
    (h : db.storedVersion c.caseId ≠ expectedVersion) :
    db.save c expectedVersion =
      .error (.versionConflict c.caseId expectedVersion (db.storedVersion c.caseId)) := if_pos h

omit [DecidableEq ω] in
theorem Kept.exact (h : w.Kept) {op : Op ω String InvestigationOpenInput SoundCommand}
    (hid : w.Identifies op) : Exact aggregate investigationStore w op := by
  cases op with
  | save worker =>
    intro s hs
    constructor
    · intro hv
      have hv' : w.db.storedVersion s.object.caseId = s.expected := (version_eq w _).symm.trans hv
      obtain ⟨db, hdb, -, hstores⟩ := h.writes (h.serial.sessions worker s hs) hv' (hid s hs hv')
      exact ⟨db, hdb, hstores⟩
    · intro hv
      exact ⟨_, save_stale fun hv' => hv ((version_eq w _).trans hv')⟩
  | _ => trivial

theorem Kept.step (h : w.Kept) {op : Op ω String InvestigationOpenInput SoundCommand}
    (hid : w.Identifies op) : (w.step op).Kept := by
  refine ⟨h.serial.step (h.exact hid), ?_⟩
  cases op with
  | create worker caseId input => exact h.complete
  | load worker caseId =>
    change (Optimistic.step aggregate investigationStore w (.load worker caseId)).db.Complete
    rw [Optimistic.step]
    split
    · exact h.complete
    · exact h.complete
  | command worker command =>
    change (Optimistic.step aggregate investigationStore w (.command worker command)).db.Complete
    rw [Optimistic.step]
    split
    · exact h.complete
    · exact h.complete
  | save worker =>
    change (Optimistic.step aggregate investigationStore w (.save worker)).db.Complete
    rw [Optimistic.step]
    cases hs : w.sessions worker with
    | none => exact h.complete
    | some s =>
      by_cases hv : w.db.storedVersion s.object.caseId = s.expected
      · obtain ⟨db, hdb, hcomplete, -⟩ :=
          h.writes (h.serial.sessions worker s hs) hv (hid s hs hv)
        have hsave : investigationStore.save w.db s.object s.expected = .ok db := hdb
        simp only [hsave]
        unfold World.saved
        split
        · exact hcomplete
        · exact hcomplete
      · have hsave : investigationStore.save w.db s.object s.expected = .error _ := save_stale hv
        simp only [hsave]
        exact h.complete

omit [DecidableEq ω] in
theorem kept_start : Kept (World.start .empty : InvestigationWorld ω) where
  serial := serial_start fun _ => rfl
  complete _ _ h := by cases h

theorem kept_run {ops : List (Op ω String InvestigationOpenInput SoundCommand)}
    (h : Meets step Identifies (World.start .empty) ops) :
    Kept (ops.foldl step (World.start .empty)) :=
  h.foldl (I := Kept) (fun _ _ hid hkept => hkept.step hid) kept_start

/-- Two workers read a started case and hand it over. The second one is late. -/
def raced : List (Op Bool String InvestigationOpenInput SoundCommand) :=
  let handOver : SoundCommand :=
    ⟨.escalateToHuman ⟨2, "hand over"⟩ ⟨"unclear", none, [], [], ["stuck"]⟩, trivial⟩
  [.create true "case" ⟨"finding", "project", sampleBudget 2⟩,
    .command true ⟨.startInvestigation ⟨1, "start"⟩, trivial⟩, .save true, .load false "case",
    .command false handOver, .command true handOver, .save false, .save true]

end InvestigationWorld

end Qualigence.Investigation
