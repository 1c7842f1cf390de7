import Qualigence.Launcher.Supervisor
import Mathlib.Data.List.Induction

/-! # The lock over the topology

What the calls of a supervisor say about its units and its lock, and what each part of the
supervisor adds to them. A rollback releases the lock also when a unit could not be stopped, so the
lock covers the topology in exactly those runs in which no stop fails.
-/

namespace Qualigence.Launcher

open Foundation Foundation.Program

/-- What a call of a unit or of the lock has come to. -/
inductive LifecycleEvent where
  | acquired
  | refused
  | released
  | unreleased
  | started (place : ℕ)
  | startFailed (place : ℕ)
  | stopped (place : ℕ)
  | stopFailed (place : ℕ)
  | checked
  deriving DecidableEq

def lifecycleEvent : Call supervisorSignature Empty → LifecycleEvent
  | ⟨.acquire, .ok (.ok ())⟩ => .acquired
  | ⟨.acquire, .ok (.error _)⟩ => .refused
  | ⟨.release, .ok (.ok ())⟩ => .released
  | ⟨.release, .ok (.error _)⟩ => .unreleased
  | ⟨.start place, .ok (.ok ())⟩ => .started place
  | ⟨.start place, .ok (.error _)⟩ => .startFailed place
  | ⟨.stop place, .ok (.ok ())⟩ => .stopped place
  | ⟨.stop place, .ok (.error _)⟩ => .stopFailed place
  | ⟨.readinessChecks _, .ok _⟩ => .checked

/-- The units that run after one more event, in the order of their starts. -/
def upAfter (up : List ℕ) : LifecycleEvent → List ℕ
  | .started place => up ++ [place]
  | .stopped place => up.erase place
  | _ => up

/-- Whether the lock is held after one more event. -/
def heldAfter (held : Bool) : LifecycleEvent → Bool
  | .acquired => true
  | .released => false
  | _ => held

/-- The units that were started and have not been stopped since, in the order of their starts. -/
def upUnits (log : SupervisorLog) : List ℕ := (log.map lifecycleEvent).foldl upAfter []

def lockHeld (log : SupervisorLog) : Bool := (log.map lifecycleEvent).foldl heldAfter false

/-- The unit that an event tries to stop. -/
def LifecycleEvent.tried : LifecycleEvent → Option ℕ
  | .stopped place | .stopFailed place => some place
  | _ => none

/-- The unit that an event is about. -/
def LifecycleEvent.unit : LifecycleEvent → Option ℕ
  | .started place | .startFailed place | .stopped place | .stopFailed place => some place
  | _ => none

/-- The units that calls try to stop, in this order. -/
def triedUnits (log : SupervisorLog) : List ℕ :=
  (log.map lifecycleEvent).filterMap LifecycleEvent.tried

def StartFailed (log : SupervisorLog) : Prop := ∃ place, .startFailed place ∈ log.map lifecycleEvent

def StopFailed (log : SupervisorLog) : Prop := ∃ place, .stopFailed place ∈ log.map lifecycleEvent

/-- The calls that a request adds after earlier ones. -/
def callsOf (options : ProcessSupervisorOptions) (b : Behaviour)
    (earlier : List SupervisorRequest) (request : SupervisorRequest) : SupervisorLog :=
  (supervised options b (earlier ++ [request])).log.drop (supervised options b earlier).log.length

/-- The request rolls back. -/
def RollsBack (request : SupervisorRequest) (calls : SupervisorLog) : Prop :=
  request = .stop ∨ StartFailed calls

/-- The lock covers the topology, in a run: it is held whenever a unit runs between two calls; a
rollback tries to stop all units that run when it begins, the last started one first; and a start
that is rolled back, with no stop that fails, leaves no unit running and the lock free. -/
structure Covered (options : ProcessSupervisorOptions) (b : Behaviour)
    (requests : List SupervisorRequest) : Prop where
  locked : ∀ earlier, earlier <+: requests → upUnits (supervised options b earlier).log ≠ [] →
    lockHeld (supervised options b earlier).log = true
  reversed : ∀ earlier request, earlier ++ [request] <+: requests → ∃ starts stops,
    callsOf options b earlier request = starts ++ stops ∧
    (∀ c ∈ starts, (lifecycleEvent c).tried = none) ∧
    (∀ c ∈ stops, ∀ place, lifecycleEvent c ≠ .started place) ∧
    (RollsBack request (callsOf options b earlier request) → triedUnits stops =
      (upUnits ((supervised options b earlier).log ++ starts)).reverse) ∧
    (¬ RollsBack request (callsOf options b earlier request) → triedUnits stops = [])
  rolledBack : ∀ earlier, earlier ++ [.start] <+: requests →
    StartFailed (callsOf options b earlier .start) → ¬ StopFailed (callsOf options b earlier .start) →
      upUnits (supervised options b (earlier ++ [.start])).log = [] ∧
        lockHeld (supervised options b (earlier ++ [.start])).log = false

/-! ## What calls add -/

section Logs

variable {log during : SupervisorLog} {c : Call supervisorSignature Empty}

theorem upUnits_append_singleton :
    upUnits (log ++ [c]) = upAfter (upUnits log) (lifecycleEvent c) := by
  simp [upUnits]

theorem lockHeld_append_singleton :
    lockHeld (log ++ [c]) = heldAfter (lockHeld log) (lifecycleEvent c) := by
  simp [lockHeld]

theorem startFailed_cons : StartFailed (c :: during) ↔
    (∃ place, lifecycleEvent c = .startFailed place) ∨ StartFailed during := by
  simp only [StartFailed, List.map_cons, List.mem_cons, eq_comm, exists_or]

theorem stopFailed_cons : StopFailed (c :: during) ↔
    (∃ place, lifecycleEvent c = .stopFailed place) ∨ StopFailed during := by
  simp only [StopFailed, List.map_cons, List.mem_cons, eq_comm, exists_or]

theorem stopFailed_append : StopFailed (log ++ during) ↔ StopFailed log ∨ StopFailed during := by
  simp only [StopFailed, List.map_append, List.mem_append, exists_or]

theorem startFailed_append :
    StartFailed (log ++ during) ↔ StartFailed log ∨ StartFailed during := by
  simp only [StartFailed, List.map_append, List.mem_append, exists_or]

theorem triedUnits_append : triedUnits (log ++ during) = triedUnits log ++ triedUnits during := by
  simp [triedUnits]

end Logs

/-- The fields of a supervisor say what its calls have come to. -/
structure Tracks (s : ProcessSupervisor) (log : SupervisorLog) : Prop where
  running : s.running = upUnits log
  locked : s.locked = lockHeld log
  sorted : s.running.Pairwise (· < ·)

namespace ProcessSupervisor

variable (options : ProcessSupervisorOptions)

/-- What `startUnits` adds to a log. -/
structure Starting (s : ProcessSupervisor) (log during : SupervisorLog)
    (r : Except LauncherError Unit × ProcessSupervisor) : Prop where
  tracks : Tracks r.2 (log ++ during)
  locked : r.2.locked = s.locked
  untried : ∀ c ∈ during, (lifecycleEvent c).tried = none
  failed : StartFailed during ↔ ∃ e, r.1 = .error e

theorem startUnits_adds {places : List ℕ} {s : ProcessSupervisor} {log : SupervisorLog}
    (h : Tracks s log) (hs : (s.running ++ places).Pairwise (· < ·)) :
    Adds (Starting s log) log (startUnits options places s) := by
  induction places generalizing s log with
  | nil =>
    apply adds_pure
    refine ⟨by rwa [List.append_nil], rfl, fun c hc => absurd hc List.not_mem_nil, ?_⟩
    constructor
    · rintro ⟨place, hp⟩
      cases hp
    · rintro ⟨e, he⟩
      cases he
  | cons place rest ih =>
    refine adds_step fun reply => ?_
    cases reply with
    | error e =>
      apply adds_pure
      refine ⟨⟨?_, ?_, h.sorted⟩, rfl, ?_, ?_⟩
      · rw [upUnits_append_singleton]
        exact h.running
      · rw [lockHeld_append_singleton]
        exact h.locked
      · intro c hc
        rw [List.mem_singleton.mp hc]
        rfl
      · exact ⟨fun _ => ⟨e, rfl⟩, fun _ => ⟨place, List.mem_singleton.mpr rfl⟩⟩
    | ok u =>
      rw [List.append_cons] at hs
      have ht : Tracks ({ s.record options place "start" with
          running := s.running ++ [place] }.record options place "ready")
          (log ++ [⟨.start place, .ok (.ok u)⟩]) := by
        refine ⟨?_, ?_, (List.pairwise_append.mp hs).1⟩
        · rw [upUnits_append_singleton, ← h.running]
          rfl
        · rw [lockHeld_append_singleton]
          exact h.locked
      refine Adds.imp (ih ht hs) ?_
      rintro during r ⟨htracks, hlocked, huntried, hfailed⟩
      refine ⟨by rwa [List.append_cons], hlocked, ?_, ?_⟩
      · rintro c (_ | ⟨_, hc⟩)
        · rfl
        · exact huntried c hc
      · rw [startFailed_cons, ← hfailed]
        exact or_iff_right (by rintro ⟨p, hp⟩; cases hp)

/-- What `stopUnits` adds to a log, before it puts the unreaped units back. -/
structure Stopping (rest unreaped : List ℕ) (s : ProcessSupervisor) (log during : SupervisorLog)
    (r : Option LauncherError × List ℕ × ProcessSupervisor) : Prop where
  up : upUnits (log ++ during) = r.2.1
  held : lockHeld (log ++ during) = lockHeld log
  sorted : r.2.1.Pairwise (· < ·)
  tried : triedUnits during = rest
  running : r.2.2.running = []
  locked : r.2.2.locked = s.locked
  stops : ∀ c ∈ during, (lifecycleEvent c).tried ≠ none
  keeps : unreaped <:+ r.2.1
  failed : StopFailed during → r.2.1 ≠ []
  reaped : ¬ StopFailed during → r.2.1 = unreaped

theorem stopUnits_adds {rest unreaped : List ℕ} {failure : Option LauncherError}
    {s : ProcessSupervisor} {log : SupervisorLog} (hup : upUnits log = rest.reverse ++ unreaped)
    (hs : (rest.reverse ++ unreaped).Pairwise (· < ·)) (hr : s.running = rest.reverse) :
    Adds (Stopping rest unreaped s log) log (stopUnits options rest failure unreaped s) := by
  induction rest generalizing failure unreaped s log with
  | nil =>
    apply adds_pure
    refine ⟨by rwa [List.append_nil], by rw [List.append_nil], hs, rfl, hr, rfl,
      fun c hc => absurd hc List.not_mem_nil, List.suffix_rfl, ?_, fun _ => rfl⟩
    rintro ⟨place, hp⟩
    cases hp
  | cons place rest ih =>
    rw [List.reverse_cons, List.append_assoc] at hup hs
    refine adds_step fun reply => ?_
    cases reply with
    | error e =>
      have hup' : upUnits (log ++ [⟨.stop place, .ok (.error e)⟩]) =
          rest.reverse ++ place :: unreaped := by
        rw [upUnits_append_singleton]
        exact hup
      refine Adds.imp (ih hup' hs rfl) ?_
      rintro during r ⟨up, held, sorted, tried, running, locked, stops, keeps, failed, reaped⟩
      have hne : r.2.1 ≠ [] := by
        intro hnil
        rw [hnil] at keeps
        cases List.suffix_nil.mp keeps
      refine ⟨by rwa [List.append_cons], ?_, sorted, ?_, running, locked, ?_, ?_, fun _ => hne, ?_⟩
      · rw [List.append_cons, held, lockHeld_append_singleton]
        rfl
      · exact congrArg (place :: ·) tried
      · rintro c (_ | ⟨_, hc⟩)
        · exact nofun
        · exact stops c hc
      · exact (List.suffix_cons place unreaped).trans keeps
      · intro h
        exact absurd (stopFailed_cons.mpr (.inl ⟨place, rfl⟩)) h
    | ok u =>
      have hnd : (rest.reverse ++ place :: unreaped).Nodup := hs.imp fun h => Nat.ne_of_lt h
      have hmem : place ∉ rest.reverse := fun hm =>
        (List.nodup_append.mp hnd).2.2 place hm place List.mem_cons_self rfl
      have herase : (rest.reverse ++ place :: unreaped).erase place = rest.reverse ++ unreaped := by
        rw [List.erase_append_right _ hmem, List.erase_cons_head]
      have hup' : upUnits (log ++ [⟨.stop place, .ok (.ok u)⟩]) = rest.reverse ++ unreaped := by
        rw [upUnits_append_singleton, hup]
        exact herase
      have hs' : (rest.reverse ++ unreaped).Pairwise (· < ·) := by
        rw [← herase]
        exact hs.sublist List.erase_sublist
      refine Adds.imp (ih hup' hs' rfl) ?_
      rintro during r ⟨up, held, sorted, tried, running, locked, stops, keeps, failed, reaped⟩
      have hcons : StopFailed (⟨.stop place, .ok (.ok u)⟩ :: during) ↔ StopFailed during :=
        stopFailed_cons.trans (or_iff_right (by rintro ⟨p, hp⟩; cases hp))
      refine ⟨by rwa [List.append_cons], ?_, sorted, ?_, running, locked, ?_, keeps,
        fun h => failed (hcons.mp h), fun h => reaped fun hf => h (hcons.mpr hf)⟩
      · rw [List.append_cons, held, lockHeld_append_singleton]
        rfl
      · exact congrArg (place :: ·) tried
      · rintro c (_ | ⟨_, hc⟩)
        · exact nofun
        · exact stops c hc

/-- What a rollback adds to a log. -/
structure RollingBack (s : ProcessSupervisor) (log during : SupervisorLog)
    (r : Except LauncherError Unit × ProcessSupervisor) : Prop where
  tracks : Tracks r.2 (log ++ during)
  locked : r.2.locked = s.locked
  tried : triedUnits during = s.running.reverse
  stops : ∀ c ∈ during, (lifecycleEvent c).tried ≠ none
  failed : StopFailed during → r.2.running ≠ []
  reaped : ¬ StopFailed during → r.2.running = []

theorem rollback_adds {s : ProcessSupervisor} {log : SupervisorLog} (h : Tracks s log) :
    Adds (RollingBack s log) log (rollback options s) := by
  have hstop : Adds (Stopping s.running.reverse [] s log) log
      (stopUnits options s.running.reverse none [] s) := by
    apply stopUnits_adds
    · simp [h.running]
    · simpa using h.sorted
    · simp
  refine adds_bind hstop ?_
  rintro d ⟨failure, unreaped, s'⟩ ⟨up, held, sorted, tried, running, locked, stops, -, failed, reaped⟩
  dsimp only at up held sorted running locked failed reaped
  have hroll : ∀ result : Except LauncherError Unit, RollingBack s log (d ++ [])
      (result, { s' with running := s'.running ++ unreaped }) := by
    intro result
    rw [List.append_nil]
    refine ⟨⟨?_, ?_, ?_⟩, locked, tried, stops, ?_, ?_⟩ <;> rw [running, List.nil_append]
    · exact up.symm
    · rw [held, locked]
      exact h.locked
    · exact sorted
    · exact failed
    · exact reaped
  cases failure with
  | none => exact adds_pure (hroll (.ok ()))
  | some e => exact adds_pure (hroll (.error e))

/-- What calls of the lock and of readiness checks add to a log. -/
structure Idle (s : ProcessSupervisor) (log during : SupervisorLog) (s' : ProcessSupervisor) :
    Prop where
  tracks : Tracks s' (log ++ during)
  running : s'.running = s.running
  units : ∀ c ∈ during, (lifecycleEvent c).unit = none

variable {options}

theorem Idle.refl {s : ProcessSupervisor} {log : SupervisorLog} (h : Tracks s log) :
    Idle s log [] s :=
  ⟨by rwa [List.append_nil], rfl, fun c hc => absurd hc List.not_mem_nil⟩

theorem Idle.single {s : ProcessSupervisor} {log : SupervisorLog} (h : Tracks s log)
    {c : Call supervisorSignature Empty} (hc : (lifecycleEvent c).unit = none) {locked : Bool}
    (hl : locked = heldAfter s.locked (lifecycleEvent c)) :
    Idle s log [c] { s with locked := locked } := by
  have hup : upAfter (upUnits log) (lifecycleEvent c) = upUnits log := by
    cases he : lifecycleEvent c <;> first | rfl | (rw [he] at hc; cases hc)
  refine ⟨⟨?_, ?_, h.sorted⟩, rfl, ?_⟩
  · rw [upUnits_append_singleton, hup]
    exact h.running
  · rw [lockHeld_append_singleton, ← h.locked]
    exact hl
  · intro c' hc'
    rw [List.mem_singleton.mp hc']
    exact hc

theorem acquireLock_adds (hlock : options.lock = true) {s : ProcessSupervisor}
    {log : SupervisorLog} (h : Tracks s log) :
    Adds (fun during r => Idle s log during r.2 ∧ (r.1 = .ok () → r.2.locked = true) ∧
      ((∃ e, r.1 = .error e) → r.2 = s)) log (acquireLock options s) := by
  unfold acquireLock
  rw [if_pos hlock]
  refine adds_step fun reply => ?_
  cases reply with
  | ok u => exact adds_pure ⟨.single h rfl rfl, fun _ => rfl, by rintro ⟨e, he⟩; cases he⟩
  | error e => exact adds_pure ⟨.single h rfl rfl, nofun, fun _ => rfl⟩

/-- No call of the lock has failed to release it. -/
def Released (during : SupervisorLog) : Prop := ∀ c ∈ during, lifecycleEvent c ≠ .unreleased

theorem releaseLock_adds (hlock : options.lock = true) {s : ProcessSupervisor}
    {log : SupervisorLog} (h : Tracks s log) :
    Adds (fun during r => Idle s log during r.2 ∧ (Released during → r.2.locked = false)) log
      (releaseLock options s) := by
  unfold releaseLock
  split
  · refine adds_step fun reply => ?_
    cases reply with
    | ok u => exact adds_pure ⟨.single h rfl rfl, fun _ => rfl⟩
    | error e =>
      apply adds_pure
      exact ⟨.single h rfl rfl, fun hr => absurd rfl (hr _ List.mem_cons_self)⟩
  · next hn =>
    apply adds_pure
    refine ⟨.refl h, fun _ => ?_⟩
    cases hl : s.locked with
    | false => rfl
    | true => exact absurd ⟨hlock, hl⟩ hn

/-- What a rollback adds to a log together with the release of the lock. -/
structure Undoing (s : ProcessSupervisor) (log during : SupervisorLog) (s' : ProcessSupervisor) :
    Prop where
  tracks : Tracks s' (log ++ during)
  tried : triedUnits during = s.running.reverse
  unstarted : ∀ c ∈ during, ∀ place, lifecycleEvent c ≠ .started place ∧
    lifecycleEvent c ≠ .startFailed place
  freed : Released during → s'.locked = false
  failed : StopFailed during → s'.running ≠ []
  reaped : ¬ StopFailed during → s'.running = []

theorem triedUnits_of_idle {during : SupervisorLog}
    (h : ∀ c ∈ during, (lifecycleEvent c).tried = none) : triedUnits during = [] := by
  apply List.filterMap_eq_nil_iff.mpr
  intro e he
  obtain ⟨c, hc, rfl⟩ := List.mem_map.mp he
  exact h c hc

theorem tried_of_unit {e : LifecycleEvent} (h : e.unit = none) : e.tried = none := by
  cases e <;> first | rfl | cases h

theorem undo_adds {α : Type} (hlock : options.lock = true) {s : ProcessSupervisor}
    {log : SupervisorLog} (h : Tracks s log)
    (k : Except LauncherError Unit → Except LauncherError Unit × ProcessSupervisor →
      Supervising (α × ProcessSupervisor)) (hk : ∀ r q, ∃ a, k r q = .pure (a, q.2)) :
    Adds (fun during r => Undoing s log during r.2) log
      ((rollback options s).bind fun r => (releaseLock options r.2).bind (k r.1)) := by
  refine adds_bind (rollback_adds options h) fun d r hr => ?_
  refine adds_bind (releaseLock_adds hlock hr.tracks) ?_
  rintro d' q ⟨hidle, hfree⟩
  obtain ⟨a, ha⟩ := hk r.1 q
  rw [ha]
  apply adds_pure
  rw [List.append_nil]
  have htried : ∀ c ∈ d', (lifecycleEvent c).tried = none := fun c hc =>
    tried_of_unit (hidle.units c hc)
  have hfailed : StopFailed (d ++ d') ↔ StopFailed d := by
    refine stopFailed_append.trans (or_iff_left ?_)
    rintro ⟨place, hp⟩
    obtain ⟨c, hc, he⟩ := List.mem_map.mp hp
    have hnone := htried c hc
    rw [he] at hnone
    cases hnone
  refine ⟨?_, ?_, ?_, ?_, ?_, ?_⟩
  · rw [← List.append_assoc]
    exact hidle.tracks
  · rw [triedUnits_append, hr.tried, triedUnits_of_idle htried, List.append_nil]
  · intro c hc place
    rcases List.mem_append.mp hc with hc | hc
    · have hs := hr.stops c hc
      constructor <;> intro he <;> rw [he] at hs <;> exact hs rfl
    · have hs := hidle.units c hc
      constructor <;> intro he <;> rw [he] at hs <;> cases hs
  · exact fun hrel => hfree fun c hc => hrel c (List.mem_append_right d hc)
  · intro hf
    rw [hidle.running]
    exact hr.failed (hfailed.mp hf)
  · intro hf
    rw [hidle.running]
    exact hr.reaped fun h => hf (hfailed.mpr h)

theorem readiness_adds {rest : List ℕ} {checks : List HealthCheck} {s : ProcessSupervisor}
    {log : SupervisorLog} (h : Tracks s log) :
    Adds (fun during _ => Idle s log during s) log (readiness rest checks) := by
  induction rest generalizing checks log with
  | nil => exact adds_pure (.refl h)
  | cons place rest ih =>
    refine adds_step fun reply => ?_
    have hone : Idle s log [⟨.readinessChecks place, .ok reply⟩] s := .single h rfl rfl
    cases reply with
    | error e => exact adds_pure hone
    | ok more =>
      refine Adds.imp (ih hone.tracks) fun during _ hd => ⟨?_, rfl, ?_⟩
      · rw [List.append_cons]
        exact hd.tracks
      · rintro c (_ | ⟨_, hc⟩)
        · rfl
        · exact hd.units c hc

/-- What a request adds to a log. -/
structure Turned (request : SupervisorRequest) (s : ProcessSupervisor) (log during : SupervisorLog)
    (s' : ProcessSupervisor) : Prop where
  tracks : Tracks s' (log ++ during)
  reversed : ∃ starts stops, during = starts ++ stops ∧
    (∀ c ∈ starts, (lifecycleEvent c).tried = none) ∧
    (∀ c ∈ stops, ∀ place, lifecycleEvent c ≠ .started place) ∧
    (RollsBack request during → triedUnits stops = (upUnits (log ++ starts)).reverse) ∧
    (¬ RollsBack request during → triedUnits stops = [])
  kept : ¬ StopFailed during → (s.running ≠ [] → s.locked = true) → s'.running ≠ [] →
    s'.locked = true
  lost : Released during → StopFailed during → s'.running ≠ [] ∧ s'.locked = false
  undone : Released during → StartFailed during → ¬ StopFailed during →
    s'.running = [] ∧ s'.locked = false

theorem not_stopFailed {during : SupervisorLog}
    (h : ∀ c ∈ during, (lifecycleEvent c).tried = none) : ¬ StopFailed during := by
  rintro ⟨place, hp⟩
  obtain ⟨c, hc, he⟩ := List.mem_map.mp hp
  have hnone := h c hc
  rw [he] at hnone
  cases hnone

theorem not_startFailed {during : SupervisorLog}
    (h : ∀ c ∈ during, (lifecycleEvent c).unit = none) : ¬ StartFailed during := by
  rintro ⟨place, hp⟩
  obtain ⟨c, hc, he⟩ := List.mem_map.mp hp
  have hnone := h c hc
  rw [he] at hnone
  cases hnone

/-- A start that does not roll back. -/
theorem Turned.forward {s s' : ProcessSupervisor} {log during : SupervisorLog}
    (ht : Tracks s' (log ++ during)) (htried : ∀ c ∈ during, (lifecycleEvent c).tried = none)
    (hstart : ¬ StartFailed during)
    (hkept : (s.running ≠ [] → s.locked = true) → s'.running ≠ [] → s'.locked = true) :
    Turned .start s log during s' := by
  refine ⟨ht, ⟨during, [], (List.append_nil during).symm, htried,
    fun c hc => absurd hc List.not_mem_nil, ?_, fun _ => rfl⟩, fun _ => hkept,
    fun _ hf => absurd hf (not_stopFailed htried), fun _ hf => absurd hf hstart⟩
  rintro (h | h)
  · cases h
  · exact absurd h hstart

/-- A request that rolls back what runs after its starts. -/
theorem Turned.back {request : SupervisorRequest} {s s₁ s' : ProcessSupervisor}
    {log starts stops : SupervisorLog} (ht : Tracks s₁ (log ++ starts))
    (hu : Undoing s₁ (log ++ starts) stops s')
    (htried : ∀ c ∈ starts, (lifecycleEvent c).tried = none)
    (hroll : RollsBack request (starts ++ stops)) :
    Turned request s log (starts ++ stops) s' := by
  have hstop : StopFailed (starts ++ stops) ↔ StopFailed stops :=
    stopFailed_append.trans (or_iff_right (not_stopFailed htried))
  have hfreed : Released (starts ++ stops) → s'.locked = false := fun hr =>
    hu.freed fun c hc => hr c (List.mem_append_right starts hc)
  refine ⟨?_, ⟨starts, stops, rfl, htried, fun c hc place => (hu.unstarted c hc place).1, ?_,
    fun h => absurd hroll h⟩, ?_, ?_, ?_⟩
  · rw [← List.append_assoc]
    exact hu.tracks
  · intro _
    rw [hu.tried, ht.running]
  · intro hn _ hrun
    exact absurd (hu.reaped fun h => hn (hstop.mpr h)) hrun
  · exact fun hr hf => ⟨hu.failed (hstop.mp hf), hfreed hr⟩
  · exact fun hr _ hn => ⟨hu.reaped fun h => hn (hstop.mpr h), hfreed hr⟩

/-- A rollback answers as before, unless the lock could not be released. -/
def released {α : Type} (r : Except LauncherError α)
    (q : Except LauncherError Unit × ProcessSupervisor) :
    Supervising (Except LauncherError α × ProcessSupervisor) :=
  match q.1 with
  | .ok () => .pure (r, q.2)
  | .error e => .pure (.error e, q.2)

theorem exists_of_released {α : Type} (r : Except LauncherError α)
    (q : Except LauncherError Unit × ProcessSupervisor) :
    ∃ a, released r q = .pure (a, q.2) := by
  obtain ⟨outcome, s⟩ := q
  cases outcome with
  | ok u => exact ⟨r, rfl⟩
  | error e => exact ⟨.error e, rfl⟩

theorem start_adds (hlock : options.lock = true) {s : ProcessSupervisor} {log : SupervisorLog}
    (h : Tracks s log) :
    Adds (fun during r => Turned .start s log during r.2) log (start options s) := by
  unfold start
  split
  · apply adds_pure
    apply Turned.forward
    · rwa [List.append_nil]
    · exact fun c hc => absurd hc List.not_mem_nil
    · exact not_startFailed fun c hc => absurd hc List.not_mem_nil
    · exact fun hk hr => hk hr
  · next hrun =>
    have hrun := Classical.not_not.mp hrun
    refine adds_bind (acquireLock_adds hlock h) ?_
    rintro d ⟨acquired, s₁⟩ ⟨hidle, hok, herr⟩
    have htried : ∀ c ∈ d, (lifecycleEvent c).tried = none := fun c hc =>
      tried_of_unit (hidle.units c hc)
    cases acquired with
    | error e =>
      apply adds_pure
      rw [List.append_nil]
      refine .forward hidle.tracks htried (not_startFailed hidle.units) fun _ hr => ?_
      rw [show s₁ = s from herr ⟨e, rfl⟩] at hr
      exact absurd hrun hr
    | ok u =>
      have hsorted : (s₁.running ++ places options).Pairwise (· < ·) := by
        rw [show s₁.running = [] from hidle.running.trans hrun]
        exact List.pairwise_lt_range
      refine adds_bind (startUnits_adds options hidle.tracks hsorted) ?_
      rintro d' ⟨started, s₂⟩ ⟨htracks, hlocked, huntried, hfailed⟩
      have hstarts : ∀ c ∈ d ++ d', (lifecycleEvent c).tried = none := by
        intro c hc
        rcases List.mem_append.mp hc with hc | hc
        · exact htried c hc
        · exact huntried c hc
      have htracks' := htracks
      rw [List.append_assoc] at htracks
      cases started with
      | error e =>
        have hundo : Adds (fun during r => Undoing s₂ (log ++ d ++ d') during r.2) (log ++ d ++ d')
            (undoStart options e s₂) := by
          exact undo_adds hlock htracks'
            (fun _ q => released (.error e : Except LauncherError HealthReport) q)
            fun _ q => exists_of_released _ q
        refine Adds.imp hundo fun d'' r hu => ?_
        rw [← List.append_assoc]
        rw [List.append_assoc] at hu
        refine .back htracks hu hstarts (.inr ?_)
        exact startFailed_append.mpr (.inl (startFailed_append.mpr
          (.inr (hfailed.mpr ⟨e, rfl⟩))))
      | ok u' =>
        have hstatus : Adds (fun during _ => Idle s₂ (log ++ d ++ d') during s₂) (log ++ d ++ d')
            (status options) := by
          refine adds_bind (readiness_adds htracks') fun d'' checks hd => ?_
          apply adds_pure
          rwa [List.append_nil]
        refine adds_bind hstatus fun d'' report hd => ?_
        apply adds_pure
        rw [List.append_nil]
        refine .forward ?_ ?_ ?_ fun _ _ => ?_
        · have ht := hd.tracks
          rwa [List.append_assoc, List.append_assoc] at ht
        · intro c hc
          rw [← List.append_assoc] at hc
          rcases List.mem_append.mp hc with hc | hc
          · exact hstarts c hc
          · exact tried_of_unit (hd.units c hc)
        · rw [startFailed_append, startFailed_append]
          rintro (hf | hf | hf)
          · exact not_startFailed hidle.units hf
          · obtain ⟨e, he⟩ := hfailed.mp hf
            cases he
          · exact not_startFailed hd.units hf
        · exact hlocked.trans (hok rfl)

theorem stop_adds (hlock : options.lock = true) {s : ProcessSupervisor} {log : SupervisorLog}
    (h : Tracks s log) :
    Adds (fun during r => Turned .stop s log during r.2) log (stop options s) := by
  have hundo : Adds (fun during r => Undoing s log during r.2) log (stop options s) := by
    exact undo_adds hlock h released exists_of_released
  refine Adds.imp hundo fun d r hu => ?_
  have h' : Tracks s (log ++ []) := by rwa [List.append_nil]
  have hu' : Undoing s (log ++ []) d r.2 := by rwa [List.append_nil]
  exact Turned.back h' hu' (fun c hc => absurd hc List.not_mem_nil) (.inl rfl)

theorem body_adds (hlock : options.lock = true) {s : ProcessSupervisor} {log : SupervisorLog}
    (h : Tracks s log) (request : SupervisorRequest) :
    Adds (Turned request s log) log (request.body options s) := by
  cases request with
  | start =>
    refine adds_bind (start_adds hlock h) fun d r hd => ?_
    apply adds_pure
    rwa [List.append_nil]
  | stop =>
    refine adds_bind (stop_adds hlock h) fun d r hd => ?_
    apply adds_pure
    rwa [List.append_nil]

end ProcessSupervisor

/-! ## Runs -/

variable {options : ProcessSupervisorOptions} {b : Behaviour}

theorem supervised_append {earlier : List SupervisorRequest} {request : SupervisorRequest} :
    supervised options b (earlier ++ [request]) =
      (supervised options b earlier).perform options b request := by
  simp [supervised]

theorem supervised_tracks (hlock : options.lock = true) (requests : List SupervisorRequest) :
    Tracks (supervised options b requests).supervisor (supervised options b requests).log := by
  induction requests using List.reverseRecOn with
  | nil => exact ⟨rfl, rfl, List.Pairwise.nil⟩
  | append_singleton earlier request ih =>
    rw [supervised_append]
    obtain ⟨during, heq, hturn⟩ :=
      (ProcessSupervisor.body_adds hlock ih request).run b.oracle
    have ht := hturn.tracks
    rwa [← heq] at ht

/-- What the calls of one request are. -/
theorem turned (hlock : options.lock = true) (earlier : List SupervisorRequest)
    (request : SupervisorRequest) :
    (supervised options b (earlier ++ [request])).log =
      (supervised options b earlier).log ++ callsOf options b earlier request ∧
    ProcessSupervisor.Turned request (supervised options b earlier).supervisor
      (supervised options b earlier).log (callsOf options b earlier request)
      (supervised options b (earlier ++ [request])).supervisor := by
  obtain ⟨during, heq, hturn⟩ :=
    (ProcessSupervisor.body_adds hlock (supervised_tracks (b := b) hlock earlier) request).run
      b.oracle
  have hlog : (supervised options b (earlier ++ [request])).log =
      (supervised options b earlier).log ++ during := by
    rw [supervised_append]
    exact heq
  have hcalls : callsOf options b earlier request = during := by
    rw [callsOf, hlog, List.drop_left]
  rw [hcalls]
  refine ⟨hlog, ?_⟩
  rw [supervised_append]
  exact hturn

/-- A lock that can always be released is never left unreleased. -/
theorem released (options : ProcessSupervisorOptions) (hrelease : ∀ log, b log .release = .ok ())
    (requests : List SupervisorRequest) :
    ProcessSupervisor.Released (supervised options b requests).log := by
  induction requests using List.reverseRecOn with
  | nil => exact fun c hc => absurd hc List.not_mem_nil
  | append_singleton earlier request ih =>
    rw [supervised_append]
    refine mem_run ?_ ih
    intro log op
    cases op with
    | release =>
      change lifecycleEvent ⟨.release, .ok (b log .release)⟩ ≠ .unreleased
      rw [hrelease log]
      exact nofun
    | acquire =>
      change lifecycleEvent ⟨.acquire, .ok (b log .acquire)⟩ ≠ .unreleased
      cases b log .acquire <;> exact nofun
    | start place =>
      change lifecycleEvent ⟨.start place, .ok (b log (.start place))⟩ ≠ .unreleased
      cases b log (.start place) <;> exact nofun
    | stop place =>
      change lifecycleEvent ⟨.stop place, .ok (b log (.stop place))⟩ ≠ .unreleased
      cases b log (.stop place) <;> exact nofun
    | readinessChecks place => exact nofun

theorem exists_stopFailed (hlock : options.lock = true) {requests : List SupervisorRequest}
    (h : StopFailed (supervised options b requests).log) : ∃ earlier request,
      earlier ++ [request] <+: requests ∧ StopFailed (callsOf options b earlier request) := by
  induction requests using List.reverseRecOn with
  | nil =>
    obtain ⟨place, hp⟩ := h
    cases hp
  | append_singleton earlier request ih =>
    rw [(turned hlock earlier request).1] at h
    rcases stopFailed_append.mp h with h | h
    · obtain ⟨first, r, hpre, hf⟩ := ih h
      exact ⟨first, r, hpre.trans (List.prefix_append earlier [request]), hf⟩
    · exact ⟨earlier, request, List.prefix_rfl, h⟩

theorem log_grows (hlock : options.lock = true) {earlier requests : List SupervisorRequest}
    (h : earlier <+: requests) :
    (supervised options b earlier).log <+: (supervised options b requests).log := by
  induction requests using List.reverseRecOn with
  | nil =>
    cases List.prefix_nil.mp h
    exact List.prefix_rfl
  | append_singleton first request ih =>
    rcases List.prefix_concat_iff.mp h with rfl | h
    · exact List.prefix_rfl
    · exact (ih h).trans ⟨_, (turned hlock first request).1.symm⟩

theorem not_stopFailed_of_earlier {log log' : SupervisorLog} (hpre : log <+: log')
    (h : ¬ StopFailed log') : ¬ StopFailed log := by
  obtain ⟨more, rfl⟩ := hpre
  exact fun hf => h (stopFailed_append.mpr (.inl hf))

/-- As long as no stop fails, the lock is held when a unit runs. -/
theorem locked_of_running (hlock : options.lock = true) {requests : List SupervisorRequest}
    (h : ¬ StopFailed (supervised options b requests).log)
    (hrun : (supervised options b requests).supervisor.running ≠ []) :
    (supervised options b requests).supervisor.locked = true := by
  induction requests using List.reverseRecOn with
  | nil => exact absurd rfl hrun
  | append_singleton earlier request ih =>
    obtain ⟨hlog, hturn⟩ := turned (b := b) hlock earlier request
    rw [hlog] at h
    refine hturn.kept (fun hf => h (stopFailed_append.mpr (.inr hf))) (ih fun hf => ?_) hrun
    exact h (stopFailed_append.mpr (.inl hf))

/-- In a run of a supervisor with a lock that can be released, the lock covers the topology exactly
when no stop of a unit fails. -/
theorem covered_iff_stops_succeed (options : ProcessSupervisorOptions)
    (hlock : options.lock = true) (b : Behaviour) (hrelease : ∀ log, b log .release = .ok ())
    (requests : List SupervisorRequest) :
    Covered options b requests ↔ ¬ StopFailed (supervised options b requests).log := by
  constructor
  · intro hcovered hf
    obtain ⟨earlier, request, hpre, hf⟩ := exists_stopFailed hlock hf
    obtain ⟨hlog, hturn⟩ := turned (b := b) hlock earlier request
    have hrel := released options hrelease (earlier ++ [request])
    rw [hlog] at hrel
    obtain ⟨hrun, hfree⟩ := hturn.lost (fun c hc => hrel c (List.mem_append_right _ hc)) hf
    have ht := supervised_tracks (b := b) hlock (earlier ++ [request])
    have hheld := hcovered.locked _ hpre (by rwa [← ht.running])
    rw [← ht.locked, hfree] at hheld
    cases hheld
  · intro hn
    refine ⟨fun earlier hpre hup => ?_, fun earlier request hpre => ?_, fun earlier hpre hs hns => ?_⟩
    · have ht := supervised_tracks (b := b) hlock earlier
      rw [← ht.locked]
      rw [← ht.running] at hup
      exact locked_of_running hlock (not_stopFailed_of_earlier (log_grows hlock hpre) hn) hup
    · exact (turned hlock earlier request).2.reversed
    · obtain ⟨hlog, hturn⟩ := turned (b := b) hlock earlier .start
      have hrel := released options hrelease (earlier ++ [.start])
      rw [hlog] at hrel
      obtain ⟨hrun, hfree⟩ :=
        hturn.undone (fun c hc => hrel c (List.mem_append_right _ hc)) hs hns
      have ht := supervised_tracks (b := b) hlock (earlier ++ [.start])
      rw [← ht.running, ← ht.locked]
      exact ⟨hrun, hfree⟩

/-- Core and Runner under a lock. -/
def localOptions : ProcessSupervisorOptions := ⟨"0.1.0", ["core", "runner"], true⟩

/-- Units that start, and of which the Runner cannot be stopped. -/
def stubborn : Behaviour
  | _, .stop 1 => .error ⟨"ProcessReapTimedOut", "the process remained alive"⟩
  | _, .readinessChecks _ => .ok []
  | _, .acquire | _, .release | _, .start _ | _, .stop _ => .ok ()

/-- A Runner that does not start. -/
def unhealthy : Behaviour
  | _, .start 1 => .error ⟨"RunnerUnhealthy", "the Runner is not ready"⟩
  | _, .readinessChecks _ => .ok []
  | _, .acquire | _, .release | _, .start _ | _, .stop _ => .ok ()

/-- After a failed stop the Runner runs without the lock. -/
theorem unlocked_after_failed_stop : ¬ Covered localOptions stubborn [.start, .stop] := by
  intro h
  have hheld : lockHeld (supervised localOptions stubborn [.start, .stop]).log = true :=
    h.locked [.start, .stop] List.prefix_rfl (by decide)
  revert hheld
  decide

/-- A start that rolls back is covered. -/
theorem covered_after_rollback : Covered localOptions unhealthy [.start, .stop] := by
  refine (covered_iff_stops_succeed localOptions rfl unhealthy (fun _ => rfl) _).mpr ?_
  rintro ⟨place, hp⟩
  have hlog : (supervised localOptions unhealthy [.start, .stop]).log.map lifecycleEvent =
      [.acquired, .started 0, .startFailed 1, .stopped 0, .released] := by
    decide
  rw [hlog] at hp
  simp at hp

end Qualigence.Launcher
