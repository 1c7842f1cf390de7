import Qualigence.Runner.LeaseWindow
import Mathlib.Tactic.ByContra

/-! # The window and the lease in Core

The window is measured from the receipt of an answer, the lease from the time when Core set its
expiry. The margin makes up for answers that take no longer; a later answer to a renewal does no
harm as long as the renewals go on in time, but nothing limits how long the answer to the acceptance
takes.
-/

namespace Qualigence.Runner.AcceptedLeaseLifecycle

variable {o : LeaseOptions} {s s' : AcceptedLeaseLifecycle}

/-- The margin makes up for an answer that the Runner has handled so much later than Core set the
expiry; a margin as long as the lease leaves no window. -/
def WithinMargin (o : LeaseOptions) (delay : ℤ) : Prop :=
  delay ≤ o.actionDeadlineSafetyMarginMs ∨ o.leaseDurationMs ≤ o.actionDeadlineSafetyMarginMs

instance (o : LeaseOptions) (delay : ℤ) : Decidable (WithinMargin o delay) :=
  inferInstanceAs (Decidable (_ ∨ _))

/-- The lease lasts until the next renewal has been answered or given up. -/
def WithinRenewals (o : LeaseOptions) (delay : ℤ) : Prop :=
  delay + 2 * o.intervalMs < o.leaseDurationMs

instance (o : LeaseOptions) (delay : ℤ) : Decidable (WithinRenewals o delay) :=
  inferInstanceAs (Decidable (_ < _))

/-- The window has been neither closed nor aborted. -/
def Live (s : AcceptedLeaseLifecycle) : Prop := s.aborted = none ∧ s.window.closed = false

instance (s : AcceptedLeaseLifecycle) : Decidable s.Live := inferInstanceAs (Decidable (_ ∧ _))

/-- How long the answer took that the window was last set from. -/
def delay (s : AcceptedLeaseLifecycle) : ℤ := s.receivedAt - s.setAt

/-- The renewals go on in time, unless the last answer was within the margin: a timer fires when it
is due, a renewal is answered before its time limit, and the renewals are not stopped. -/
def InTime (o : LeaseOptions) (s : AcceptedLeaseLifecycle) : LeaseStep → Prop
  | .advance now => WithinMargin o s.delay ∨ match s.phase with
    | .waiting due | .renewing due => now ≤ due
    | .ended => True
  | .respond _ => match s.reply, s.phase with
    | some (.renewed setAt), .renewing due =>
      WithinMargin o (s.now - setAt) ∨ s.now < due ∧ s.stopped = false
    | _, _ => True
  | .stop => WithinMargin o s.delay ∨ match s.phase with
    | .waiting _ => False
    | _ => True
  | _ => True

instance decidableInTime (o : LeaseOptions) (s : AcceptedLeaseLifecycle) :
    (a : LeaseStep) → Decidable (InTime o s a)
  | .advance now => by
    unfold InTime
    cases s.phase <;> infer_instance
  | .respond _ => by
    unfold InTime
    rcases s.reply with _ | _ | _ <;> cases s.phase <;> infer_instance
  | .stop => by
    unfold InTime
    cases s.phase <;> infer_instance
  | .wake | .coreRenews | .coreRefuses | .timeOut | .abortCaller | .authorize _ | .checkLease =>
    isTrue trivial

/-- A run from a state, in which the renewals go on in time for as long as the window is live. -/
inductive RunInTime (o : LeaseOptions) : AcceptedLeaseLifecycle → AcceptedLeaseLifecycle → Prop
  | refl (s : AcceptedLeaseLifecycle) : RunInTime o s s
  | step {s s' s'' : AcceptedLeaseLifecycle} {a : LeaseStep} (earlier : RunInTime o s s')
      (inTime : s'.Live → InTime o s' a) (next : s'.step o a = some s'') : RunInTime o s s''

/-- The renewals cover the time until the next one is answered. -/
structure Renewing (o : LeaseOptions) (s : AcceptedLeaseLifecycle) : Prop where
  delay : WithinRenewals o s.delay
  due : match s.phase with
    | .waiting due => s.now ≤ due ∧ due ≤ s.receivedAt + o.intervalMs
    | .renewing due => s.now ≤ due ∧ due ≤ s.receivedAt + 2 * o.intervalMs
    | .ended => False

/-- What holds of a lifecycle at any time. -/
structure Sound (o : LeaseOptions) (s : AcceptedLeaseLifecycle) : Prop where
  received : s.setAt ≤ s.receivedAt ∧ s.receivedAt ≤ s.now
  stored : o.coreNow s.setAt + o.leaseDurationMs ≤ s.expiresAt
  bounded : s.expiresAt ≤ o.coreNow s.now + o.leaseDurationMs
  deadline : s.window.deadlineMonotonic =
    o.monotonicNow s.receivedAt + o.leaseDurationMs - o.actionDeadlineSafetyMarginMs
  reply : ∀ setAt, s.reply = some (.renewed setAt) → setAt ≤ s.now ∧
    o.coreNow setAt + o.leaseDurationMs ≤ s.expiresAt ∧
    ∀ due, s.phase = .renewing due → due - o.intervalMs ≤ setAt
  request : s.request = true → ∀ due, s.phase = .renewing due → due - o.intervalMs ≤ s.now
  idle : ∀ due, s.phase = .waiting due → s.request = false ∧ s.reply = none
  single : s.request = true → s.reply = none
  covered : s.Live → WithinMargin o s.delay ∨ Renewing o s

theorem one_le_interval : 1 ≤ o.intervalMs := Nat.le_max_left 1 _

/-- A renewal that is answered before its time limit is covered. -/
theorem within_of_answered {d : ℤ} (hd : d < o.intervalMs) :
    WithinMargin o d ∨ WithinRenewals o d := by
  unfold WithinMargin WithinRenewals LeaseOptions.intervalMs at *
  omega

theorem accepted_sound {setAt receivedAt wallNow : ℤ} (hle : setAt ≤ receivedAt)
    (hd : WithinMargin o (receivedAt - setAt) ∨ WithinRenewals o (receivedAt - setAt)) :
    Sound o (accepted o setAt receivedAt wallNow) where
  received := ⟨hle, Int.le_refl _⟩
  stored := Int.le_refl _
  bounded := by
    change setAt + o.coreOffset + _ ≤ receivedAt + o.coreOffset + _
    omega
  deadline := rfl
  reply := nofun
  request := nofun
  idle := fun _ _ => ⟨rfl, rfl⟩
  single := nofun
  covered := fun _ => hd.imp id fun hd => ⟨hd, by
    change receivedAt ≤ receivedAt + _ ∧ receivedAt + _ ≤ receivedAt + _
    omega⟩

/-- As long as the window authorizes an action, the lease has not expired. -/
theorem Sound.not_expired (hs : Sound o s) {wallNow : ℤ}
    (h : (s.assertActionAuthorized o wallNow).1 = .ok ()) : ¬ s.Expired o := by
  have hlive : s.Live ∧ o.monotonicNow s.now < s.window.deadlineMonotonic := by
    unfold assertActionAuthorized LeaseWindow.mayStartAction at h
    cases ha : s.aborted with
    | some reason =>
      rw [ha] at h
      cases h
    | none =>
      rw [ha] at h
      cases hc : s.window.closed with
      | true => simp [hc] at h
      | false =>
        refine ⟨⟨ha, hc⟩, Int.not_le.mp fun hge => ?_⟩
        simp [hc, hge] at h
  obtain ⟨hlive, hnow⟩ := hlive
  have hdeadline := hs.deadline
  have hstored := hs.stored
  have hreceived := hs.received
  unfold Expired
  unfold LeaseOptions.monotonicNow at hnow hdeadline
  unfold LeaseOptions.coreNow at hstored ⊢
  rcases hs.covered hlive with hm | ⟨hd, hdue⟩
  · unfold WithinMargin delay at hm
    omega
  · unfold WithinRenewals delay at hd
    cases hp : s.phase <;> simp only [hp] at hdue <;> omega

theorem not_live_of_closed (h : s.window.closed = true) : ¬ s.Live := by
  intro hl
  rw [hl.2] at h
  cases h

/-- A step that leaves the lease in Core, the messages and the last answer as they are. -/
theorem Sound.frame (hs : Sound o s) (hnow : s'.now = s.now) (hexp : s'.expiresAt = s.expiresAt)
    (hreq : s'.request = s.request) (hreply : s'.reply = s.reply)
    (hdeadline : s'.window.deadlineMonotonic = s.window.deadlineMonotonic)
    (hphase : s'.phase = s.phase ∨ s'.phase = .ended) (hset : s'.setAt = s.setAt)
    (hrec : s'.receivedAt = s.receivedAt)
    (hcov : s'.Live → WithinMargin o s'.delay ∨ Renewing o s') : Sound o s' where
  received := by
    rw [hset, hrec, hnow]
    exact hs.received
  stored := by
    rw [hset, hexp]
    exact hs.stored
  bounded := by
    rw [hexp, hnow]
    exact hs.bounded
  deadline := by
    rw [hdeadline, hrec]
    exact hs.deadline
  reply := by
    intro setAt h
    obtain ⟨h1, h2, h3⟩ := hs.reply setAt (hreply ▸ h)
    rw [hnow, hexp]
    refine ⟨h1, h2, fun due hd => ?_⟩
    rcases hphase with hp | hp <;> rw [hp] at hd
    · exact h3 due hd
    · cases hd
  request := by
    intro h due hd
    rw [hnow]
    rcases hphase with hp | hp <;> rw [hp] at hd
    · exact hs.request (hreq ▸ h) due hd
    · cases hd
  idle := by
    intro due hd
    rw [hreq, hreply]
    rcases hphase with hp | hp <;> rw [hp] at hd
    · exact hs.idle due hd
    · cases hd
  single := by
    rw [hreq, hreply]
    exact hs.single
  covered := hcov

theorem Renewing.frame (h : Renewing o s) (hnow : s'.now = s.now) (hphase : s'.phase = s.phase)
    (hset : s'.setAt = s.setAt) (hrec : s'.receivedAt = s.receivedAt) : Renewing o s' := by
  refine ⟨?_, ?_⟩
  · have hd := h.delay
    unfold AcceptedLeaseLifecycle.delay at hd ⊢
    rwa [hset, hrec]
  · have hd := h.due
    rwa [hphase, hnow, hrec]

theorem delay_eq (hset : s'.setAt = s.setAt) (hrec : s'.receivedAt = s.receivedAt) :
    s'.delay = s.delay := by
  unfold delay
  rw [hset, hrec]

/-- The window is shut, and nothing else changes. -/
theorem Sound.shut (hs : Sound o s) (reason : AbortReason) : Sound o (s.shut reason) :=
  hs.frame rfl rfl rfl rfl rfl (.inl rfl) rfl rfl fun h => absurd h (not_live_of_closed rfl)

theorem Sound.fail (hs : Sound o s) (reason : AbortReason) : Sound o (s.fail reason) :=
  hs.frame rfl rfl rfl rfl rfl (.inr rfl) rfl rfl fun h => absurd h (not_live_of_closed rfl)

/-- An answer that nobody handles any more. -/
theorem Sound.dropReply (hs : Sound o s) : Sound o { s with reply := none } where
  received := hs.received
  stored := hs.stored
  bounded := hs.bounded
  deadline := hs.deadline
  reply := nofun
  request := hs.request
  idle := fun due hd => ⟨(hs.idle due hd).1, rfl⟩
  single := fun _ => rfl
  covered := fun h => (hs.covered h).imp id fun hr => ⟨hr.delay, hr.due⟩

theorem Sound.advance (hs : Sound o s) {now : ℤ} (hle : s.now ≤ now)
    (ht : s.Live → InTime o s (.advance now)) : Sound o { s with now := now } where
  received := ⟨hs.received.1, Int.le_trans hs.received.2 hle⟩
  stored := hs.stored
  bounded := by
    have hb := hs.bounded
    unfold LeaseOptions.coreNow at hb ⊢
    change s.expiresAt ≤ now + _ + _
    omega
  deadline := hs.deadline
  reply := fun setAt h =>
    have hr := hs.reply setAt h
    ⟨Int.le_trans hr.1 hle, hr.2⟩
  request := fun h due hd => Int.le_trans (hs.request h due hd) hle
  idle := hs.idle
  single := hs.single
  covered := by
    intro hlive
    rcases hs.covered hlive with hm | hr
    · exact .inl hm
    · rcases ht hlive with hm | hdue
      · exact .inl hm
      · refine .inr ⟨hr.delay, ?_⟩
        have hd := hr.due
        cases hp : s.phase <;> simp only [hp] at hd hdue ⊢ <;> omega

/-- The time to wait is over and a renewal is sent. -/
theorem Sound.send (hs : Sound o s) {due : ℤ} (hp : s.phase = .waiting due) (hdue : due ≤ s.now) :
    Sound o { s with phase := .renewing (s.now + o.intervalMs), request := true } where
  received := hs.received
  stored := hs.stored
  bounded := hs.bounded
  deadline := hs.deadline
  reply := by
    intro setAt h
    rw [(hs.idle due hp).2] at h
    cases h
  request := by
    rintro _ _ ⟨⟩
    change s.now + _ - _ ≤ s.now
    omega
  idle := nofun
  single := fun _ => (hs.idle due hp).2
  covered := by
    intro hlive
    rcases hs.covered hlive with hm | hr
    · exact .inl hm
    · refine .inr ⟨hr.delay, ?_⟩
      have hd := hr.due
      simp only [hp] at hd
      change s.now ≤ s.now + _ ∧ s.now + _ ≤ s.receivedAt + _
      omega

/-- Core extends the lease. -/
theorem Sound.extend (hs : Sound o s) (hreq : s.request = true) : Sound o { s with
      request := false
      reply := some (.renewed s.now)
      expiresAt := o.coreNow s.now + o.leaseDurationMs } where
  received := hs.received
  stored := Int.le_trans hs.stored hs.bounded
  bounded := Int.le_refl _
  deadline := hs.deadline
  reply := by
    rintro _ ⟨⟩
    exact ⟨Int.le_refl _, Int.le_refl _, fun due hd => hs.request hreq due hd⟩
  request := nofun
  idle := by
    intro due hd
    rw [(hs.idle due hd).1] at hreq
    cases hreq
  single := nofun
  covered := fun h => (hs.covered h).imp id fun hr => ⟨hr.delay, hr.due⟩

theorem Sound.refuse (hs : Sound o s) (hreq : s.request = true) :
    Sound o { s with request := false, reply := some .failed } where
  received := hs.received
  stored := hs.stored
  bounded := hs.bounded
  deadline := hs.deadline
  reply := by
    rintro _ ⟨⟩
  request := nofun
  idle := by
    intro due hd
    rw [(hs.idle due hd).1] at hreq
    cases hreq
  single := nofun
  covered := fun h => (hs.covered h).imp id fun hr => ⟨hr.delay, hr.due⟩

/-- The window is set from an answer. -/
theorem Sound.renewed (hs : Sound o s) {setAt due wallNow : ℤ}
    (hr : s.reply = some (.renewed setAt)) (hp : s.phase = .renewing due)
    (ht : s.Live → InTime o s (.respond wallNow)) : Sound o { s with
      reply := none
      window := s.window.renew o (o.monotonicNow s.now) wallNow
      phase := if s.stopped ∨ s.callerAborted then .ended else .waiting (s.now + o.intervalMs)
      setAt := setAt
      receivedAt := s.now } := by
  obtain ⟨hle, hexp, hasked⟩ := hs.reply setAt hr
  constructor
  · exact ⟨hle, Int.le_refl _⟩
  · exact hexp
  · exact hs.bounded
  · rfl
  · nofun
  · intro _ d hd
    split at hd <;> cases hd
  · intro d hd
    refine ⟨?_, rfl⟩
    cases hreq : s.request with
    | false => rfl
    | true =>
      rw [hs.single hreq] at hr
      cases hr
  · exact fun _ => rfl
  · intro hlive
    have hlive' : s.Live := hlive
    have hin := ht hlive'
    simp only [InTime, hr, hp] at hin
    rcases hin with hm | ⟨hnow, hstop⟩
    · exact .inl hm
    · have hshort : s.now - setAt < o.intervalMs := by
        have := hasked due hp
        omega
      refine (within_of_answered hshort).imp id fun hd => ⟨hd, ?_⟩
      have hcaller : s.callerAborted = false := by
        have ha := hlive'.1
        unfold aborted at ha
        cases hc : s.callerAborted with
        | false => rfl
        | true => simp [hc] at ha
      simp only [hstop, hcaller]
      change s.now ≤ s.now + _ ∧ s.now + _ ≤ s.now + _
      omega

theorem endWait_eq (phase : RenewalPhase) : endWait phase = phase ∨ endWait phase = .ended := by
  cases phase
  · exact .inr rfl
  · exact .inl rfl
  · exact .inl rfl

/-- What a step in time leaves sound. -/
theorem Sound.step (hs : Sound o s) {a : LeaseStep} (ht : s.Live → InTime o s a)
    (h : s.step o a = some s') : Sound o s' := by
  cases a with
  | advance now =>
    simp only [AcceptedLeaseLifecycle.step] at h
    split at h
    · next hle =>
      cases h
      exact hs.advance hle ht
    · cases h
  | wake =>
    simp only [AcceptedLeaseLifecycle.step] at h
    split at h
    · next due hp =>
      split at h
      · next hdue =>
        split at h <;> cases h
        · exact hs.fail _
        · exact hs.send hp hdue
      · cases h
    · cases h
  | coreRenews =>
    simp only [AcceptedLeaseLifecycle.step] at h
    split at h
    · next hreq =>
      split at h <;> cases h
      · exact hs.refuse hreq
      · exact hs.extend hreq
    · cases h
  | coreRefuses =>
    simp only [AcceptedLeaseLifecycle.step] at h
    split at h
    · next hreq =>
      cases h
      exact hs.refuse hreq
    · cases h
  | respond wallNow =>
    simp only [AcceptedLeaseLifecycle.step] at h
    obtain ⟨reply, hr, rfl⟩ := Option.map_eq_some_iff.mp h
    unfold handleReply
    split
    · next due setAt hp => exact hs.renewed hr hp ht
    · exact hs.dropReply.fail _
    · exact hs.dropReply
  | timeOut =>
    simp only [AcceptedLeaseLifecycle.step] at h
    split at h
    · split at h <;> cases h
      exact hs.fail _
    · cases h
  | stop =>
    cases h
    refine hs.frame rfl rfl rfl rfl rfl (endWait_eq s.phase) rfl rfl fun hlive => ?_
    rcases hs.covered hlive with hm | hr
    · exact .inl hm
    · rcases ht hlive with hm | hphase
      · exact .inl hm
      · refine .inr ⟨hr.delay, ?_⟩
        have hd := hr.due
        cases hp : s.phase <;> simp only [hp] at hd hphase <;> exact hd
  | abortCaller =>
    cases h
    refine hs.frame rfl rfl rfl rfl rfl (endWait_eq s.phase) rfl rfl fun hlive => ?_
    cases hlive.1
  | authorize wallNow =>
    cases h
    unfold assertActionAuthorized
    split
    · exact hs
    · split
      · exact hs
      · exact hs.shut _
  | checkLease =>
    cases h
    unfold assertLeaseActive
    split
    · exact hs
    · split
      · exact hs.shut _
      · exact hs

theorem Sound.run (hs : Sound o s) (hr : RunInTime o s s') : Sound o s' := by
  induction hr with
  | refl => exact hs
  | step _ ht hnext ih => exact ih.step ht hnext

/-! ## An acceptance that takes too long -/

/-- A window that has not been closed authorizes an action before its deadline. -/
theorem authorized_of_lt (hlive : s.Live)
    (hnow : o.monotonicNow s.now < s.window.deadlineMonotonic) :
    (s.assertActionAuthorized o s.window.baselineWall).1 = .ok () := by
  have hmay : s.window.mayStartAction (o.monotonicNow s.now) s.window.baselineWall = true := by
    unfold LeaseWindow.mayStartAction
    rw [hlive.2, if_neg Bool.false_ne_true, if_neg (Int.not_le.mpr hnow),
      if_neg (Int.lt_irrefl _)]
  unfold assertActionAuthorized
  rw [hlive.1]
  dsimp only
  rw [if_pos hmay]

/-- The lifecycle at a time before its first renewal has been answered. -/
theorem exists_run_to (o : LeaseOptions) (setAt receivedAt wallNow : ℤ) {now : ℤ} (hge : receivedAt ≤ now)
    (hle : now ≤ receivedAt + 2 * o.intervalMs) (hexp : now < receivedAt + o.leaseDurationMs) :
    ∃ s, RunInTime o (accepted o setAt receivedAt wallNow) s ∧ s.Live ∧ s.now = now ∧
      s.window = (accepted o setAt receivedAt wallNow).window ∧
      s.expiresAt = (accepted o setAt receivedAt wallNow).expiresAt := by
  by_cases hfirst : now ≤ receivedAt + o.intervalMs
  · refine ⟨{ accepted o setAt receivedAt wallNow with now := now },
      .step (.refl _) (a := .advance now) (fun _ => .inr hfirst) (if_pos hge), ⟨rfl, rfl⟩, rfl, rfl,
      rfl⟩
  · have hsend := Int.not_le.mp hfirst
    have hwait : receivedAt ≤ receivedAt + o.intervalMs := by omega
    have hopen : ¬ (accepted o setAt receivedAt wallNow).window.hasExpired
        (o.monotonicNow (receivedAt + o.intervalMs)) := by
      intro h
      have h := of_decide_eq_true h
      change receivedAt + o.monotonicOffset + _ ≤ receivedAt + _ + o.monotonicOffset at h
      omega
    have h₁ : RunInTime o (accepted o setAt receivedAt wallNow)
        { accepted o setAt receivedAt wallNow with now := receivedAt + o.intervalMs } :=
      .step (.refl _) (a := .advance _) (fun _ => .inr (Int.le_refl _)) (if_pos hwait)
    have h₂ := RunInTime.step h₁ (a := .wake) (fun _ => trivial)
      ((if_pos (Int.le_refl _)).trans (if_neg hopen))
    refine ⟨_, .step h₂ (a := .advance now) (fun _ => .inr ?_) (if_pos (Int.le_of_lt hsend)),
      ⟨rfl, rfl⟩, rfl, rfl, rfl⟩
    change now ≤ receivedAt + o.intervalMs + o.intervalMs
    omega

/-- Under renewals that go on in time, every action is authorized under a lease that has not
expired, exactly when the answer to the acceptance is handled soon enough after Core has granted the
lease: within the margin, or so soon that the lease lasts until the first renewal is answered. -/
theorem conservative_iff (o : LeaseOptions) (setAt wallNow : ℤ) (delay : ℕ) :
    (∀ s, RunInTime o (accepted o setAt (setAt + delay) wallNow) s → ∀ wallNow,
      (s.assertActionAuthorized o wallNow).1 = .ok () → ¬ s.Expired o) ↔
    WithinMargin o delay ∨ WithinRenewals o delay := by
  constructor
  · intro h
    by_contra hlate
    obtain ⟨hmargin, hrenewals⟩ := not_or.mp hlate
    unfold WithinMargin at hmargin
    unfold WithinRenewals at hrenewals
    -- the time when the lease expires, or when it is received if that is later
    obtain ⟨s, hrun, hlive, hnow, hwindow, hexp⟩ :=
      exists_run_to o setAt (setAt + delay) wallNow
        (show setAt + delay ≤ max (setAt + delay) (setAt + o.leaseDurationMs : ℤ) by omega)
        (by omega) (by omega)
    refine h s hrun s.window.baselineWall (authorized_of_lt hlive ?_) ?_
    · rw [hnow, hwindow]
      change max _ _ + _ < setAt + delay + _ + _ - _
      omega
    · unfold Expired
      rw [hnow, hexp]
      change setAt + _ + _ ≤ max _ _ + _
      omega
  · intro hd s hrun wallNow' hauth
    have hd' : WithinMargin o (setAt + delay - setAt) ∨ WithinRenewals o (setAt + delay - setAt) := by
      rwa [show setAt + (delay : ℤ) - setAt = delay by omega]
    exact ((accepted_sound (by omega) hd').run hrun).not_expired hauth

/-- The durations that the repository uses by default. -/
def defaultLease : LeaseOptions := ⟨30000, 2000, 0, 0⟩

/-- The answer to the acceptance has taken twelve seconds; the first renewal is on its way when the
lease expires, and an action is still authorized. -/
theorem authorized_after_expiry : ∃ s, RunInTime defaultLease (accepted defaultLease 0 12000 0) s ∧
    (s.assertActionAuthorized defaultLease 0).1 = .ok () ∧ s.Expired defaultLease := by
  have h₁ : RunInTime defaultLease (accepted defaultLease 0 12000 0)
      { accepted defaultLease 0 12000 0 with now := 22000 } :=
    .step (.refl _) (a := .advance 22000) (fun _ => by decide) rfl
  have h₂ := RunInTime.step h₁ (a := .wake) (fun _ => trivial) rfl
  have h₃ := RunInTime.step h₂ (a := .advance 30000) (fun _ => .inr (by decide)) rfl
  exact ⟨_, h₃, rfl, Int.le_refl 30000⟩

end Qualigence.Runner.AcceptedLeaseLifecycle
