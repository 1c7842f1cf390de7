import Qualigence.Core.Footprint

/-! # Live sessions and the tokens they resume by

Opening a session sets it live as its last step, and closing one removes it as its first. A
hello with a resume token opens the session that its token is bound to; without a token it
opens a new one. No other call touches live sessions or tokens.
-/

namespace Qualigence.Core

open Foundation Protocol Lease

section Sessions

variable {τ : Type} [DecidableEq τ] {P : Platform} {O : Oracle} {scope : τ} {w t : World τ}

/-- Live sessions and resume tokens are the same. -/
structure SameSessions (w t : World τ) : Prop where
  live : t.live = w.live
  tokens : t.db.tokens = w.db.tokens

omit [DecidableEq τ] in
theorem SameSessions.refl (w : World τ) : SameSessions w w := ⟨rfl, rfl⟩

omit [DecidableEq τ] in
theorem SameSessions.trans {u : World τ} (h : SameSessions w t) (h' : SameSessions t u) :
    SameSessions w u :=
  ⟨h'.live.trans h.live, h'.tokens.trans h.tokens⟩

omit [DecidableEq τ] in
theorem sameSessions_onDb {α : Type} {f : RunnerControlDb τ → StoreResult τ α}
    (h : (f w.db).2.tokens = w.db.tokens) : SameSessions w (w.onDb O f).2 := by
  refine ⟨?_, ?_⟩
  · unfold World.onDb
    cases O.fault w.draws <;> rfl
  · rcases onDb_db (O := O) (w := w) f with he | he
    · rw [he]
    · rw [he, h]

omit [DecidableEq τ] in
/-- A step that is answered took effect with that answer. -/
theorem ok_of_onDb {α : Type} {f : RunnerControlDb τ → StoreResult τ α} {a : α}
    (h : (w.onDb O f).1 = .ok a) : (f w.db).1 = .ok a := by
  unfold World.onDb at h
  cases hf : O.fault w.draws with
  | none =>
    simp only [hf] at h
    cases hr : (f w.db).1 with
    | error e =>
      rw [hr] at h
      cases h
    | ok b =>
      rw [hr] at h
      cases h
      rfl
  | before =>
    simp only [hf] at h
    cases h
  | after =>
    simp only [hf] at h
    cases h

omit [DecidableEq τ] in
theorem sameSessions_onTrace {α : Type} (f : Trace.TraceDb → Trace.TraceResult α) :
    SameSessions w (w.onTrace O f).2 := by
  unfold World.onTrace
  cases O.fault w.draws <;> exact ⟨rfl, rfl⟩

theorem sameSessions_saveSession (record : PersistedRunnerSession) :
    SameSessions w (handler P O scope (.saveSession record) w).2 := by
  refine sameSessions_onDb ?_
  unfold RunnerControlStore.saveSession
  split <;> rfl

/-- An operation that writes no sessions leaves them as they are. -/
theorem sameSessions_handler {op : CoreOp} (h : op.writes ≠ .sessions) :
    SameSessions w (handler P O scope op w).2 := by
  cases op with
  | saveSession record => exact absurd rfl h
  | closeSession sessionId closedAt => exact absurd rfl h
  | issueResumeToken tokenHash binding expiresAt => exact absurd rfl h
  | rotateResumeToken input => exact absurd rfl h
  | setSession record => exact absurd rfl h
  | deleteSession sessionId => exact absurd rfl h
  | grantLease input =>
    refine sameSessions_onDb ?_
    unfold RunnerControlStore.grantLease
    split <;> rfl
  | renewLease input =>
    refine sameSessions_onDb ?_
    unfold RunnerControlStore.renewLease
    dsimp only
    split <;> rfl
  | completeLease input =>
    refine sameSessions_onDb ?_
    unfold RunnerControlStore.completeLease RunnerControlStore.completeBound
    repeat' split
    all_goals try dsimp only
    all_goals repeat' split
    all_goals rfl
  | markLeaseLost runId lostAt =>
    refine sameSessions_onDb ?_
    unfold RunnerControlStore.markLeaseLost
    rfl
  | lease runId => exact sameSessions_onDb rfl
  | completion runId => exact sameSessions_onDb rfl
  | appendTraceEvent event => exact sameSessions_onTrace _
  | appendFinding finding payloadHash => exact sameSessions_onTrace _
  | _ => exact ⟨rfl, rfl⟩

theorem ends_sessions {α : Type} {parts : Part → Bool} (hc : parts .sessions = false)
    {p : Service α} (hp : p.Uses (Writes parts)) :
    p.Ends (handler P O scope) (fun _ t => SameSessions w t) w := by
  refine Program.run_of_uses (R := SameSessions) .refl (fun _ _ _ h h' => h.trans h')
    (fun op s hop => sameSessions_handler fun he => ?_) hp w
  unfold Writes at hop
  rw [he, hc] at hop
  cases hop

/-- Neither opens nor closes a session. -/
def AppCall.keepsSessions : AppCall → Bool
  | .openSession _ _ | .closeSession _ => false
  | _ => true

variable {o : CoreOptions}

theorem sameSessions_call {call : AppCall} (h : call.keepsSessions) :
    SameSessions w ((call.body o).run (handler o.platform O scope) w).2 := by
  cases call with
  | openSession hello identity => cases h
  | createOffer sessionId job requirements =>
    exact ends_sessions (show offering .sessions = false from rfl) (Program.uses_bind
      (CoreRunnerProtocolApplication.uses_createOffer o _ _ _) fun _ => trivial)
  | accept sessionId offerId =>
    exact ends_sessions (show offering .sessions = false from rfl) (Program.uses_bind
      (CoreRunnerProtocolApplication.uses_accept o _ _) fun _ => trivial)
  | renew sessionId lease =>
    exact ends_sessions (show leasing .sessions = false from rfl) (Program.uses_bind
      (CoreRunnerProtocolApplication.uses_renew o _ _) fun _ => trivial)
  | ingest sessionId batch =>
    exact ends_sessions (show ingesting .sessions = false from rfl) (Program.uses_bind
      (RunnerSessionService.uses_ingest o _ _) fun _ => trivial)
  | complete sessionId lease completion =>
    exact ends_sessions (show settling .sessions = false from rfl) (Program.uses_bind
      (CoreRunnerProtocolApplication.uses_complete o _ _ _) fun _ => trivial)
  | closeSession sessionId => cases h

/-! ## Opening and closing -/

/-- The session that the token of a hello is bound to. -/
def boundSession (scope : τ) (o : CoreOptions) (w : World τ) (hello : RunnerHello) :
    Option String :=
  hello.resumeToken.bind fun token =>
    (w.db.tokens.get (scope, RunnerResumeTokenService.hashToken o token)).map
      (·.binding.previousSessionId)

/-- The session that a hello opens: any new one without a token, and otherwise the one that
its token is bound to. -/
def Reopens (scope : τ) (o : CoreOptions) (w : World τ) (hello : RunnerHello)
    (sessionId : String) : Prop :=
  hello.resumeToken = none ∨ boundSession scope o w hello = some sessionId

theorem reopens_congr {hello : RunnerHello} {sessionId : String}
    (h : t.db.tokens = w.db.tokens) :
    Reopens scope o t hello sessionId ↔ Reopens scope o w hello sessionId := by
  unfold Reopens boundSession
  rw [h]

/-- Rotation answers with the binding of the presented token. -/
theorem binding_of_rotate {input : RotateResumeTokenInput} {db : RunnerControlDb τ}
    {outcome : RotateOutcome} {binding : ResumeTokenBinding}
    (h : (RunnerControlStore.rotateResumeToken scope input db).1 = .ok (some (outcome, binding))) :
    (db.tokens.get (scope, input.presentedTokenHash)).map (·.binding) = some binding := by
  unfold RunnerControlStore.rotateResumeToken at h
  split at h
  · cases h
  next row hrow =>
  rw [hrow]
  split at h
  · cases h
  split at h
  · cases h
  split at h
  · split at h
    · cases h
    · cases h
      rfl
  · cases h
    rfl

theorem ends_redeem (token : String) (presented : ResumePresentedIdentity) :
    (RunnerResumeTokenService.redeem o token presented).Ends (handler P O scope)
      (fun r t => t.live = w.live ∧ ∀ binding replacement, r = .ok (binding, replacement) →
        (w.db.tokens.get (scope, RunnerResumeTokenService.hashToken o token)).map (·.binding) =
          some binding) w := by
  refine Program.ends_bind (fun _ t => t.db = w.db ∧ t.live = w.live)
    (ends_perform .now ⟨rfl, rfl⟩) ?_
  rintro n t ⟨hdb, hlive⟩
  refine Program.ends_bind (fun _ u => u.db = w.db ∧ u.live = w.live)
    (Program.ends_bind (fun _ u => u.db = w.db ∧ u.live = w.live)
      (ends_perform .now ⟨hdb, hlive⟩) fun _ u hu => hu) ?_
  rintro rotatedAt u ⟨hdb, hlive⟩
  refine Program.ends_bind (fun result v => v.live = w.live ∧
    ∀ outcome binding, result = some (outcome, binding) →
      (w.db.tokens.get (scope, RunnerResumeTokenService.hashToken o token)).map (·.binding) =
        some binding) (ends_perform (.rotateResumeToken _) ?_) ?_
  · have hl : ∀ input, (handler P O scope (.rotateResumeToken input) u).2.live = u.live := by
      intro input
      change (u.onDb O _).2.live = u.live
      unfold World.onDb
      cases O.fault u.draws <;> rfl
    split
    · next result hr =>
      refine ⟨(hl _).trans hlive, ?_⟩
      rintro outcome binding rfl
      have hb := binding_of_rotate (ok_of_onDb hr)
      rw [hdb] at hb
      exact hb
    · exact ⟨(hl _).trans hlive, by rintro _ _ ⟨⟩⟩
  · rintro (_ | ⟨outcome, binding⟩) v ⟨hv, hb⟩
    · exact ⟨hv, by rintro _ _ ⟨⟩⟩
    · refine ⟨hv, ?_⟩
      rintro _ _ ⟨⟩
      exact hb outcome binding rfl

theorem ends_issue (binding : ResumeTokenBinding) :
    (RunnerResumeTokenService.issue o binding).Ends (handler P O scope)
      (fun _ t => t.live = w.live) w := by
  refine Program.ends_bind (fun _ t => t.live = w.live) (ends_perform .generate rfl) ?_
  intro token t ht
  refine Program.ends_bind (fun _ u => u.live = w.live) (ends_perform .now ht) ?_
  intro n u hu
  refine Program.ends_bind (fun _ v => v.live = w.live)
    (ends_perform (.issueResumeToken _ _ _) ?_) fun _ v hv => hv
  have hl : (handler P O scope (.issueResumeToken (RunnerResumeTokenService.hashToken o token)
      binding (toISOString (n + o.resumeTtlMs))) u).2.live = w.live := by
    rw [← hu]
    change (u.onDb O _).2.live = u.live
    unfold World.onDb
    cases O.fault u.draws <;> rfl
  split <;> exact hl

/-- What opening a session does to the live sessions. -/
def Opened (scope : τ) (o : CoreOptions) (hello : RunnerHello) (w : World τ)
    (r : Except CoreError RunnerWelcome) (t : World τ) : Prop :=
  match r with
  | .ok welcome => Reopens scope o w hello welcome.sessionId ∧
    ∃ record, t.live = Function.update w.live welcome.sessionId (some record)
  | .error _ => t.live = w.live

/-- The end of a handshake: the session is stored and set live. -/
theorem ends_enroll {hello : RunnerHello} {record : Timestamp → PersistedRunnerSession}
    {session : RunnerSessionRecord} {welcome : RunnerWelcome}
    (hid : welcome.sessionId = session.sessionId)
    (hre : Reopens scope o w hello session.sessionId) (hlive : t.live = w.live) :
    Program.Ends (handler P O scope) (Opened scope o hello w) (do
      let createdAt ← nowIso
      perform (.saveSession (record createdAt))
      perform (.setSession session)
      return welcome) t := by
  refine Program.ends_bind (fun _ u => u.live = w.live)
    (Program.ends_bind (fun _ u => u.live = w.live) (ends_perform .now hlive)
      fun _ u hu => hu) ?_
  intro createdAt u hlive
  refine Program.ends_bind (fun _ v => v.live = w.live)
    (ends_perform (.saveSession (record createdAt)) ?_) ?_
  · have hs : (handler P O scope (.saveSession (record createdAt)) u).2.live = w.live :=
      (sameSessions_saveSession _).live.trans hlive
    split <;> exact hs
  intro _ v hlive
  refine Program.ends_bind (fun _ x => x.live = Function.update w.live session.sessionId
    (some session)) (ends_perform (.setSession session) ?_) fun _ x hx => ?_
  · rw [← hlive]
    rfl
  · rw [← hid] at hre hx
    exact ⟨hre, session, hx⟩

theorem ends_register (hello : RunnerHello) (identity : AuthenticatedRunnerContext) :
    (RunnerSessionService.register o hello identity).Ends (handler P O scope)
      (Opened scope o hello w) w := by
  unfold RunnerSessionService.register
  split
  · exact rfl
  dsimp only
  split
  · next token ht =>
    refine Program.ends_bind (fun x t => Reopens scope o w hello x.1.previousSessionId ∧
      t.live = w.live) ((ends_redeem token _).mono ?_) ?_
    · rintro (e | ⟨binding, replacement⟩) t ⟨hlive, hb⟩
      · exact hlive
      · have hrow := hb binding replacement rfl
        obtain ⟨row, hget, rfl⟩ := Option.map_eq_some_iff.mp hrow
        refine ⟨.inr ?_, hlive⟩
        unfold boundSession
        rw [ht, Option.bind_some, hget]
        rfl
    · rintro ⟨binding, replacement⟩ t ⟨hre, hlive⟩
      exact ends_enroll rfl hre hlive
  · next ht =>
    refine Program.ends_bind (fun _ t => t.live = w.live) (ends_perform .generate rfl) ?_
    intro sessionId t hlive
    refine Program.ends_bind (fun _ u => u.live = w.live) ((ends_issue _).mono ?_) ?_
    · rintro (e | token) u hu
      · exact hu.trans hlive
      · exact hu.trans hlive
    · intro token u hlive
      exact ends_enroll rfl (.inl ht) hlive

/-- A closed session is not live, and everything else is as it was. -/
theorem closed_closeSession (scope : τ) (sessionId : String) :
    (RunnerSessionService.closeSession sessionId).Ends (handler P O scope)
      (fun _ t => t.live = Function.update w.live sessionId none ∧
        t.db.tokens = w.db.tokens) w := by
  refine Program.ends_bind (fun _ t => t.live = Function.update w.live sessionId none ∧
    t.db.tokens = w.db.tokens) (ends_perform (.deleteSession sessionId) ⟨rfl, rfl⟩) ?_
  intro _ t ht
  refine Program.ends_bind (fun _ u => u.live = Function.update w.live sessionId none ∧
    u.db.tokens = w.db.tokens) (Program.ends_bind (fun _ u =>
      u.live = Function.update w.live sessionId none ∧ u.db.tokens = w.db.tokens)
        (ends_perform .now ht) fun _ u hu => hu) ?_
  intro closedAt u hu
  refine ends_perform (.closeSession sessionId closedAt) ?_
  have hs : SameSessions u (handler P O scope (.closeSession sessionId closedAt) u).2 :=
    sameSessions_onDb rfl
  exact ⟨hs.live.trans hu.1, hs.tokens.trans hu.2⟩

end Sessions

end Qualigence.Core
