import Qualigence.Desktop.Permit

/-! # One permit, one action

A session performs its operations one after another and keeps what each of them was answered.
An authorized action leads back to the permit that was minted for it, and a permit that is
pending leads back to an operation after which the session was not stopped.
-/

namespace Qualigence.Desktop

inductive CompanionOp where
  | requestPermit (request : ApprovalRequest) (binding : PermitBinding)
  | authorizeAction (token : String) (presented : PermitBinding)
  | pause
  | resume
  | emergencyStop
  | expirePermitsForDiagnostic
  | resetSession (newSessionId : String)
  deriving DecidableEq

inductive CompanionOutcome where
  | requested (outcome : PermitRequestOutcome)
  | authorized
  | refused (error : PermitError)
  | done
  deriving DecidableEq

/-- An operation with the companion before it and its outcome. -/
structure Event (α : Type) where
  op : CompanionOp
  before : Companion α
  outcome : CompanionOutcome

structure Session (α : Type) where
  companion : Companion α
  events : List (Event α)

section Runs

variable {α : Type} (E : Environment) (A : Approver α)

def Companion.perform (c : Companion α) (n : ℕ) : CompanionOp → CompanionOutcome × Companion α
  | .requestPermit request binding =>
    let (outcome, c) := c.requestPermit E A n request binding
    (.requested outcome, c)
  | .authorizeAction token presented =>
    match c.authorizeAction E n token presented with
    | (.ok (), c) => (.authorized, c)
    | (.error error, c) => (.refused error, c)
  | .pause => (.done, c.pause)
  | .resume => (.done, c.resume)
  | .emergencyStop => (.done, c.emergencyStop)
  | .expirePermitsForDiagnostic => (.done, c.expirePermitsForDiagnostic)
  | .resetSession newSessionId => (.done, c.resetSession newSessionId)

def Session.step (s : Session α) (op : CompanionOp) : Session α :=
  let (outcome, companion) := s.companion.perform E A s.events.length op
  ⟨companion, s.events ++ [⟨op, s.companion, outcome⟩]⟩

/-- A session without permits. -/
def Session.start (sessionId runId : String) (approver : α) (ttlMs : ℕ) : Session α :=
  ⟨.new sessionId ⟨runId, .new, approver⟩ (.new ttlMs), []⟩

def Session.runs (s : Session α) (ops : List CompanionOp) : Session α :=
  ops.foldl (Session.step E A) s

end Runs

variable {α : Type}

namespace Event

/-- The operation mints the permit. -/
def Issues (permit : IssuedPermit) (e : Event α) : Prop :=
  e.outcome = .requested (.issued permit)

/-- The operation authorizes an action with the token. -/
def Authorizes (token : String) (presented : PermitBinding) (e : Event α) : Prop :=
  e.op = .authorizeAction token presented ∧ e.outcome = .authorized

def Stops (e : Event α) : Prop := e.op = .emergencyStop

def Resets (e : Event α) : Prop := ∃ newSessionId, e.op = .resetSession newSessionId

end Event

/-- The event with the index has the property. -/
def At (events : List (Event α)) (i : ℕ) (P : Event α → Prop) : Prop :=
  ∃ e, events[i]? = some e ∧ P e

variable {events : List (Event α)} {e : Event α} {i j k : ℕ} {P Q : Event α → Prop}
  {token : String} {presented : PermitBinding}

theorem At.lt_length (h : At events i P) : i < events.length := by
  obtain ⟨e, he, -⟩ := h
  exact (List.getElem?_eq_some_iff.mp he).1

theorem At.imp (h : At events i P) (hPQ : ∀ e, P e → Q e) : At events i Q := by
  obtain ⟨e, he, hP⟩ := h
  exact ⟨e, he, hPQ e hP⟩

theorem at_append : At (events ++ [e]) i P ↔ At events i P ∨ (i = events.length ∧ P e) := by
  unfold At
  constructor
  · rintro ⟨e', he', hP⟩
    rcases Nat.lt_trichotomy i events.length with hi | rfl | hi
    · rw [List.getElem?_append_left hi] at he'
      exact .inl ⟨e', he', hP⟩
    · rw [List.getElem?_concat_length] at he'
      cases he'
      exact .inr ⟨rfl, hP⟩
    · rw [List.getElem?_append_right hi.le, List.getElem?_singleton, if_neg (by omega)] at he'
      cases he'
  · rintro (⟨e', he', hP⟩ | ⟨rfl, hP⟩)
    · have hi := (List.getElem?_eq_some_iff.mp he').1
      exact ⟨e', (List.getElem?_append_left hi).trans he', hP⟩
    · exact ⟨e, List.getElem?_concat_length, hP⟩

theorem At.append (h : At events i P) : At (events ++ [e]) i P := at_append.mpr (.inl h)

theorem at_append_of_lt (hi : i < events.length) : At (events ++ [e]) i P ↔ At events i P := by
  rw [at_append]
  exact or_iff_left fun h => by omega

/-! ## What the operations do -/

variable {E : Environment} {A : Approver α} {c c' : Companion α} {s : Session α} {n : ℕ}

theorem consume_cases (E : Environment) (store : PermitStore) (n : ℕ) (control : SessionControl)
    (token : String) (presented : PermitBinding) :
    (∃ error, store.consume E n control token presented = (.error error, store)) ∨
    (control.state = .active ∧ presented.risk ≠ .productionForbidden ∧
      ∃ entry, store.entries (PermitStore.tokenHash E token) = some entry ∧
        entry.consumed = false ∧ E.nowMs n < entry.expiresAtMs ∧ entry.binding = presented ∧
        store.consume E n control token presented =
          (.ok (), store.insert (PermitStore.tokenHash E token)
            { entry with consumed := true })) := by
  unfold PermitStore.consume
  split
  · exact .inl ⟨_, rfl⟩
  next hstopped =>
  split
  · exact .inl ⟨_, rfl⟩
  next hpaused =>
  split
  · exact .inl ⟨_, rfl⟩
  next hrisk =>
  dsimp only
  split
  · exact .inl ⟨_, rfl⟩
  next entry hentry =>
  split
  · exact .inl ⟨_, rfl⟩
  next hconsumed =>
  split
  · exact .inl ⟨_, rfl⟩
  next hexpired =>
  split
  · exact .inl ⟨_, rfl⟩
  next hbinding =>
  simp only [Bool.not_eq_true', Bool.not_eq_false] at hbinding
  have hactive : control.state = .active :=
    SessionControl.state_eq_active.mpr ⟨by simpa using hstopped, by simpa using hpaused⟩
  exact .inr ⟨hactive, hrisk, entry, hentry, by simpa using hconsumed, by omega,
    constantTimeBindingEq_iff.mp hbinding, rfl⟩

/-- The permit that is minted in the operation with the number. -/
def mintedPermit (E : Environment) (store : PermitStore) (n : ℕ) (binding : PermitBinding) :
    IssuedPermit :=
  (store.issue E n binding).1

theorem requestPermit_cases (c : Companion α) (n : ℕ) (request : ApprovalRequest)
    (binding : PermitBinding) :
    (∃ decision approval, approval.control = c.approval.control ∧
      c.requestPermit E A n request binding = (.rejected decision, { c with approval })) ∨
    ((c.approval.decide A request).1 = .approved ∧
      ∃ approval, approval.control = c.approval.control ∧
        c.requestPermit E A n request binding =
          (.issued (mintedPermit E c.permits n binding),
            { c with approval, permits := (c.permits.issue E n binding).2 })) := by
  have hcontrol := control_decide A c.approval request
  unfold Companion.requestPermit
  split
  · next approval hdecide =>
    rw [hdecide] at hcontrol ⊢
    exact .inr ⟨rfl, approval, hcontrol, rfl⟩
  · next decision approval _ hdecide =>
    rw [hdecide] at hcontrol
    exact .inl ⟨decision, approval, hcontrol, rfl⟩

/-- The store after a permit is minted. -/
theorem entries_issue (store : PermitStore) (n : ℕ) (binding : PermitBinding) (h : String) :
    (store.issue E n binding).2.entries h =
      if h = PermitStore.tokenHash E (E.token n) then
        some ⟨binding, (mintedPermit E store n binding).expiresAtMs, false⟩
      else store.entries h := rfl

theorem issues_spec {op : CompanionOp} {permit : IssuedPermit}
    (h : (c.perform E A n op).1 = .requested (.issued permit)) :
    ∃ request binding, op = .requestPermit request binding ∧
      (c.approval.decide A request).1 = .approved ∧
      permit = mintedPermit E c.permits n binding := by
  unfold Companion.perform at h
  cases op with
  | requestPermit request binding =>
    rcases requestPermit_cases (E := E) (A := A) c n request binding with
      ⟨decision, approval, -, heq⟩ | ⟨happroved, approval, -, heq⟩
    · simp [heq] at h
    · simp only [heq, CompanionOutcome.requested.injEq, PermitRequestOutcome.issued.injEq] at h
      exact ⟨request, binding, rfl, happroved, h.symm⟩
  | authorizeAction token presented =>
    dsimp only at h
    split at h <;> cases h
  | pause => cases h
  | resume => cases h
  | emergencyStop => cases h
  | expirePermitsForDiagnostic => cases h
  | resetSession newSessionId => cases h

theorem authorizes_spec (h : (c.perform E A n (.authorizeAction token presented)).1 = .authorized) :
    c.state = .active ∧ presented.risk ≠ .productionForbidden ∧
      ∃ entry, c.permits.entries (PermitStore.tokenHash E token) = some entry ∧
        entry.consumed = false ∧ E.nowMs n < entry.expiresAtMs ∧ entry.binding = presented := by
  unfold Companion.perform Companion.authorizeAction at h
  rcases consume_cases E c.permits n c.approval.control token presented with
    ⟨error, heq⟩ | ⟨hactive, hrisk, entry, hentry, hconsumed, hnow, hbinding, -⟩
  · simp [heq] at h
  · exact ⟨hactive, hrisk, entry, hentry, hconsumed, hnow, hbinding⟩

/-- An entry of the store after an operation was there before, with a later expiry at most, or
the operation has minted its permit. -/
theorem entries_perform {op : CompanionOp} {hash : String} {entry : StoredPermit}
    (h : (c.perform E A n op).2.permits.entries hash = some entry) :
    op ≠ .emergencyStop ∧
    ((∃ old, c.permits.entries hash = some old ∧ entry.binding = old.binding ∧
        entry.expiresAtMs ≤ old.expiresAtMs ∧
        (entry.consumed = false → old.consumed = false ∧
          ∀ token presented, PermitStore.tokenHash E token = hash →
            op = .authorizeAction token presented →
            (c.perform E A n op).1 ≠ .authorized)) ∨
      ∃ binding, (c.perform E A n op).1 =
        .requested (.issued (mintedPermit E c.permits n binding)) ∧
        hash = PermitStore.tokenHash E (E.token n) ∧
        entry = ⟨binding, (mintedPermit E c.permits n binding).expiresAtMs, false⟩) := by
  have hsame : ∀ op : CompanionOp, (∀ token presented, op ≠ .authorizeAction token presented) →
      c.permits.entries hash = some entry →
      ∃ old, c.permits.entries hash = some old ∧ entry.binding = old.binding ∧
        entry.expiresAtMs ≤ old.expiresAtMs ∧
        (entry.consumed = false → old.consumed = false ∧
          ∀ token presented, PermitStore.tokenHash E token = hash →
            op = .authorizeAction token presented → (c.perform E A n op).1 ≠ .authorized) :=
    fun op hop hentry => ⟨entry, hentry, rfl, le_rfl,
      fun hfree => ⟨hfree, fun token presented _ heq => absurd heq (hop token presented)⟩⟩
  cases op with
  | requestPermit request binding =>
    refine ⟨nofun, ?_⟩
    rcases requestPermit_cases (E := E) (A := A) c n request binding with
      ⟨decision, approval, -, heq⟩ | ⟨-, approval, -, heq⟩
    · simp only [Companion.perform, heq] at h
      exact .inl (hsame _ nofun h)
    · simp only [Companion.perform, heq, entries_issue] at h
      split at h
      · next hhash =>
        cases h
        exact .inr ⟨binding, by simp [Companion.perform, heq], hhash, rfl⟩
      · exact .inl (hsame _ nofun h)
  | authorizeAction token presented =>
    refine ⟨nofun, .inl ?_⟩
    unfold Companion.perform Companion.authorizeAction at h ⊢
    rcases consume_cases E c.permits n c.approval.control token presented with
      ⟨error, heq⟩ | ⟨-, -, old, hold, hconsumed, -, -, heq⟩
    · simp only [heq] at h ⊢
      exact ⟨entry, h, rfl, le_rfl, fun hfree => ⟨hfree, nofun⟩⟩
    · simp only [heq, PermitStore.entries_insert] at h ⊢
      split at h
      · next hhash =>
        cases h
        exact ⟨old, hhash ▸ hold, rfl, le_rfl, nofun⟩
      · next hhash =>
        refine ⟨entry, h, rfl, le_rfl, fun hfree => ⟨hfree, fun token' presented' hh heq' => ?_⟩⟩
        cases heq'
        exact absurd hh.symm hhash
  | pause => exact ⟨nofun, .inl (hsame _ nofun h)⟩
  | resume => exact ⟨nofun, .inl (hsame _ nofun h)⟩
  | emergencyStop => simp [Companion.perform, Companion.emergencyStop] at h
  | expirePermitsForDiagnostic =>
    refine ⟨nofun, .inl ?_⟩
    obtain ⟨old, hold, rfl⟩ := Option.map_eq_some_iff.mp h
    exact ⟨old, hold, rfl, Nat.zero_le _, fun hfree => ⟨hfree, nofun⟩⟩
  | resetSession newSessionId => simp [Companion.perform, Companion.resetSession] at h

theorem emergencyStopped_perform {op : CompanionOp} (hreset : ∀ id, op ≠ .resetSession id)
    (h : c.approval.control.emergencyStopped = true) :
    (c.perform E A n op).2.approval.control.emergencyStopped = true := by
  cases op with
  | requestPermit request binding =>
    rcases requestPermit_cases (E := E) (A := A) c n request binding with
      ⟨decision, approval, hcontrol, heq⟩ | ⟨-, approval, hcontrol, heq⟩
    · simp [Companion.perform, heq, hcontrol, h]
    · simp [Companion.perform, heq, hcontrol, h]
  | authorizeAction token presented =>
    unfold Companion.perform Companion.authorizeAction
    rcases consume_cases E c.permits n c.approval.control token presented with
      ⟨error, heq⟩ | ⟨-, -, entry, -, -, -, -, heq⟩
    · simpa [heq] using h
    · simpa [heq] using h
  | pause => simpa [Companion.perform, Companion.pause, Companion.withControl] using h
  | resume => simpa [Companion.perform, Companion.resume, Companion.withControl] using h
  | emergencyStop => rfl
  | expirePermitsForDiagnostic => exact h
  | resetSession newSessionId => exact absurd rfl (hreset newSessionId)

/-! ## Sessions -/

/-- The permit of an entry was minted, and the session was not stopped since. -/
def Pending (events : List (Event α)) (token : String) (entry : StoredPermit) : Prop :=
  ∃ i permit, At events i (Event.Issues permit) ∧ permit.token = token ∧
    permit.binding = entry.binding ∧ entry.expiresAtMs ≤ permit.expiresAtMs ∧
    (∀ k, i < k → ¬ At events k Event.Stops) ∧
    (entry.consumed = false → ∀ k presented, ¬ At events k (Event.Authorizes token presented))

/-- The authorization with the index uses a permit with the binding that was minted before,
that is not expired, and after which the session was not stopped. -/
def UsesPermit (E : Environment) (events : List (Event α)) (j : ℕ) (token : String)
    (presented : PermitBinding) : Prop :=
  ∃ i < j, ∃ permit, At events i (Event.Issues permit) ∧ permit.token = token ∧
    permit.binding = presented ∧ E.nowMs j < permit.expiresAtMs ∧
    ∀ k, i < k → k < j → ¬ At events k Event.Stops

variable (E A) in
structure SessionInv (s : Session α) : Prop where
  lawful : ∀ i (e : Event α), s.events[i]? = some e → (e.before.perform E A i e.op).1 = e.outcome
  pending : ∀ token entry, s.companion.permits.entries (PermitStore.tokenHash E token) =
    some entry → Pending s.events token entry
  latched : ∀ k, At s.events k Event.Stops → (∃ r, k < r ∧ At s.events r Event.Resets) ∨
    s.companion.approval.control.emergencyStopped = true
  used : ∀ j token presented, At s.events j (Event.Authorizes token presented) →
    UsesPermit E s.events j token presented
  once : ∀ i j token presented presented', At s.events i (Event.Authorizes token presented) →
    At s.events j (Event.Authorizes token presented') → i = j
  resumed : ∀ k j token presented, k < j → At s.events k Event.Stops →
    At s.events j (Event.Authorizes token presented) →
    ∃ r, k < r ∧ r < j ∧ At s.events r Event.Resets

theorem Pending.append {entry old : StoredPermit} (h : Pending events token old)
    (hbinding : entry.binding = old.binding) (hexpiry : entry.expiresAtMs ≤ old.expiresAtMs)
    (hstop : ¬ e.Stops) (hused : entry.consumed = false → old.consumed = false ∧
      ∀ presented, ¬ e.Authorizes token presented) : Pending (events ++ [e]) token entry := by
  obtain ⟨i, permit, hi, htoken, hold, hexpires, hstops, hfree⟩ := h
  refine ⟨i, permit, hi.append, htoken, hold.trans hbinding.symm, hexpiry.trans hexpires,
    fun k hk hat => ?_, fun hc k presented hat => ?_⟩
  · rcases at_append.mp hat with hat | ⟨-, hat⟩
    · exact hstops k hk hat
    · exact hstop hat
  · obtain ⟨hc', hnot⟩ := hused hc
    rcases at_append.mp hat with hat | ⟨-, hat⟩
    · exact hfree hc' k presented hat
    · exact hnot presented hat

theorem UsesPermit.append (h : UsesPermit E events j token presented) (hj : j < events.length) :
    UsesPermit E (events ++ [e]) j token presented := by
  obtain ⟨i, hij, permit, hi, htoken, hbinding, hnow, hstops⟩ := h
  refine ⟨i, hij, permit, hi.append, htoken, hbinding, hnow, fun k hik hkj hat => ?_⟩
  exact hstops k hik hkj ((at_append_of_lt (hkj.trans hj)).mp hat)

/-- A permit has the token that is drawn in the operation that mints it. -/
theorem SessionInv.token_of_issues (hs : SessionInv E A s) {permit : IssuedPermit}
    (h : At s.events i (Event.Issues permit)) : permit.token = E.token i := by
  obtain ⟨e, he, hissues⟩ := h
  obtain ⟨request, binding, -, -, rfl⟩ := issues_spec ((hs.lawful i e he).trans hissues)
  rfl

/-- A token that is not drawn yet was not used. -/
theorem SessionInv.unused (htoken : Function.Injective E.token) (hs : SessionInv E A s) (k : ℕ)
    (presented : PermitBinding) :
    ¬ At s.events k (Event.Authorizes (E.token s.events.length) presented) := by
  intro hk
  obtain ⟨i, hik, permit, hi, htok, -⟩ := hs.used k _ presented hk
  have hdrawn := htoken ((hs.token_of_issues hi).symm.trans htok)
  have := hk.lt_length
  omega

theorem hash_injective (hdigest : Function.Injective E.sha256Hex) :
    Function.Injective (PermitStore.tokenHash E) :=
  hdigest.comp Protocol.utf8Bytes_injective

/-- What one operation keeps. -/
theorem SessionInv.step (htoken : Function.Injective E.token)
    (hdigest : Function.Injective E.sha256Hex) (hs : SessionInv E A s) (op : CompanionOp) :
    SessionInv E A (s.step E A op) := by
  obtain ⟨c, events⟩ := s
  -- the event that is appended
  have hevents : (Session.step E A ⟨c, events⟩ op) = ⟨(c.perform E A events.length op).2,
      events ++ [⟨op, c, (c.perform E A events.length op).1⟩]⟩ := rfl
  rw [hevents]
  generalize he : (⟨op, c, (c.perform E A events.length op).1⟩ : Event α) = e
  have hop : e.op = op := he ▸ rfl
  have hbefore : e.before = c := he ▸ rfl
  have houtcome : e.outcome = (c.perform E A events.length op).1 := he ▸ rfl
  -- what the new event authorizes
  have hnew : ∀ token presented, e.Authorizes token presented →
      c.state = .active ∧ UsesPermit E (events ++ [e]) events.length token presented ∧
      ∀ k presented', ¬ At events k (Event.Authorizes token presented') := by
    rintro token presented ⟨hauth, hok⟩
    rw [houtcome, ← hop, hauth] at hok
    obtain ⟨hactive, -, entry, hentry, hfree, hnow, hbinding⟩ := authorizes_spec hok
    obtain ⟨i, permit, hi, hissued, hpermit, hexpires, hstops, hunused⟩ :=
      hs.pending token entry hentry
    refine ⟨hactive, ⟨i, hi.lt_length, permit, hi.append, hissued, hpermit.trans hbinding,
      hnow.trans_le hexpires, fun k hik hk hat => ?_⟩, hunused hfree⟩
    exact hstops k hik ((at_append_of_lt hk).mp hat)
  refine ⟨fun i e' he' => ?_, fun token entry hentry => ?_, fun k hk => ?_,
    fun j token presented hj => ?_, fun i j token presented presented' hi hj => ?_,
    fun k j token presented hkj hk hj => ?_⟩
  · rcases at_append.mp (⟨e', he', rfl⟩ : At _ i (· = e')) with ⟨e'', hold, rfl⟩ | ⟨rfl, rfl⟩
    · exact hs.lawful i e'' hold
    · rw [hbefore, hop, houtcome]
  · obtain ⟨hstop, ⟨old, hold, hbinding, hexpiry, hused⟩ | ⟨binding, hissued, hhash, rfl⟩⟩ :=
      entries_perform hentry
    · refine (hs.pending token old hold).append hbinding hexpiry (fun h => hstop (hop ▸ h))
        fun hfree => ⟨(hused hfree).1, fun presented hauth => ?_⟩
      exact (hused hfree).2 token presented rfl (hop ▸ hauth.1) (houtcome ▸ hauth.2)
    · obtain rfl := hash_injective hdigest hhash
      refine ⟨events.length, mintedPermit E c.permits events.length binding,
        at_append.mpr (.inr ⟨rfl, houtcome.trans hissued⟩), rfl, rfl, le_rfl,
        fun k hk hat => ?_, fun _ k presented hat => ?_⟩
      · have := hat.lt_length
        simp only [List.length_append, List.length_singleton] at this
        omega
      · rcases at_append.mp hat with hat | ⟨-, hat⟩
        · exact hs.unused htoken k presented hat
        · rw [houtcome.symm.trans hat.2] at hissued
          cases hissued
  · rcases at_append.mp hk with hold | ⟨rfl, hnow⟩
    · rcases hs.latched k hold with ⟨r, hkr, hr⟩ | hlatched
      · exact .inl ⟨r, hkr, hr.append⟩
      · by_cases hreset : ∃ id, op = .resetSession id
        · have he' : e.Resets := by
            unfold Event.Resets
            rwa [hop]
          exact .inl ⟨events.length, hold.lt_length, at_append.mpr (.inr ⟨rfl, he'⟩)⟩
        · exact .inr (emergencyStopped_perform (fun id h => hreset ⟨id, h⟩) hlatched)
    · have hstop : op = .emergencyStop := hop.symm.trans hnow
      subst hstop
      exact .inr rfl
  · rcases at_append.mp hj with hold | ⟨rfl, hnow⟩
    · exact (hs.used j token presented hold).append hold.lt_length
    · exact (hnew token presented hnow).2.1
  · rcases at_append.mp hi with hold | ⟨rfl, hnow⟩ <;>
      rcases at_append.mp hj with hold' | ⟨rfl, hnow'⟩
    · exact hs.once i j token presented presented' hold hold'
    · exact absurd hold ((hnew token presented' hnow').2.2 i presented)
    · exact absurd hold' ((hnew token presented hnow).2.2 j presented')
    · rfl
  · rcases at_append.mp hj with hold | ⟨rfl, hnow⟩
    · have hk' := (at_append_of_lt (hkj.trans hold.lt_length)).mp hk
      obtain ⟨r, hkr, hrj, hr⟩ := hs.resumed k j token presented hkj hk' hold
      exact ⟨r, hkr, hrj, hr.append⟩
    · have hk' := (at_append_of_lt hkj).mp hk
      have hactive := (SessionControl.state_eq_active.mp (hnew token presented hnow).1).1
      rcases hs.latched k hk' with ⟨r, hkr, hr⟩ | hlatched
      · exact ⟨r, hkr, hr.lt_length, hr.append⟩
      · rw [hlatched] at hactive
        cases hactive

variable (E A) in
/-- The session after a sequence of operations, from a session without permits. -/
def Session.after (sessionId runId : String) (approver : α) (ttlMs : ℕ)
    (ops : List CompanionOp) : Session α :=
  (Session.start sessionId runId approver ttlMs).runs E A ops

variable {sessionId runId : String} {approver : α} {ttlMs : ℕ} {ops : List CompanionOp}

theorem inv_after (htoken : Function.Injective E.token)
    (hdigest : Function.Injective E.sha256Hex) :
    SessionInv E A (Session.after E A sessionId runId approver ttlMs ops) := by
  have hnone : ∀ (i : ℕ) (P : Event α → Prop), ¬ At [] i P := by
    rintro i P ⟨e, he, -⟩
    cases he
  refine List.foldlRecOn (motive := SessionInv E A) ops _ ⟨?_, ?_, ?_, ?_, ?_, ?_⟩
    fun s hs op _ => hs.step htoken hdigest op
  · intro i e he
    cases he
  · intro token entry he
    cases he
  · exact fun k hk => absurd hk (hnone k _)
  · exact fun j token presented hj => absurd hj (hnone j _)
  · exact fun i j token presented presented' hi => absurd hi (hnone i _)
  · exact fun k j token presented _ hk => absurd hk (hnone k _)

theorem ops_of_runs (ops : List CompanionOp) :
    (s.runs E A ops).events.map Event.op = s.events.map Event.op ++ ops := by
  induction ops generalizing s with
  | nil => simp [Session.runs]
  | cons op ops ih =>
    have hstep : (s.step E A op).events.map Event.op = s.events.map Event.op ++ [op] := by
      simp [Session.step]
    calc ((s.step E A op).runs E A ops).events.map Event.op
        = (s.step E A op).events.map Event.op ++ ops := ih
      _ = s.events.map Event.op ++ op :: ops := by rw [hstep, List.append_assoc]; rfl

/-- The approval request and the binding of a permit request have one risk. -/
def SameRisk : CompanionOp → Prop
  | .requestPermit request binding => request.risk = binding.risk
  | _ => True

instance : DecidablePred SameRisk := fun op => by
  cases op <;> unfold SameRisk <;> infer_instance

variable (A) in
/-- The operation mints a permit with the binding after the approver has approved. -/
def HumanApproved (presented : PermitBinding) (e : Event α) : Prop :=
  ∃ request, e.op = .requestPermit request presented ∧
    (A.requestApproval e.before.approval.approver request).1 = .approved

/-- In every sequence of operations, with any readings of the clock: a token authorizes one
action at most; an action is authorized only while the session is active, with the binding of a
permit that was minted before, that is not expired, and after which the session was not stopped;
after a stop no action is authorized until a reset, and a permit that was minted before the stop
is not usable. Where the approval request and the binding have one risk, a forbidden action is
not authorized, and one above normal only after a human approved it. -/
theorem permits_are_single_use (E : Environment) (A : Approver α)
    (htoken : Function.Injective E.token) (hdigest : Function.Injective E.sha256Hex)
    (sessionId runId : String) (approver : α) (ttlMs : ℕ) (ops : List CompanionOp)
    (events : List (Event α))
    (hevents : events = (Session.after E A sessionId runId approver ttlMs ops).events) :
    (∀ i j token presented presented', At events i (Event.Authorizes token presented) →
      At events j (Event.Authorizes token presented') → i = j) ∧
    (∀ j token presented, At events j (Event.Authorizes token presented) →
      UsesPermit E events j token presented ∧ At events j fun e => e.before.state = .active) ∧
    (∀ k j token presented, k < j → At events k Event.Stops →
      At events j (Event.Authorizes token presented) →
      ∃ r, k < r ∧ r < j ∧ At events r Event.Resets) ∧
    (∀ i k j permit presented, i < k → k < j → At events i (Event.Issues permit) →
      At events k Event.Stops → ¬ At events j (Event.Authorizes permit.token presented)) ∧
    ((∀ op ∈ ops, SameRisk op) → ∀ j token presented,
      At events j (Event.Authorizes token presented) → presented.risk ≠ .productionForbidden ∧
      (presented.risk ≠ .normal → ∃ i < j, At events i (HumanApproved A presented))) := by
  subst hevents
  have hinv : SessionInv E A (Session.after E A sessionId runId approver ttlMs ops) :=
    inv_after htoken hdigest
  have hlawful : ∀ j token presented,
      At (Session.after E A sessionId runId approver ttlMs ops).events j
        (Event.Authorizes token presented) →
      At (Session.after E A sessionId runId approver ttlMs ops).events j
        (fun e => e.before.state = .active) ∧ presented.risk ≠ .productionForbidden := by
    rintro j token presented ⟨e, he, hop, hok⟩
    have houtcome := hinv.lawful j e he
    rw [hop, hok] at houtcome
    obtain ⟨hactive, hrisk, -⟩ := authorizes_spec houtcome
    exact ⟨⟨e, he, hactive⟩, hrisk⟩
  refine ⟨hinv.once, fun j token presented hj => ⟨hinv.used j token presented hj,
    (hlawful j token presented hj).1⟩, hinv.resumed, ?_, ?_⟩
  · intro i k j permit presented hik hkj hi hk hj
    obtain ⟨i', -, permit', hi', htok, -, -, hstops⟩ := hinv.used j _ presented hj
    have hdrawn : E.token i' = E.token i := by
      rw [← hinv.token_of_issues hi', htok, hinv.token_of_issues hi]
    obtain rfl := htoken hdrawn
    exact hstops k hik hkj hk
  · intro hrisk j token presented hj
    refine ⟨(hlawful j token presented hj).2, fun habove => ?_⟩
    obtain ⟨i, hij, permit, ⟨e, he, hissues⟩, -, hbinding, -⟩ := hinv.used j token presented hj
    obtain ⟨request, binding, hop, happroved, rfl⟩ :=
      issues_spec ((hinv.lawful i e he).trans hissues)
    obtain rfl : binding = presented := hbinding
    have hmem : e.op ∈ ops := by
      have hops := ops_of_runs (E := E) (A := A)
        (s := Session.start sessionId runId approver ttlMs) ops
      have hmap := List.mem_map_of_mem (f := Event.op) (List.mem_of_getElem? he)
      unfold Session.after at hmap
      rw [hops] at hmap
      simpa [Session.start] using hmap
    have hsame : request.risk = binding.risk := by
      have h := hrisk e.op hmem
      rwa [hop] at h
    have hasked := (decide_eq_approved A happroved).2.2
    exact ⟨i, hij, e, he, request, hop, hasked (hsame ▸ habove)⟩
/-! ## A session that is stopped -/

/-- The text of 32 random bytes. -/
def sampleToken : String := "AAAAAAAAAAAAAAAAAAAAAAAAAAAAAAAAAAAAAAAAAAA="

/-- The draw with the number is `sampleToken`. -/
def sampleTokens (drawn n : ℕ) : String :=
  if n = drawn then sampleToken else .ofList (List.replicate n 'f')

def sampleEnvironment : Environment where
  token := sampleTokens 0
  nonceBase64 _ := "AQEBAQEBAQEBAQEBAQEBAQEBAQEBAQEBAQEBAQEBAQE="
  nowMs n := 1000 * n
  sha256Hex := Protocol.digestOf
    [(sampleToken.toList, "51643eac9777b63a7b268174d1fd4276daedec9bc9ea0bc6e5abf69047bc54f6")]

/-- A human who approves everything. -/
def sampleApprover : Approver Unit := ⟨fun _ _ => (.approved, ())⟩

def sampleBinding : PermitBinding := ⟨"s", "r", "a", "d", "g", .destructive⟩

def sampleRequest : ApprovalRequest := ⟨"p", "s", "r", "a", .destructive, "close"⟩

/-- A permit is used, used again, and used after a stop and a reset. -/
def stoppedSession : List CompanionOp :=
  [.requestPermit sampleRequest sampleBinding, .authorizeAction sampleToken sampleBinding,
    .authorizeAction sampleToken sampleBinding, .emergencyStop, .resetSession "s'",
    .authorizeAction sampleToken sampleBinding]

theorem sampleTokens_injective (drawn : ℕ) : Function.Injective (sampleTokens drawn) := by
  have hsample : ∀ n, sampleToken ≠ .ofList (List.replicate n 'f') := by
    intro n h
    have hmem : 'A' ∈ List.replicate n 'f' := by
      rw [← String.toList_ofList (l := List.replicate n 'f'), ← h]
      decide
    exact absurd (List.eq_of_mem_replicate hmem) (by decide)
  intro m n h
  simp only [sampleTokens] at h
  split at h <;> split at h
  · omega
  · exact absurd h (hsample n)
  · exact absurd h.symm (hsample m)
  · simpa using congrArg List.length (String.ofList_injective h)

theorem sampleEnvironment_sha256Hex : Function.Injective sampleEnvironment.sha256Hex :=
  Protocol.digestOf_injective (by decide) (by decide)

example : (Session.after sampleEnvironment sampleApprover "s" "r" () 30000
    stoppedSession).events.map Event.outcome =
      [.requested (.issued ⟨sampleToken, sampleEnvironment.nonceBase64 0, 0, 30000, sampleBinding⟩),
        .authorized, .refused .alreadyConsumed, .done, .done, .refused .unknownToken] := by
  decide

theorem stoppedSession_single_use : UsesPermit sampleEnvironment
    (Session.after sampleEnvironment sampleApprover "s" "r" () 30000 stoppedSession).events 1
    sampleToken sampleBinding :=
  ((permits_are_single_use sampleEnvironment sampleApprover (sampleTokens_injective 0)
    sampleEnvironment_sha256Hex "s" "r" () 30000 stoppedSession _ rfl).2.1 1 sampleToken
      sampleBinding ⟨_, rfl, rfl, rfl⟩).1

end Qualigence.Desktop
